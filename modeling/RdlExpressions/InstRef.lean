import RdlExpressions.PredictType
import RdlExpressions.Width

/-!
# Hierarchical references

`InstRef.predict_type` and `InstRef.get_value` walk the same path of `get_child_by_name` lookups
from the same base instance. When the prediction succeeds, every lookup of the evaluation finds a
child, and a successful evaluation builds one `(name, idx_list)` entry per segment, with one
in-range index per declared dimension on each addressable array.

The range check does not report what it is meant to report: its `msg.fatal` names
`array_suffix.err_ctx`, and `array_suffix` is a variable of `predict_type`, unbound in
`get_value`. An index out of range raises `NameError` instead of the fatal diagnostic. The
prediction also checks nothing about the type of an index, so a string index is accepted and its
comparison with the dimension raises `TypeError`.
-/

namespace RdlExpressions

def Value.Below : Value -> Nat -> Prop
  | .int n, d => n < d
  | .bool b, d => (if b then 1 else 0) < d
  | _, _ => False

theorem Value.below_of_geDim {v : Value} {d : Nat} (h : v.geDim d = .ok false) : v.Below d := by
  cases v <;> simp_all [Value.geDim, Value.Below, not_le, Int.not_le]

theorem checkIndexRange_forall₂ :
    ∀ {vs : List Value} {ds : List Nat} {u : Unit}, checkIndexRange vs ds = .ok u ->
      vs.length = ds.length -> List.Forall₂ Value.Below vs ds
  | [], [], _, _, _ => .nil
  | v :: vs, d :: ds, _, h, hlen => by
      simp only [checkIndexRange, bind_eq_ok] at h
      obtain ⟨out, hg, h⟩ := h
      cases out
      · exact .cons (Value.below_of_geDim hg) (checkIndexRange_forall₂ h (by simpa using hlen))
      · cases h

/-- A register model whose root `0` has one child `arr`, the component `1`, an addressable array
of dimensions `[4, 8]`; every component has class `7`. -/
def ComponentTree.rootWithArray : ComponentTree :=
  ⟨fun c name => if c = 0 ∧ name = "arr" then some 1 else none, fun _ => true,
    fun c => decide (c = 1), fun c => if c = 1 then [4, 8] else [], fun _ => 7⟩

section

variable (T : ComponentTree)

/-- `path` is what `get_value` should build for `els` from `cur`: one `(name, idx_list)` per
segment, with in-range indices exactly on addressable arrays. -/
def PathMatches : Nat -> List (Token × List Expr) -> List (String × Option (List Value)) -> Prop
  | _, [], path => path = []
  | cur, (tok, _) :: rest, path => ∃ c, T.getChildByName cur tok.text = some c ∧
      ∃ idx path', path = (tok.text, idx) :: path' ∧
        (if T.isAddressableArray c then
          ∃ vs, idx = some vs ∧ List.Forall₂ Value.Below vs (T.arrayDimensions c)
        else idx = none) ∧
        PathMatches c rest path'

theorem getValueSuffixes_length :
    ∀ {es : List Expr} {ss : List State} {vs : List Value} {ss' : List State},
      getValueSuffixes T es ss = .ok (vs, ss') -> vs.length = es.length
  | [], _, _, _, h => by
      simp only [getValueSuffixes, pure_eq_ok, Prod.mk.injEq] at h
      rw [← h.1]
      rfl
  | _ :: _, _, _, _, h => by
      simp only [getValueSuffixes, bind_eq_ok, pure_eq_ok, Prod.mk.injEq] at h
      obtain ⟨_, -, ⟨vs, _⟩, hvs, rfl, -⟩ := h
      simp [getValueSuffixes_length hvs]

/-- Once `predict_type` has accepted the path, a successful `get_value` builds the path it is
meant to build. -/
theorem getValueRefElements_pathMatches :
    ∀ (els : List (Token × List Expr)) {cur c : Nat} {ss₀ ss : List State}
      {path : List (String × Option (List Value))} {segs : List State},
      predictTypeRefElements T cur els ss₀ = .ok c ->
      getValueRefElements T cur els ss = .ok (path, segs) -> PathMatches T cur els path
  | [], _, _, _, _, _, _, _, h => by
      simp only [getValueRefElements, pure_eq_ok, Prod.mk.injEq] at h
      exact h.1.symm
  | (tok, sufs) :: rest, cur, c, ss₀, ss, path, segs, hp, h => by
      simp only [predictTypeRefElements] at hp
      cases hchild : T.getChildByName cur tok.text with
      | none => simp [hchild] at hp
      | some c' =>
          simp only [hchild, bind_eq_ok] at hp
          obtain ⟨_, -, hp⟩ := hp
          have hrest : predictTypeRefElements T c' rest ss₀.tail = .ok c ∧
              (T.isAddressableArray c' -> sufs.length = (T.arrayDimensions c').length) := by
            split at hp <;> split at hp <;>
              first | exact ⟨hp, by simp_all⟩ | simp [bind, Except.bind] at hp
          simp only [getValueRefElements, hchild] at h
          split at h
          · rename_i harr
            simp only [bind_assoc, pure_bind, bind_eq_ok, pure_eq_ok, Prod.mk.injEq] at h
            obtain ⟨⟨vs, sst⟩, hvs, _, hcheck, ⟨path', segs'⟩, hpath, rfl, -⟩ := h
            refine ⟨c', hchild, some vs, path', rfl, ?_,
              getValueRefElements_pathMatches rest hrest.1 hpath⟩
            simp only [harr, if_true]
            refine ⟨vs, rfl, checkIndexRange_forall₂ hcheck ?_⟩
            rw [getValueSuffixes_length T hvs, hrest.2 harr]
          · rename_i harr
            simp only [pure_bind, bind_eq_ok, pure_eq_ok, Prod.mk.injEq] at h
            obtain ⟨⟨path', segs'⟩, hpath, rfl, -⟩ := h
            exact ⟨c', hchild, none, path', rfl, by simp [harr],
              getValueRefElements_pathMatches rest hrest.1 hpath⟩

end

/-- `arr[1][2]` resolves to the child `arr` with its two in-range indices. -/
theorem getValueRefElements_pathMatches_arr :
    PathMatches .rootWithArray 0 [(⟨5, "arr"⟩, [.intLiteral 0 1 64, .intLiteral 0 2 64])]
      [("arr", some [.int 1, .int 2])] :=
  @getValueRefElements_pathMatches .rootWithArray _ 0 1 [] [] _ _ rfl rfl

/-- `arr[4][0]` passes `predict_type`, and its `get_value()` raises `NameError` in place of the
out-of-range report. -/
theorem index_out_of_range_raises_nameError :
    predictType .rootWithArray (.instRef 0 0 [(⟨5, "arr"⟩, [.intLiteral 0 4 64,
        .intLiteral 0 0 64])]) .fresh = .ok (.component 7) ∧
      (resolveExprWidth .rootWithArray (.instRef 0 0 [(⟨5, "arr"⟩, [.intLiteral 0 4 64,
          .intLiteral 0 0 64])]) .fresh >>= fun s =>
        (getValue .rootWithArray (.instRef 0 0 [(⟨5, "arr"⟩, [.intLiteral 0 4 64,
          .intLiteral 0 0 64])]) s).map Prod.fst) = .error (.nameError "array_suffix") :=
  ⟨rfl, rfl⟩

/-- `arr["x"][0]` is accepted by `predict_type`, which does not check the type of an index, and
after `resolve_expr_width()` its `get_value()` raises `TypeError` at `"x" >= 4`. -/
theorem string_index_raises_typeError :
    predictType .rootWithArray (.instRef 0 0 [(⟨5, "arr"⟩, [.stringLiteral 0 "x",
        .intLiteral 0 0 64])]) .fresh = .ok (.component 7) ∧
      (resolveExprWidth .rootWithArray (.instRef 0 0 [(⟨5, "arr"⟩, [.stringLiteral 0 "x",
          .intLiteral 0 0 64])]) .fresh >>= fun s =>
        (getValue .rootWithArray (.instRef 0 0 [(⟨5, "arr"⟩, [.stringLiteral 0 "x",
          .intLiteral 0 0 64])]) s).map Prod.fst) = .error .typeError :=
  ⟨rfl, rfl⟩

end RdlExpressions

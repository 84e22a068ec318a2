import RdlExpressions.Table

/-!
# A tree under a sequence of calls

The attributes of a tree persist between calls of its methods, and one tree can receive calls
from several places: the bound expression of a parameter is a single object, which every
`ParameterRef` to the parameter resolves and evaluates in its own context. A run is any sequence
of `resolve_expr_width()`, `propagate_eval_width(w)`, `get_min_eval_width()` and `get_value()` on
the root of one tree.

On the trees of the operator-category table (`resolvesInside`), every call keeps the memoized
cast widths those of the table (`MemoConsistent`), so what `get_value()` returns after a
resolution or a propagation is the table's value whatever calls came before.
-/

namespace RdlExpressions

/-- A call of one of the methods of `Expr` that read or write the attributes. -/
inductive Call
  | resolveExprWidth
  | propagateEvalWidth (w : Int)
  | getMinEvalWidth
  | getValue
  deriving Repr, DecidableEq

section

variable (T : ComponentTree)

/-- The attributes after one call on the root of `e`; what the call returns is dropped. -/
def Call.run (e : Expr) : Call -> State -> Except Diag State
  | .resolveExprWidth, s => RdlExpressions.resolveExprWidth T e s
  | .propagateEvalWidth w, s => RdlExpressions.propagateEvalWidth T w e s
  | .getMinEvalWidth, s => do
      let p ← RdlExpressions.getMinEvalWidth T e s
      pure p.2
  | .getValue, s => do
      let p ← RdlExpressions.getValue T e s
      pure p.2

/-- The calls one after the other on the root of `e`; a diagnostic ends the run. -/
def runCalls (e : Expr) : List Call -> State -> Except Diag State
  | [], s => pure s
  | c :: cs, s => do runCalls e cs (← c.run T e s)

@[simp] theorem runCalls_nil (e : Expr) (s : State) : runCalls T e [] s = .ok s := rfl

theorem runCalls_cons_eq_ok {e : Expr} {c : Call} {cs : List Call} {s s' : State} :
    runCalls T e (c :: cs) s = .ok s' ↔ ∃ s₁, c.run T e s = .ok s₁ ∧ runCalls T e cs s₁ = .ok s' :=
  bind_eq_ok

mutual

theorem memoConsistent_getValue : ∀ (e : Expr) {s s' : State} {v : Value},
    MemoConsistent T e s -> getValue T e s = .ok (v, s') -> MemoConsistent T e s'
  | .intLiteral .., _, _, _, hs, h
  | .builtinEnumLiteral .., _, _, _, hs, h
  | .stringLiteral .., _, _, _, hs, h
  | .reduction .boolNot .., _, _, _, hs, h => by
      obtain ⟨rfl, rfl⟩ := Prod.mk.inj (Except.ok.inj h)
      exact hs
  | .binaryInt _ _ l r, _, _, _, hs, h
  | .expShift _ _ l r, _, _, _, hs, h => by
      obtain ⟨⟨lv, sl⟩, hl, h⟩ := bind_eq_ok.mp h
      obtain ⟨a, -, h⟩ := bind_eq_ok.mp h
      obtain ⟨⟨rv, sr⟩, hr, h⟩ := bind_eq_ok.mp h
      obtain ⟨b, -, h⟩ := bind_eq_ok.mp h
      obtain ⟨x, -, h⟩ := bind_eq_ok.mp h
      obtain ⟨y, -, h⟩ := bind_eq_ok.mp h
      obtain ⟨rfl, rfl⟩ := Prod.mk.inj (Except.ok.inj h)
      exact ⟨memoConsistent_getValue l hs.1 hl, memoConsistent_getValue r hs.2 hr⟩
  | .relational _ _ l r, _, _, _, hs, h => by
      obtain ⟨⟨lv, sl⟩, hl, h⟩ := bind_eq_ok.mp h
      obtain ⟨a, -, h⟩ := bind_eq_ok.mp h
      obtain ⟨⟨rv, sr⟩, hr, h⟩ := bind_eq_ok.mp h
      obtain ⟨b, -, h⟩ := bind_eq_ok.mp h
      obtain ⟨rfl, rfl⟩ := Prod.mk.inj (Except.ok.inj h)
      exact ⟨memoConsistent_getValue l hs.1 hl, memoConsistent_getValue r hs.2 hr⟩
  | .unaryInt _ _ n, _, _, _, hs, h
  | .reduction .andReduce _ n, _, _, _, hs, h
  | .reduction .nandReduce _ n, _, _, _, hs, h
  | .reduction .orReduce _ n, _, _, _, hs, h
  | .reduction .norReduce _ n, _, _, _, hs, h
  | .reduction .xorReduce _ n, _, _, _, hs, h
  | .reduction .xnorReduce _ n, _, _, _, hs, h
  | .widthCast _ n _, _, _, _, hs, h => by
      obtain ⟨⟨nv, sn⟩, hn, h⟩ := bind_eq_ok.mp h
      obtain ⟨a, -, h⟩ := bind_eq_ok.mp h
      obtain ⟨x, -, h⟩ := bind_eq_ok.mp h
      obtain ⟨rfl, rfl⟩ := Prod.mk.inj (Except.ok.inj h)
      exact memoConsistent_getValue n hs hn
  | .widthCastExpr _ v _, _, _, _, hs, h => by
      obtain ⟨⟨vv, sv⟩, hv, h⟩ := bind_eq_ok.mp h
      obtain ⟨a, -, h⟩ := bind_eq_ok.mp h
      obtain ⟨x, -, h⟩ := bind_eq_ok.mp h
      obtain ⟨rfl, rfl⟩ := Prod.mk.inj (Except.ok.inj h)
      exact ⟨memoConsistent_getValue v hs.1 hv, hs.2⟩
  | .boolExpr _ _ l r, _, _, _, hs, h => by
      obtain ⟨⟨lv, sl⟩, hl, h⟩ := bind_eq_ok.mp h
      obtain ⟨⟨rv, sr⟩, hr, h⟩ := bind_eq_ok.mp h
      obtain ⟨rfl, rfl⟩ := Prod.mk.inj (Except.ok.inj h)
      exact ⟨memoConsistent_getValue l hs.1 hl, memoConsistent_getValue r hs.2 hr⟩
  | .ternary _ i j k, _, _, _, hs, h => by
      obtain ⟨⟨iv, si⟩, hi, h⟩ := bind_eq_ok.mp h
      obtain ⟨⟨jv, sj⟩, hj, h⟩ := bind_eq_ok.mp h
      obtain ⟨⟨kv, sk⟩, hk, h⟩ := bind_eq_ok.mp h
      obtain ⟨rfl, rfl⟩ := Prod.mk.inj (Except.ok.inj h)
      exact ⟨memoConsistent_getValue i hs.1 hi, memoConsistent_getValue j hs.2.1 hj,
        memoConsistent_getValue k hs.2.2 hk⟩
  | .boolCast _ n, _, _, _, hs, h => by
      obtain ⟨⟨nv, sn⟩, hn, h⟩ := bind_eq_ok.mp h
      obtain ⟨a, -, h⟩ := bind_eq_ok.mp h
      obtain ⟨rfl, rfl⟩ := Prod.mk.inj (Except.ok.inj h)
      exact memoConsistent_getValue n hs hn
  | .parameterRef _ _ _ none, _, _, _, _, h => nomatch h
  | .parameterRef _ _ _ (some n), _, _, _, hs, h
  | .assignmentCast _ n _, _, _, _, hs, h => by
      obtain ⟨⟨nv, sn⟩, hn, h⟩ := bind_eq_ok.mp h
      obtain ⟨rfl, rfl⟩ := Prod.mk.inj (Except.ok.inj h)
      exact memoConsistent_getValue n hs hn
  | .instRef refInst _ els, _, _, _, hs, h => by
      obtain ⟨⟨path, segs⟩, hp, h⟩ := bind_eq_ok.mp h
      obtain ⟨rfl, rfl⟩ := Prod.mk.inj (Except.ok.inj h)
      exact memoConsistentRefElements_getValue refInst els hs hp

theorem memoConsistentRefElements_getValue : ∀ (cur : Nat) (els : List (Token × List Expr))
    {ss ss' : List State} {path : List (String × Option (List Value))},
    MemoConsistentRefElements T els ss -> getValueRefElements T cur els ss = .ok (path, ss') ->
      MemoConsistentRefElements T els ss'
  | _, [], _, _, _, _, _ => trivial
  | cur, (tok, sufs) :: rest, _, _, _, hs, h => by
      simp only [getValueRefElements] at h
      cases hc : T.getChildByName cur tok.text with
      | none => simp [hc] at h
      | some c =>
          simp only [hc] at h
          split at h
          · simp only [bind_assoc, pure_bind, bind_eq_ok, pure_eq_ok, Prod.mk.injEq] at h
            obtain ⟨⟨idx, sufStates⟩, hsufs, -, -, ⟨path, restStates⟩, hrest, rfl, rfl⟩ := h
            exact ⟨memoConsistentSuffixes_getValue sufs hs.1 hsufs,
              memoConsistentRefElements_getValue c rest hs.2 hrest⟩
          · simp only [pure_bind, bind_eq_ok, pure_eq_ok, Prod.mk.injEq] at h
            obtain ⟨⟨path, restStates⟩, hrest, rfl, rfl⟩ := h
            exact ⟨hs.1, memoConsistentRefElements_getValue c rest hs.2 hrest⟩

theorem memoConsistentSuffixes_getValue : ∀ (es : List Expr) {ss ss' : List State}
    {vs : List Value}, MemoConsistentSuffixes T es ss -> getValueSuffixes T es ss = .ok (vs, ss') ->
      MemoConsistentSuffixes T es ss'
  | [], _, _, _, _, _ => trivial
  | e :: es, _, _, _, hs, h => by
      obtain ⟨⟨v, s⟩, he, h⟩ := bind_eq_ok.mp h
      obtain ⟨⟨vs, ss⟩, hes, h⟩ := bind_eq_ok.mp h
      obtain ⟨rfl, rfl⟩ := Prod.mk.inj (Except.ok.inj h)
      exact ⟨memoConsistent_getValue e hs.1 he, memoConsistentSuffixes_getValue es hs.2 hes⟩

end

variable {T}

theorem memoConsistent_run {e : Expr} (he : (resolvesOperands e && resolvesInside e) = true)
    {s s' : State} (hs : MemoConsistent T e s) :
    ∀ (c : Call), c.run T e s = .ok s' -> MemoConsistent T e s'
  | .resolveExprWidth, h =>
      have ⟨heo, hei⟩ := Bool.and_eq_true_iff.mp he
      ((refines_of_resolvesInside T e hei).resolve heo hs h).1
  | .propagateEvalWidth _, h =>
      ((refines_of_resolvesInside T e (Bool.and_eq_true_iff.mp he).2).propagate hs h).1
  | .getMinEvalWidth, h => by
      obtain ⟨_, hm, h⟩ := bind_eq_ok.mp h
      obtain rfl := Except.ok.inj h
      exact ((refines_of_resolvesInside T e (Bool.and_eq_true_iff.mp he).2).minWidth hs hm).2
  | .getValue, h => by
      obtain ⟨_, hv, h⟩ := bind_eq_ok.mp h
      obtain rfl := Except.ok.inj h
      exact memoConsistent_getValue T e hs hv

theorem memoConsistent_runCalls {e : Expr} (he : (resolvesOperands e && resolvesInside e) = true) :
    ∀ (cs : List Call) {s s' : State}, MemoConsistent T e s -> runCalls T e cs s = .ok s' ->
      MemoConsistent T e s'
  | [], _, _, hs, h => Except.ok.inj h ▸ hs
  | c :: cs, _, _, hs, h => by
      obtain ⟨s₁, h₁, h⟩ := (runCalls_cons_eq_ok T).mp h
      exact memoConsistent_runCalls he cs (memoConsistent_run he hs c h₁) h

/-- On the table's trees, after any run of calls, `resolve_expr_width()` or
`propagate_eval_width(W)` and then `get_value()` give the table's value. -/
theorem getValue_after_runCalls_eq_table {e : Expr}
    (he : (resolvesOperands e && resolvesInside e) = true) (cs : List Call) {s s₁ : State}
    (hs : MemoConsistent T e s) (hr : runCalls T e cs s = .ok s₁) :
    (∀ {s₂ : State}, resolveExprWidth T e s₁ = .ok s₂ ->
      (getValue T e s₂).map Prod.fst = tableResolved T e) ∧
    (∀ {W : Int} {s₂ : State}, propagateEvalWidth T W e s₁ = .ok s₂ ->
      (getValue T e s₂).map Prod.fst = tableValue T W e) := by
  obtain ⟨heo, hei⟩ := Bool.and_eq_true_iff.mp he
  have href := refines_of_resolvesInside T e hei
  have hs₁ := memoConsistent_runCalls he cs hs hr
  refine ⟨fun hres => ?_, fun hp => exceptRel_fst_iff.mp (href.propagate hs₁ hp).2⟩
  obtain ⟨-, w, hw, hrel⟩ := href.resolve heo hs₁ hres
  rw [exceptRel_fst_iff.mp hrel]
  exact (bind_eq_of_ok hw rfl : tableResolved T e = _).symm

end

/-- `(4'd15 + 4'd3)` cast to the width `2'd2 + 2'd1`, resolved after a propagation at width 8, a
`get_value()` and a `get_min_eval_width()`: the value is `18` truncated to 3 bits. -/
theorem getValue_after_runCalls_eq_table_widthCast :
    ∃ s₁ s₂,
      runCalls .leaf (.widthCastExpr 0 (.binaryInt .add 0 (.intLiteral 0 15 4) (.intLiteral 0 3 4))
        (.binaryInt .add 0 (.intLiteral 0 2 2) (.intLiteral 0 1 2)))
        [.propagateEvalWidth 8, .getValue, .getMinEvalWidth] .fresh = .ok s₁ ∧
      resolveExprWidth .leaf (.widthCastExpr 0
        (.binaryInt .add 0 (.intLiteral 0 15 4) (.intLiteral 0 3 4))
        (.binaryInt .add 0 (.intLiteral 0 2 2) (.intLiteral 0 1 2))) s₁ = .ok s₂ ∧
      (getValue .leaf (.widthCastExpr 0 (.binaryInt .add 0 (.intLiteral 0 15 4) (.intLiteral 0 3 4))
        (.binaryInt .add 0 (.intLiteral 0 2 2) (.intLiteral 0 1 2))) s₂).map Prod.fst =
        tableResolved .leaf (.widthCastExpr 0
          (.binaryInt .add 0 (.intLiteral 0 15 4) (.intLiteral 0 3 4))
          (.binaryInt .add 0 (.intLiteral 0 2 2) (.intLiteral 0 1 2))) ∧
      tableResolved .leaf (.widthCastExpr 0
        (.binaryInt .add 0 (.intLiteral 0 15 4) (.intLiteral 0 3 4))
        (.binaryInt .add 0 (.intLiteral 0 2 2) (.intLiteral 0 1 2))) = .ok (.int 2) :=
  ⟨_, _, rfl, rfl, (getValue_after_runCalls_eq_table (by rfl)
    [.propagateEvalWidth 8, .getValue, .getMinEvalWidth] (memoConsistent_fresh .leaf _)
    (by rfl)).1 (by rfl), rfl⟩

end RdlExpressions

import RdlExpressions.InstRef
import RdlExpressions.Soundness
import RdlExpressions.Table

/-!
# What `predict_type` guarantees

`predict_type` is the static check of an expression: the compiler calls it before it resolves
widths and evaluates. Two things follow from its verdict.

It is stable. The one attribute it reads is a memoized `cast_width`, and a set memo only lets it
skip the check of a width operand. So once it accepts a new tree, it accepts the tree with the
same type from whatever attributes the width passes and `get_value` leave.

Typed trees do not crash. Take a tree it accepts whose integer literals and fixed cast widths are
nonnegative, whose parameters are bound to expressions of a compatible type and whose array
indices have numeric types. Its value by the table, in a context of any nonnegative width, is a
nonnegative value of the predicted type, or the evaluation stops with a diagnostic the compiler
reports through `msg.fatal`. One Python exception is left: the `NameError` that the range check
of `InstRef.get_value` raises in place of its report. On the fragment where the code computes the
table's values, the same holds of `get_value()` after `resolve_expr_width()`.
-/

namespace RdlExpressions

/-!
## Stability
-/

section

variable (T : ComponentTree)

mutual

theorem predictType_stable :
    ∀ (e : Expr) {τ : RdlType}, predictType T e .fresh = .ok τ ->
      ∀ s, predictType T e s = .ok τ
  | .intLiteral .., _, h, _ | .builtinEnumLiteral .., _, h, _ | .stringLiteral .., _, h, _
  | .parameterRef .., _, h, _ => h
  | .binaryInt _ _ l r, _, h, _ | .relational _ _ l r, _, h, _ | .boolExpr _ _ l r, _, h, _
  | .expShift _ _ l r, _, h, _ => by
      obtain ⟨tl, hl, htl, tr, hr, htr, rfl⟩ := requireNumeric_two_eq_ok.mp h
      exact requireNumeric_two_eq_ok.mpr
        ⟨tl, predictType_stable l hl _, htl, tr, predictType_stable r hr _, htr, rfl⟩
  | .unaryInt _ _ n, _, h, _ | .reduction _ _ n, _, h, _ | .widthCast _ n _, _, h, _
  | .boolCast _ n, _, h, _ => by
      obtain ⟨tn, hn, htn, rfl⟩ := requireNumeric_one_eq_ok.mp h
      exact requireNumeric_one_eq_ok.mpr ⟨tn, predictType_stable n hn _, htn, rfl⟩
  | .ternary _ i j k, _, h, _ => by
      obtain ⟨ti, hi, hti, tj, hj, tk, hk, h⟩ := predictType_ternary_eq_ok.mp h
      exact predictType_ternary_eq_ok.mpr ⟨ti, predictType_stable i hi _, hti,
        tj, predictType_stable j hj _, tk, predictType_stable k hk _, h⟩
  | .widthCastExpr _ v wExpr, _, h, _ => by
      obtain ⟨hw, tv, hv, htv, rfl⟩ := predictType_widthCastExpr_eq_ok.mp h
      obtain ⟨tw, hw, htw⟩ := hw rfl
      exact predictType_widthCastExpr_eq_ok.mpr
        ⟨fun _ => ⟨tw, predictType_stable wExpr hw _, htw⟩,
          tv, predictType_stable v hv _, htv, rfl⟩
  | .instRef _ _ els, _, h, s => by
      obtain ⟨c, hc, h⟩ := bind_eq_ok.mp h
      exact bind_eq_of_ok (predictTypeRefElements_stable els hc s.ops) h
  | .assignmentCast _ v _, _, h, _ => by
      obtain ⟨tv, hv, hc, rfl⟩ := predictType_assignmentCast_eq_ok.mp h
      exact predictType_assignmentCast_eq_ok.mpr ⟨tv, predictType_stable v hv _, hc, rfl⟩

theorem predictTypeRefElements_stable :
    ∀ (els : List (Token × List Expr)) {cur c : Nat},
      predictTypeRefElements T cur els [] = .ok c ->
      ∀ ss, predictTypeRefElements T cur els ss = .ok c
  | [], _, _, h, _ => h
  | (_, sufs) :: rest, _, _, h, _ => by
      obtain ⟨c', hchild, hsufs, hlen, hrest⟩ := predictTypeRefElements_cons_eq_ok.mp h
      exact predictTypeRefElements_cons_eq_ok.mpr ⟨c', hchild,
        predictTypeSuffixes_stable sufs hsufs _, hlen, predictTypeRefElements_stable rest hrest _⟩

theorem predictTypeSuffixes_stable :
    ∀ (es : List Expr), predictTypeSuffixes T es [] = .ok () ->
      ∀ ss, predictTypeSuffixes T es ss = .ok ()
  | [], h, _ => h
  | e :: es, h, _ => by
      obtain ⟨τ, he, hes⟩ := predictTypeSuffixes_cons_eq_ok.mp h
      exact predictTypeSuffixes_cons_eq_ok.mpr
        ⟨τ, predictType_stable e he _, predictTypeSuffixes_stable es hes _⟩

end

end

/-- The diagnostics a typed tree may stop with: a report through `msg.fatal`, or the `NameError`
the range check of `InstRef.get_value` raises in place of its report. -/
def Diag.Reported : Diag -> Prop
  | .fatal _ _ => True
  | .nameError name => name = "array_suffix"
  | _ => False

/-- A computation that succeeds with a result satisfying `P` or stops with a reported diagnostic:
it raises no other Python exception and does not loop. -/
def Safe {α : Type} (P : α -> Prop) : Except Diag α -> Prop
  | .ok a => P a
  | .error d => d.Reported

theorem Safe.bind_ok {α β : Type} {P : α -> Prop} {Q : β -> Prop} {x : Except Diag α}
    {f : α -> Except Diag β} (h : Safe P x) (hf : ∀ a, x = .ok a -> P a -> Safe Q (f a)) :
    Safe Q (x >>= f) := by
  cases x with
  | error _ => exact h
  | ok a => exact hf a rfl h

theorem Safe.bind {α β : Type} {P : α -> Prop} {Q : β -> Prop} {x : Except Diag α}
    {f : α -> Except Diag β} (h : Safe P x) (hf : ∀ a, P a -> Safe Q (f a)) : Safe Q (x >>= f) :=
  h.bind_ok fun a _ => hf a

theorem Safe.pure {α : Type} {P : α -> Prop} {a : α} (h : P a) : Safe P (pure a) := h

theorem Safe.imp {α : Type} {P Q : α -> Prop} {x : Except Diag α} (h : Safe P x)
    (hPQ : ∀ a, P a -> Q a) : Safe Q x := by
  cases x with
  | error _ => exact h
  | ok a => exact hPQ a h

theorem Safe.of_ok {α : Type} {P Q : α -> Prop} {x : Except Diag α} (h : Safe P x)
    (hQ : ∀ a, x = .ok a -> Q a) : Safe Q x := by
  cases x with
  | error _ => exact h
  | ok a => exact hQ a rfl

theorem Safe.of_exceptRel {α β : Type} {R : α -> β -> Prop} {P : α -> Prop} {Q : β -> Prop}
    {x : Except Diag α} {y : Except Diag β} (h : ExceptRel R x y) (hy : Safe Q y)
    (hPQ : ∀ a b, R a b -> Q b -> P a) : Safe P x := by
  cases x <;> cases y
  · exact (h : _ = _) ▸ hy
  · exact h.elim
  · exact h.elim
  · exact hPQ _ _ h hy

theorem Value.HasType.int_or_bool {v : Value} {τ : RdlType} (h : v.HasType τ)
    (hτ : τ.isNumeric) : (∃ n, v = .int n) ∨ ∃ b, v = .bool b := by
  cases v with
  | int n => exact .inl ⟨n, rfl⟩
  | bool b => exact .inr ⟨b, rfl⟩
  | str _ | enum _ => cases h; cases hτ
  | componentRef _ _ => cases τ <;> simp_all [Value.HasType, RdlType.isNumeric]

/-!
## Builtins that do not crash

Each builtin, applied to what a typed tree gives it, succeeds or reports.
-/

theorem Value.toInt_safe {v : Value} {τ : RdlType} (hty : v.HasType τ) (hτ : τ.isNumeric)
    (hn : v.NonNeg) : Safe (0 ≤ ·) v.toInt := by
  obtain ⟨n, rfl⟩ | ⟨b, rfl⟩ := hty.int_or_bool hτ
  · exact hn
  · exact .pure (by split <;> decide)

theorem Value.toWidth_safe {v : Value} {τ : RdlType} (hty : v.HasType τ) (hτ : τ.isNumeric)
    (hn : v.NonNeg) : Safe (0 ≤ ·) v.toWidth := by
  obtain ⟨n, rfl⟩ | ⟨b, rfl⟩ := hty.int_or_bool hτ
  · exact hn
  · exact .pure (by split <;> decide)

theorem trunc_safe {w : Int} (hw : 0 ≤ w) (v : Int) : Safe (0 ≤ ·) (trunc (some w) v) := by
  rw [trunc_of_nonneg hw]
  exact .pure (Int.emod_nonneg _ (by positivity))

theorem castTrunc_safe (c : ErrCtx) {w : Int} (hw : 0 ≤ w) (v : Int) :
    Safe (0 ≤ ·) (castTrunc c (some w) v) := by
  unfold castTrunc
  split
  · exact trivial
  · exact trunc_safe hw v

theorem BinaryIntOp.apply_safe (o : BinaryIntOp) (c : ErrCtx) (a b : Int) :
    Safe (fun _ => True) (o.apply c a b) := by
  cases o <;> simp only [BinaryIntOp.apply] <;> (try split) <;> trivial

theorem ExpShiftOp.apply_safe (o : ExpShiftOp) (a : Int) {b : Int} (hb : 0 ≤ b) :
    Safe (fun _ => True) (o.apply a b) := by
  cases o <;> simp only [ExpShiftOp.apply, intPow, shiftLeft, shiftRight, if_pos hb,
    if_neg (not_lt.mpr hb)] <;> exact .pure trivial

theorem ReductionOp.apply_safe (o : ReductionOp) {w n : Int} (hw : 0 ≤ w) (hn : 0 ≤ n) :
    Safe (fun v => v.HasType .int ∧ v.NonNeg) (o.apply (some w) n) := by
  cases o with
  | andReduce =>
      exact (trunc_safe hw _).bind fun m _ => .pure ⟨rfl, by split <;> simp [Value.NonNeg]⟩
  | nandReduce | orReduce | norReduce => exact .pure ⟨rfl, by split <;> simp [Value.NonNeg]⟩
  | xorReduce | xnorReduce =>
      simp only [ReductionOp.apply, parityOf_of_nonneg hn]
      exact .pure ⟨rfl, Int.natCast_nonneg _⟩
  | boolNot => exact .pure ⟨rfl, trivial⟩

theorem checkIndexRange_safe :
    ∀ {vs : List Value} {ds : List Nat}, (∀ v ∈ vs, v.HasType .int) ->
      vs.length = ds.length -> Safe (fun _ => True) (checkIndexRange vs ds)
  | [], [], _, _ => .pure trivial
  | v :: vs, d :: ds, hv, hlen => by
      have hrest : Safe (fun _ => True) (checkIndexRange vs ds) :=
        checkIndexRange_safe (fun v h => hv v (List.mem_cons_of_mem _ h)) (by simpa using hlen)
      obtain ⟨n, rfl⟩ | ⟨b, rfl⟩ := (hv _ (List.mem_cons_self _ _)).int_or_bool rfl <;>
        simp only [checkIndexRange, Value.geDim, pure_bind] <;> split_ifs <;>
        first | exact rfl | exact hrest

/-!
## Typed trees by the table
-/

section

variable (T : ComponentTree)

/-- A fixed cast width is nonnegative: the callers pass 64 or another positive width. -/
def CastWidthNonneg : Expr -> Prop
  | .widthCast _ _ wInt => 0 ≤ wInt
  | _ => True

/-- Every array index of a hierarchical reference has a numeric type. `predict_type` predicts the
type of each index but does not check it. -/
def IndexesNumeric : Expr -> Prop
  | .instRef _ _ els =>
      ∀ seg ∈ els, ∀ x ∈ seg.2, ∀ τ, predictType T x .fresh = .ok τ -> τ.isNumeric
  | _ => True

/-- What evaluation needs of a node beyond what `predict_type` checks. -/
def WellFormed (e : Expr) : Prop :=
  LiteralNonneg e ∧ ParamTyped T e ∧ CastWidthNonneg e ∧ IndexesNumeric T e

structure TableSafe (e : Expr) (τ : RdlType) : Prop where
  minWidth : Safe (fun _ => True) (tableMinWidth T e)
  value : ∀ {w : Int}, 0 ≤ w -> Safe (fun v => v.HasType τ ∧ v.NonNeg) (tableValue T w e)

variable {T}

theorem TableSafe.toInt {β : Type} {Q : β -> Prop} {e : Expr} {τ : RdlType}
    (h : TableSafe T e τ) (hτ : τ.isNumeric) {w : Int} (hw : 0 ≤ w)
    {f : Int -> Except Diag β} (hf : ∀ a, 0 ≤ a -> Safe Q (f a)) :
    Safe Q (tableValue T w e >>= fun v => v.toInt >>= f) :=
  (h.value hw).bind fun _ ⟨hty, hn⟩ => (Value.toInt_safe hty hτ hn).bind hf

theorem TableSafe.own {β : Type} {Q : β -> Prop} {e : Expr} {τ : RdlType} (h : TableSafe T e τ)
    {f : Value -> Except Diag β} (hf : ∀ v, v.HasType τ -> v.NonNeg -> Safe Q (f v)) :
    Safe Q (tableMinWidth T e >>= fun m => tableValue T (max 1 m) e >>= f) :=
  h.minWidth.bind fun _ _ => (h.value (by omega)).bind fun v ⟨hty, hn⟩ => hf v hty hn

theorem ternary_hasType {c : ErrCtx} {tj tk τ : RdlType}
    (h : (if tj.isNumeric && tk.isNumeric then pure .int
      else if tj ≠ tk then
        .error (.fatal "True/False results of ternary conditional are not compatible types" c)
      else pure tj : Except Diag RdlType) = .ok τ)
    {v : Value} (hv : v.HasType tj ∨ v.HasType tk) : v.HasType τ := by
  split at h
  · rename_i hnum
    simp only [Bool.and_eq_true, pure_eq_ok] at hnum h
    subst h
    exact hv.elim (·.of_numeric hnum.1 rfl) (·.of_numeric hnum.2 rfl)
  · split at h
    · cases h
    · rename_i heq
      simp only [ne_eq, not_not, pure_eq_ok] at heq h
      subst heq h
      exact hv.elim id id

variable (T)

mutual

theorem tableSafe_of_typed :
    ∀ (e : Expr) {τ : RdlType}, predictType T e .fresh = .ok τ -> e.All (WellFormed T) ->
      TableSafe T e τ
  | .intLiteral .., _, h, hw => by
      obtain rfl := Except.ok.inj h
      exact ⟨.pure trivial, fun _ => .pure ⟨rfl, hw.1⟩⟩
  | .builtinEnumLiteral .., _, h, _ | .stringLiteral .., _, h, _ => by
      obtain rfl := Except.ok.inj h
      exact ⟨.pure trivial, fun _ => .pure ⟨rfl, trivial⟩⟩
  | .binaryInt o c l r, _, h, hw => by
      obtain ⟨tl, hl, htl, tr, hr, htr, rfl⟩ := requireNumeric_two_eq_ok.mp h
      have il := tableSafe_of_typed l hl hw.2.1
      have ir := tableSafe_of_typed r hr hw.2.2
      refine ⟨il.minWidth.bind fun _ _ => ir.minWidth.bind fun _ _ => .pure trivial,
        fun hW => il.toInt htl hW fun a _ => ir.toInt htr hW fun b _ => ?_⟩
      exact (o.apply_safe c a b).bind fun v _ =>
        (trunc_safe hW v).bind fun _ hv => .pure ⟨rfl, hv⟩
  | .unaryInt _ _ n, _, h, hw => by
      obtain ⟨tn, hn, htn, rfl⟩ := requireNumeric_one_eq_ok.mp h
      have i := tableSafe_of_typed n hn hw.2
      exact ⟨i.minWidth, fun hW => i.toInt htn hW fun _ _ =>
        (trunc_safe hW _).bind fun _ hv => .pure ⟨rfl, hv⟩⟩
  | .relational _ _ l r, _, h, hw => by
      obtain ⟨tl, hl, htl, tr, hr, htr, rfl⟩ := requireNumeric_two_eq_ok.mp h
      have il := tableSafe_of_typed l hl hw.2.1
      have ir := tableSafe_of_typed r hr hw.2.2
      exact ⟨.pure trivial, fun _ => il.minWidth.bind fun _ _ => ir.minWidth.bind fun _ _ =>
        il.toInt htl (by omega) fun _ _ => ir.toInt htr (by omega) fun _ _ =>
          .pure ⟨rfl, trivial⟩⟩
  | .reduction o _ n, _, h, hw => by
      obtain ⟨tn, hn, htn, rfl⟩ := requireNumeric_one_eq_ok.mp h
      have i := tableSafe_of_typed n hn hw.2
      refine ⟨.pure trivial, fun _ => ?_⟩
      cases o
      case boolNot => exact .pure ⟨rfl, trivial⟩
      all_goals exact i.minWidth.bind fun _ _ => i.toInt htn (by omega) fun _ ha =>
        (ReductionOp.apply_safe _ (by omega) ha).bind fun _ hv => .pure hv
  | .boolExpr _ _ l r, _, h, hw => by
      obtain ⟨tl, hl, -, tr, hr, -, rfl⟩ := requireNumeric_two_eq_ok.mp h
      have il := tableSafe_of_typed l hl hw.2.1
      have ir := tableSafe_of_typed r hr hw.2.2
      exact ⟨.pure trivial, fun _ => il.own fun _ _ _ => ir.own fun _ _ _ =>
        .pure ⟨rfl, trivial⟩⟩
  | .expShift o _ l r, _, h, hw => by
      obtain ⟨tl, hl, htl, tr, hr, htr, rfl⟩ := requireNumeric_two_eq_ok.mp h
      have il := tableSafe_of_typed l hl hw.2.1
      have ir := tableSafe_of_typed r hr hw.2.2
      refine ⟨il.minWidth, fun hW => il.toInt htl hW fun a _ => ?_⟩
      exact ir.minWidth.bind fun _ _ => ir.toInt htr (by omega) fun _ hb =>
        (o.apply_safe a hb).bind fun v _ => (trunc_safe hW v).bind fun _ hv => .pure ⟨rfl, hv⟩
  | .ternary _ i j k, _, h, hw => by
      obtain ⟨ti, hi, -, tj, hj, tk, hk, h⟩ := predictType_ternary_eq_ok.mp h
      have ii := tableSafe_of_typed i hi hw.2.1
      have ij := tableSafe_of_typed j hj hw.2.2.1
      have ik := tableSafe_of_typed k hk hw.2.2.2
      refine ⟨ij.minWidth.bind fun _ _ => ik.minWidth.bind fun _ _ => .pure trivial,
        fun hW => ?_⟩
      refine ii.own fun iv _ _ => (ij.value hW).bind fun _ ⟨htj, hnj⟩ =>
        (ik.value hW).bind fun _ ⟨htk, hnk⟩ => .pure ?_
      split
      · exact ⟨ternary_hasType h (.inl htj), hnj⟩
      · exact ⟨ternary_hasType h (.inr htk), hnk⟩
  | .widthCast c v wInt, _, h, hw => by
      obtain ⟨tv, hv, htv, rfl⟩ := requireNumeric_one_eq_ok.mp h
      have i := tableSafe_of_typed v hv hw.2
      have hc : 0 ≤ wInt := hw.1.2.2.1
      exact ⟨.pure trivial, fun _ => i.minWidth.bind fun _ _ => i.toInt htv (by omega) fun a _ =>
        (castTrunc_safe c hc a).bind fun _ hr => .pure ⟨rfl, hr⟩⟩
  | .widthCastExpr c v wExpr, _, h, hw => by
      obtain ⟨hwt, tv, hv, htv, rfl⟩ := predictType_widthCastExpr_eq_ok.mp h
      obtain ⟨tw, hwe, htw⟩ := hwt rfl
      have iv := tableSafe_of_typed v hv hw.2.1
      have iw := tableSafe_of_typed wExpr hwe hw.2.2
      refine ⟨iw.own fun _ hty hn => (Value.toWidth_safe hty htw hn).imp fun _ _ => trivial,
        fun _ => iw.own fun _ hty hn => (Value.toWidth_safe hty htw hn).bind fun cw hcw => ?_⟩
      exact iv.minWidth.bind fun _ _ => iv.toInt htv (by omega) fun a _ =>
        (castTrunc_safe c hcw a).bind fun _ hr => .pure ⟨rfl, hr⟩
  | .boolCast _ n, _, h, hw => by
      obtain ⟨tn, hn, htn, rfl⟩ := requireNumeric_one_eq_ok.mp h
      have i := tableSafe_of_typed n hn hw.2
      exact ⟨.pure trivial, fun _ => i.minWidth.bind fun _ _ =>
        i.toInt htn (by omega) fun _ _ => .pure ⟨rfl, trivial⟩⟩
  | .parameterRef _ _ _ none, _, _, _ => ⟨trivial, fun _ => trivial⟩
  | .parameterRef _ _ _ (some x), _, h, hw => by
      obtain rfl := Except.ok.inj h
      obtain ⟨tx, hx, hc⟩ := hw.1.2.1
      have i := tableSafe_of_typed x hx hw.2
      exact ⟨i.minWidth, fun _ => i.own fun _ hty hn => .pure ⟨hty.of_compatible hc, hn⟩⟩
  | .instRef _ _ els, _, h, hw => by
      obtain ⟨c, hc, h⟩ := bind_eq_ok.mp h
      obtain rfl := Except.ok.inj h
      have iels := tableRefElements_safe els hc hw.2 hw.1.2.2.2
      exact ⟨.pure trivial, fun _ => iels.bind fun _ _ => .pure ⟨trivial, trivial⟩⟩
  | .assignmentCast _ v destType, _, h, hw => by
      obtain ⟨tv, hv, hc, rfl⟩ := predictType_assignmentCast_eq_ok.mp h
      have i := tableSafe_of_typed v hv hw.2
      refine ⟨i.minWidth, fun _ => i.own fun vv hty hn => .pure ⟨?_, ?_⟩⟩ <;> split
      · subst destType; rfl
      · exact hty.of_compatible hc
      · trivial
      · exact hn

theorem tableRefElements_safe :
    ∀ (els : List (Token × List Expr)) {cur c : Nat},
      predictTypeRefElements T cur els [] = .ok c -> Expr.AllElements (WellFormed T) els ->
      (∀ seg ∈ els, ∀ x ∈ seg.2, ∀ τ, predictType T x .fresh = .ok τ -> τ.isNumeric) ->
      Safe (fun _ => True) (tableRefElements T cur els)
  | [], _, _, _, _, _ => .pure trivial
  | (tok, sufs) :: rest, cur, c, h, hw, hnum => by
      obtain ⟨c', hchild, hsufs, hlen, hrest⟩ := predictTypeRefElements_cons_eq_ok.mp h
      have isufs := tableSuffixes_safe sufs hsufs hw.1 (hnum _ (List.mem_cons_self _ _))
      have irest := tableRefElements_safe rest hrest hw.2
        fun seg h => hnum seg (List.mem_cons_of_mem _ h)
      simp only [tableRefElements, hchild]
      split
      · rename_i harr
        rw [harr, if_pos rfl] at hlen
        exact isufs.bind fun vs ⟨hvs, hint⟩ =>
          (checkIndexRange_safe hint (hvs.trans hlen)).bind fun _ _ =>
            irest.bind fun _ _ => .pure trivial
      · exact irest.bind fun _ _ => .pure trivial

theorem tableSuffixes_safe :
    ∀ (es : List Expr), predictTypeSuffixes T es [] = .ok () -> Expr.AllList (WellFormed T) es ->
      (∀ x ∈ es, ∀ τ, predictType T x .fresh = .ok τ -> τ.isNumeric) ->
      Safe (fun vs => vs.length = es.length ∧ ∀ v ∈ vs, v.HasType .int) (tableSuffixes T es)
  | [], _, _, _ => .pure ⟨rfl, by simp⟩
  | e :: es, h, hw, hnum => by
      obtain ⟨τ, he, hes⟩ := predictTypeSuffixes_cons_eq_ok.mp h
      have ie := tableSafe_of_typed e he hw.1
      have ies := tableSuffixes_safe es hes hw.2 fun x hx => hnum x (List.mem_cons_of_mem _ hx)
      exact ie.own fun v hv _ => ies.bind fun vs ⟨hlen, hvs⟩ => .pure ⟨by simp [hlen],
        List.forall_mem_cons.mpr
          ⟨hv.of_numeric (hnum e (List.mem_cons_self _ _) τ he) rfl, hvs⟩⟩

end

end

/-!
## The width passes of typed trees

The width passes stop on their own only where a parameter has no value, which they report, and
where they resolve and evaluate the width expression of a cast. So they succeed or report as long
as those evaluations do, and on the fragment the table says they do.
-/

structure SafeOperand (o : Operand) (I : State -> Prop) : Prop where
  minWidth : ∀ {s : State}, I s -> Safe (fun p => I p.2) (o.minEvalWidth s)
  propagate : ∀ (w : Int) {s : State}, I s -> Safe (fun _ => True) (o.propagate w s)

section

variable {a b : Operand} {I J : State -> Prop} {s : State}

theorem defaultResolve_one_safe (ha : SafeOperand a I) (hs : I (s.op 0)) :
    Safe (fun _ => True) (defaultResolve [a] s) := by
  rw [defaultResolve_one]
  exact (ha.minWidth hs).bind fun _ h => (ha.propagate _ h).bind fun _ _ => trivial

theorem defaultResolve_two_safe (ha : SafeOperand a I) (hb : SafeOperand b J) (hsa : I (s.op 0))
    (hsb : J (s.op 1)) : Safe (fun _ => True) (defaultResolve [a, b] s) := by
  rw [defaultResolve_two]
  exact (ha.minWidth hsa).bind fun _ ha' => (hb.minWidth hsb).bind fun _ hb' =>
    (ha.propagate _ ha').bind fun _ _ => (hb.propagate _ hb').bind fun _ _ => trivial

theorem defaultPropagate_one_safe (ha : SafeOperand a I) (w : Int) (hs : I (s.op 0)) :
    Safe (fun _ => True) (defaultPropagate [a] w s) := by
  rw [defaultPropagate_one]
  exact (ha.propagate w hs).bind fun _ _ => trivial

theorem defaultPropagate_two_safe (ha : SafeOperand a I) (hb : SafeOperand b J) (w : Int)
    (hsa : I (s.op 0)) (hsb : J (s.op 1)) : Safe (fun _ => True) (defaultPropagate [a, b] w s) := by
  rw [defaultPropagate_two]
  exact (ha.propagate w hsa).bind fun _ _ => (hb.propagate w hsb).bind fun _ _ => trivial

theorem resolveCastValue_safe (ha : SafeOperand a I) (cw : Int) (hs : I (s.op 0)) :
    Safe (fun _ => True) (resolveCastValue a cw s) :=
  (ha.minWidth hs).bind fun _ h => (ha.propagate _ h).bind fun _ _ => trivial

theorem resolveCastWidth_safe {eval : State -> Except Diag (Value × State)} {τ : RdlType}
    (hτ : τ.isNumeric)
    (heval : s.slot.castWidth = none ->
      Safe (fun p => p.1.HasType τ ∧ p.1.NonNeg) (eval (s.op 1))) :
    Safe (fun p => p.2.op 0 = s.op 0) (resolveCastWidth eval s) := by
  unfold resolveCastWidth
  split
  · exact .pure rfl
  · rename_i hnone
    exact (heval hnone).bind fun _ ⟨hty, hn⟩ =>
      (Value.toWidth_safe hty hτ hn).bind fun _ _ => .pure rfl

end

section

variable (T : ComponentTree)

structure PassSafe (e : Expr) : Prop where
  minWidth : ∀ {s : State}, MemoConsistent T e s -> Safe (fun _ => True) (getMinEvalWidth T e s)
  pass : ∀ (ctx : Option Int) {s : State}, MemoConsistent T e s ->
    Safe (fun _ => True) (widthPass T ctx e s)

variable {T}

theorem PassSafe.operand {e : Expr} (h : PassSafe T e) (hr : Refines T e) :
    SafeOperand ⟨getMinEvalWidth T e, fun w => widthPass T (some w) e⟩ (MemoConsistent T e) :=
  ⟨fun hs => (h.minWidth hs).of_ok fun _ hm => (hr.minWidth hs hm).2,
    fun w _ hs => h.pass (some w) hs⟩

variable (T)

theorem getValue_safe_of_resolved {e : Expr} {τ : RdlType}
    (he : (resolvesOperands e && resolvesInside e) = true) (hτ : predictType T e .fresh = .ok τ)
    (hw : e.All (WellFormed T)) {s s' : State} (hs : MemoConsistent T e s)
    (hr : resolveExprWidth T e s = .ok s') :
    Safe (fun p => p.1.HasType τ ∧ p.1.NonNeg) (getValue T e s') := by
  obtain ⟨heo, hei⟩ := Bool.and_eq_true_iff.mp he
  obtain ⟨-, w, -, hrel⟩ := (refines_of_resolvesInside T e hei).resolve heo hs hr
  exact Safe.of_exceptRel hrel ((tableSafe_of_typed T e hτ hw).value (by omega))
    fun _ _ h hv => h ▸ hv

mutual

theorem passSafe_of_typed :
    ∀ (e : Expr) {τ : RdlType}, resolvesInside e = true -> predictType T e .fresh = .ok τ ->
      e.All (WellFormed T) -> PassSafe T e
  | .intLiteral .., _, _, _, _ | .builtinEnumLiteral .., _, _, _, _
  | .stringLiteral .., _, _, _, _ => ⟨fun _ => trivial, fun ctx _ _ => by cases ctx <;> trivial⟩
  | .binaryInt _ _ l r, _, he, h, hw => by
      obtain ⟨hl, hr⟩ := Bool.and_eq_true_iff.mp he
      obtain ⟨tl, htl, -, tr, htr, -, -⟩ := requireNumeric_two_eq_ok.mp h
      have il := (passSafe_of_typed l hl htl hw.2.1).operand (refines_of_resolvesInside T l hl)
      have ir := (passSafe_of_typed r hr htr hw.2.2).operand (refines_of_resolvesInside T r hr)
      refine ⟨fun hs => (il.minWidth hs.1).bind fun _ _ => (ir.minWidth hs.2).bind fun _ _ =>
        trivial, fun ctx _ hs => ?_⟩
      cases ctx
      · exact defaultResolve_two_safe il ir hs.1 hs.2
      · exact defaultPropagate_two_safe il ir _ hs.1 hs.2
  | .unaryInt _ _ n, _, he, h, hw => by
      obtain ⟨tn, htn, -, -⟩ := requireNumeric_one_eq_ok.mp h
      have i := (passSafe_of_typed n he htn hw.2).operand (refines_of_resolvesInside T n he)
      refine ⟨fun hs => (i.minWidth hs).bind fun _ _ => trivial, fun ctx _ hs => ?_⟩
      cases ctx
      · exact defaultResolve_one_safe i hs
      · exact defaultPropagate_one_safe i _ hs
  | .relational _ _ l r, _, he, h, hw => by
      obtain ⟨hl, hr⟩ := Bool.and_eq_true_iff.mp he
      obtain ⟨tl, htl, -, tr, htr, -, -⟩ := requireNumeric_two_eq_ok.mp h
      have il := (passSafe_of_typed l hl htl hw.2.1).operand (refines_of_resolvesInside T l hl)
      have ir := (passSafe_of_typed r hr htr hw.2.2).operand (refines_of_resolvesInside T r hr)
      exact ⟨fun _ => trivial, fun ctx _ hs => by
        cases ctx <;> exact defaultResolve_two_safe il ir hs.1 hs.2⟩
  | .reduction _ _ n, _, he, h, hw | .boolCast _ n, _, he, h, hw => by
      obtain ⟨tn, htn, -, -⟩ := requireNumeric_one_eq_ok.mp h
      have i := (passSafe_of_typed n he htn hw.2).operand (refines_of_resolvesInside T n he)
      exact ⟨fun _ => trivial, fun ctx _ hs => by
        cases ctx <;> exact defaultResolve_one_safe i hs⟩
  | .boolExpr _ _ l r, _, he, h, hw => by
      obtain ⟨hl, hr⟩ := Bool.and_eq_true_iff.mp he
      obtain ⟨tl, htl, -, tr, htr, -, -⟩ := requireNumeric_two_eq_ok.mp h
      have il := passSafe_of_typed l (Bool.and_eq_true_iff.mp hl).2 htl hw.2.1
      have ir := passSafe_of_typed r (Bool.and_eq_true_iff.mp hr).2 htr hw.2.2
      refine ⟨fun _ => trivial, fun ctx _ hs => ?_⟩
      cases ctx
      · exact trivial
      · exact (il.pass none hs.1).bind fun _ _ => (ir.pass none hs.2).bind fun _ _ => trivial
  | .expShift _ _ l r, _, he, h, hw => by
      obtain ⟨hl, hr⟩ := Bool.and_eq_true_iff.mp he
      obtain ⟨tl, htl, -, tr, htr, -, -⟩ := requireNumeric_two_eq_ok.mp h
      have il := (passSafe_of_typed l hl htl hw.2.1).operand (refines_of_resolvesInside T l hl)
      have ir := passSafe_of_typed r (Bool.and_eq_true_iff.mp hr).2 htr hw.2.2
      refine ⟨fun hs => (il.minWidth hs.1).bind fun _ _ => trivial, fun ctx _ hs => ?_⟩
      cases ctx
      · exact (il.minWidth hs.1).bind fun _ h => (il.propagate _ h).bind fun _ _ => trivial
      · exact (il.propagate _ hs.1).bind fun _ _ => (ir.pass none hs.2).bind fun _ _ => trivial
  | .ternary _ i j k, _, he, h, hw => by
      obtain ⟨hi, hjk⟩ := Bool.and_eq_true_iff.mp he
      obtain ⟨hj, hk⟩ := Bool.and_eq_true_iff.mp hjk
      obtain ⟨ti, hti, -, tj, htj, tk, htk, -⟩ := predictType_ternary_eq_ok.mp h
      have ii := passSafe_of_typed i (Bool.and_eq_true_iff.mp hi).2 hti hw.2.1
      have ij := (passSafe_of_typed j hj htj hw.2.2.1).operand (refines_of_resolvesInside T j hj)
      have ik := (passSafe_of_typed k hk htk hw.2.2.2).operand (refines_of_resolvesInside T k hk)
      refine ⟨fun hs => (ij.minWidth hs.2.1).bind fun _ _ => (ik.minWidth hs.2.2).bind fun _ _ =>
        trivial, fun ctx _ hs => ?_⟩
      cases ctx
      · exact (ij.minWidth hs.2.1).bind fun _ hj' => (ik.minWidth hs.2.2).bind fun _ hk' =>
          (ij.propagate _ hj').bind fun _ _ => (ik.propagate _ hk').bind fun _ _ => trivial
      · exact (ij.propagate _ hs.2.1).bind fun _ _ => (ik.propagate _ hs.2.2).bind fun _ _ =>
          (ii.pass none hs.1).bind fun _ _ => trivial
  | .widthCast _ v _, _, he, h, hw => by
      obtain ⟨tv, htv, -, -⟩ := requireNumeric_one_eq_ok.mp h
      have i := (passSafe_of_typed v he htv hw.2).operand (refines_of_resolvesInside T v he)
      exact ⟨fun _ => trivial, fun ctx _ hs => by
        cases ctx <;> exact resolveCastValue_safe i _ hs⟩
  | .widthCastExpr c v wExpr, _, he, h, hw => by
      obtain ⟨hv, hwe⟩ := Bool.and_eq_true_iff.mp he
      obtain ⟨hwt, tv, htv, -, -⟩ := predictType_widthCastExpr_eq_ok.mp h
      obtain ⟨tw, htw, hnum⟩ := hwt rfl
      have iv := (passSafe_of_typed v hv htv hw.2.1).operand (refines_of_resolvesInside T v hv)
      have iw := passSafe_of_typed wExpr (Bool.and_eq_true_iff.mp hwe).2 htw hw.2.2
      have hcw : ∀ {s : State}, MemoConsistent T (.widthCastExpr c v wExpr) s ->
          Safe (fun p => p.2.op 0 = s.op 0) (resolveCastWidth
            (fun se => do getValue T wExpr (← widthPass T none wExpr se)) s) := fun {s} hs =>
        resolveCastWidth_safe hnum fun hnone => by
          have hsw : MemoConsistent T wExpr (s.op 1) := by simpa only [hnone] using hs.2
          exact (iw.pass none hsw).bind_ok fun _ hr _ =>
            getValue_safe_of_resolved T hwe htw hw.2.2 hsw hr
      refine ⟨fun hs => (hcw hs).imp fun _ _ => trivial, fun ctx _ hs => ?_⟩
      cases ctx <;> exact (hcw hs).bind fun _ h => resolveCastValue_safe iv _ (h ▸ hs.1)
  | .parameterRef _ _ _ none, _, _, _, _ =>
      ⟨fun _ => trivial, fun ctx _ _ => by cases ctx <;> trivial⟩
  | .parameterRef _ _ _ (some x), _, he, _, hw => by
      obtain ⟨tx, htx, -⟩ := hw.1.2.1
      have i := (passSafe_of_typed x he htx hw.2).operand (refines_of_resolvesInside T x he)
      exact ⟨fun hs => (i.minWidth hs).bind fun _ _ => trivial,
        fun ctx _ hs => by cases ctx <;> exact defaultResolve_one_safe i hs⟩
  | .instRef _ _ els, _, he, h, hw => by
      obtain ⟨c, hc, -⟩ := bind_eq_ok.mp h
      exact ⟨fun _ => trivial, fun ctx _ hs => by
        cases ctx <;> exact (passSafeRefElements els he hc hw.2 hs).bind fun _ _ => trivial⟩
  | .assignmentCast _ v _, _, he, h, hw => by
      obtain ⟨tv, htv, -, -⟩ := predictType_assignmentCast_eq_ok.mp h
      have i := (passSafe_of_typed v he htv hw.2).operand (refines_of_resolvesInside T v he)
      exact ⟨fun hs => (i.minWidth hs).bind fun _ _ => trivial,
        fun ctx _ hs => by cases ctx <;> exact defaultResolve_one_safe i hs⟩

theorem passSafeRefElements :
    ∀ (els : List (Token × List Expr)) {cur c : Nat}, resolvesInsideRefElements els = true ->
      predictTypeRefElements T cur els [] = .ok c -> Expr.AllElements (WellFormed T) els ->
      ∀ {ss : List State}, MemoConsistentRefElements T els ss ->
        Safe (fun _ => True) (widthPassRefElements T els ss)
  | [], _, _, _, _, _, _, _ => trivial
  | (_, sufs) :: rest, _, _, he, h, hw, _, hs => by
      obtain ⟨hsufs, hrest⟩ := Bool.and_eq_true_iff.mp he
      obtain ⟨c', -, hpsufs, -, hprest⟩ := predictTypeRefElements_cons_eq_ok.mp h
      exact (passSafeSuffixes sufs hsufs hpsufs hw.1 hs.1).bind fun _ _ =>
        (passSafeRefElements rest hrest hprest hw.2 hs.2).bind fun _ _ => trivial

theorem passSafeSuffixes :
    ∀ (es : List Expr), resolvesInsideSuffixes es = true ->
      predictTypeSuffixes T es [] = .ok () -> Expr.AllList (WellFormed T) es ->
      ∀ {ss : List State}, MemoConsistentSuffixes T es ss ->
        Safe (fun _ => True) (widthPassSuffixes T es ss)
  | [], _, _, _, _, _ => trivial
  | e :: es, he, h, hw, _, hs => by
      obtain ⟨he₁, hes⟩ := Bool.and_eq_true_iff.mp he
      obtain ⟨τ, hτ, hpes⟩ := predictTypeSuffixes_cons_eq_ok.mp h
      exact ((passSafe_of_typed e (Bool.and_eq_true_iff.mp he₁).2 hτ hw.1).pass none hs.1).bind
        fun _ _ => (passSafeSuffixes es hes hpes hw.2 hs.2).bind fun _ _ => trivial

end

/-- Typed well-formed trees do not crash: after `resolve_expr_width()`, `get_value()` returns a
nonnegative value of type `τ`, reports through `msg.fatal`, or raises the range check's error. -/
theorem resolveExprWidth_getValue_safe {e : Expr} {τ : RdlType}
    (he : (resolvesOperands e && resolvesInside e) = true) (hτ : predictType T e .fresh = .ok τ)
    (hw : e.All (WellFormed T)) {s : State} (hs : MemoConsistent T e s) :
    Safe (fun p => p.1.HasType τ ∧ p.1.NonNeg) (resolveExprWidth T e s >>= getValue T e) :=
  ((passSafe_of_typed T e (Bool.and_eq_true_iff.mp he).2 hτ hw).pass none hs).bind_ok
    fun _ hr _ => getValue_safe_of_resolved T he hτ hw hs hr

end

/-- `arr[4][0]` with `arr` of dimensions `[4, 8]`: the index `4` is out of range, and the
evaluation raises the `NameError`. -/
theorem resolveExprWidth_getValue_safe_outOfRange :
    Safe (fun p => p.1.HasType (.component 7) ∧ p.1.NonNeg)
        (resolveExprWidth .rootWithArray
            (.instRef 0 0 [(⟨5, "arr"⟩, [.intLiteral 0 4 64, .intLiteral 0 0 64])]) .fresh >>=
          getValue .rootWithArray
            (.instRef 0 0 [(⟨5, "arr"⟩, [.intLiteral 0 4 64, .intLiteral 0 0 64])])) ∧
      (resolveExprWidth .rootWithArray
            (.instRef 0 0 [(⟨5, "arr"⟩, [.intLiteral 0 4 64, .intLiteral 0 0 64])]) .fresh >>=
          getValue .rootWithArray
            (.instRef 0 0 [(⟨5, "arr"⟩, [.intLiteral 0 4 64, .intLiteral 0 0 64])])).map
        Prod.fst = .error (.nameError "array_suffix") :=
  ⟨resolveExprWidth_getValue_safe .rootWithArray (by rfl) (by rfl)
    (by simp [Expr.All, Expr.AllElements, Expr.AllList, WellFormed, LiteralNonneg, ParamTyped,
      CastWidthNonneg, IndexesNumeric, predictType, RdlType.isNumeric])
    (memoConsistent_fresh _ _), rfl⟩

end RdlExpressions

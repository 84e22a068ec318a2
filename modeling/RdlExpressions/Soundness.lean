import RdlExpressions.PredictType
import RdlExpressions.Width
import RdlExpressions.Reduction

/-!
# Typed trees evaluate without diverging

The only computation of the expression nodes that can run forever is the bit loop of `XorReduce`
and `XnorReduce`, on a negative operand. `predict_type` keeps strings, enumerations and
references away from every operand that `int()` converts, so integer operands come from literals,
truncations, reductions and casts. A tree whose literals are nonnegative and whose parameters are
bound to expressions of a compatible type therefore never meets a negative operand: its width
passes and its evaluation halt, every value it computes is nonnegative and of the predicted kind,
and every cast width it memoizes is nonnegative.

`predict_type` does not look at a parameter's bound expression, only at its declared type, so the
condition on parameters is needed: a parameter declared `int` and bound to the string `"-5"` is
accepted, and the loop of `XorReduce` never ends on `int("-5")`.
-/

namespace RdlExpressions

/-!
# Outcomes other than divergence
-/

/-- A computation that does not diverge, and whose result, if it has one, satisfies `P`. -/
def Halts {α : Type} (P : α -> Prop) : Except Diag α -> Prop
  | .ok a => P a
  | .error d => d ≠ .diverges

theorem Halts.bind {α β : Type} {P : α -> Prop} {Q : β -> Prop} {x : Except Diag α}
    {f : α -> Except Diag β} (h : Halts P x) (hf : ∀ a, x = .ok a -> P a -> Halts Q (f a)) :
    Halts Q (x >>= f) := by
  cases x with
  | error d => exact h
  | ok a => exact hf a rfl h

theorem Halts.pure {α : Type} {P : α -> Prop} {a : α} (h : P a) : Halts P (pure a) := h

theorem Halts.error {α : Type} {P : α -> Prop} {d : Diag} (h : d ≠ .diverges) :
    Halts P (.error d) := h

theorem Halts.ne_diverges {α : Type} {P : α -> Prop} {x : Except Diag α} (h : Halts P x) :
    x ≠ .error .diverges := by
  rintro rfl
  exact h rfl

theorem Halts.of_ok {α : Type} {P : α -> Prop} {x : Except Diag α} {a : α} (h : Halts P x)
    (hx : x = .ok a) : P a := by
  subst hx
  exact h

theorem Halts.imp {α : Type} {P Q : α -> Prop} {x : Except Diag α} (h : Halts P x)
    (hPQ : ∀ a, P a -> Q a) : Halts Q x := by
  cases x with
  | error d => exact h
  | ok a => exact hPQ a h

/-!
# Nonnegative values and cast widths
-/

/-- An integer value is nonnegative; values of the other kinds carry no sign. -/
def Value.NonNeg : Value -> Prop
  | .int n => 0 ≤ n
  | _ => True

/-- Every `cast_width` stored anywhere in the attributes is nonnegative. -/
inductive State.CastNonneg : State -> Prop
  | mk {slot : Slot} {ops : List State} : (∀ w, slot.castWidth = some w -> 0 ≤ w) ->
      (∀ s ∈ ops, State.CastNonneg s) -> State.CastNonneg (.mk slot ops)

theorem State.CastNonneg.slot {s : State} (h : s.CastNonneg) :
    ∀ w, s.slot.castWidth = some w -> 0 ≤ w := by
  cases h with
  | mk hslot _ => exact hslot

theorem State.CastNonneg.ops {s : State} (h : s.CastNonneg) : ∀ x ∈ s.ops, x.CastNonneg := by
  cases h with
  | mk _ hops => exact hops

theorem State.castNonneg_fresh : State.fresh.CastNonneg :=
  .mk (fun _ h => nomatch h) (fun _ h => nomatch h)

theorem State.CastNonneg.op {s : State} (h : s.CastNonneg) (i : Nat) : (s.op i).CastNonneg := by
  simp only [State.op, List.getD_eq_getElem?_getD]
  cases hi : s.ops[i]? with
  | none => exact State.castNonneg_fresh
  | some x => exact h.ops x (List.getElem?_mem hi)

theorem castNonneg_headD {ss : List State} (h : ∀ s ∈ ss, s.CastNonneg) :
    (ss.headD State.fresh).CastNonneg := by
  cases ss with
  | nil => exact State.castNonneg_fresh
  | cons x _ => exact h x (List.mem_cons_self _ _)

theorem castNonneg_tail {ss : List State} (h : ∀ s ∈ ss, s.CastNonneg) :
    ∀ s ∈ ss.tail, s.CastNonneg :=
  fun s hs => h s (List.mem_of_mem_tail hs)

/-!
# Builtins that halt
-/

theorem Value.toInt_halts {v : Value} {τ : RdlType} (hty : v.HasType τ) (hτ : τ.isNumeric)
    (hn : v.NonNeg) : Halts (0 ≤ ·) v.toInt := by
  cases v with
  | int n => exact hn
  | bool b => exact .pure (by split <;> decide)
  | str _ => cases hty; cases hτ
  | enum _ => cases hty; cases hτ
  | componentRef _ _ => exact .error (by nofun)

theorem Value.toWidth_halts {v : Value} (hn : v.NonNeg) : Halts (0 ≤ ·) v.toWidth := by
  cases v with
  | int n => exact hn
  | bool b => exact .pure (by split <;> decide)
  | _ => exact .error (by nofun)

theorem trunc_halts (w : Option Int) (v : Int) : Halts (0 ≤ ·) (trunc w v) := by
  cases w with
  | none => exact .error (by nofun)
  | some w =>
      by_cases hw : 0 ≤ w
      · rw [trunc_of_nonneg hw]
        exact .pure (Int.emod_nonneg _ (by positivity))
      · simp only [trunc, if_pos (not_le.mp hw)]
        exact .error (by nofun)

theorem castTrunc_halts (c : ErrCtx) (w : Option Int) (v : Int) :
    Halts (0 ≤ ·) (castTrunc c w v) := by
  unfold castTrunc
  split
  · exact .error (by nofun)
  · exact trunc_halts w v

theorem BinaryIntOp.apply_halts (o : BinaryIntOp) (c : ErrCtx) (a b : Int) :
    Halts (fun _ => True) (o.apply c a b) := by
  cases o <;> simp only [BinaryIntOp.apply] <;> (try split) <;>
    first | exact .pure trivial | exact .error (by nofun)

theorem ExpShiftOp.apply_halts (o : ExpShiftOp) (a b : Int) :
    Halts (fun _ => True) (o.apply a b) := by
  cases o <;> simp only [ExpShiftOp.apply, intPow, shiftLeft, shiftRight] <;> split_ifs <;>
    first | exact .pure trivial | exact .error (by nofun)

theorem ReductionOp.apply_halts (o : ReductionOp) (w : Option Int) {n : Int} (hn : 0 ≤ n) :
    Halts (fun v => v.HasType .int ∧ v.NonNeg) (o.apply w n) := by
  cases o with
  | andReduce =>
      exact (trunc_halts w _).bind fun m _ _ => .pure ⟨rfl, by split <;> simp [Value.NonNeg]⟩
  | nandReduce | orReduce | norReduce => exact .pure ⟨rfl, by split <;> simp [Value.NonNeg]⟩
  | xorReduce | xnorReduce =>
      simp only [ReductionOp.apply, parityOf_of_nonneg hn]
      exact .pure ⟨rfl, Int.natCast_nonneg _⟩
  | boolNot => exact .pure ⟨rfl, trivial⟩

theorem checkIndexRange_halts : ∀ (vs : List Value) (ds : List Nat),
    Halts (fun _ => True) (checkIndexRange vs ds)
  | [], _ => .pure trivial
  | _ :: _, [] => .error (by nofun)
  | v :: vs, d :: ds => by
      cases v with
      | int _ | bool _ =>
          simp only [checkIndexRange, Value.geDim, pure_bind]
          split_ifs
          all_goals first | exact checkIndexRange_halts vs ds | exact .error (by nofun)
      | _ =>
          simp only [checkIndexRange, Value.geDim]
          exact .error (by nofun)

theorem Value.HasType.of_numeric {v : Value} {τ τ' : RdlType} (h : v.HasType τ)
    (hτ : τ.isNumeric) (hτ' : τ'.isNumeric) : v.HasType τ' := by
  cases v with
  | int _ | bool _ => exact hτ'
  | str _ | enum _ => cases h; cases hτ
  | componentRef _ _ => cases τ <;> simp_all [Value.HasType, RdlType.isNumeric]

theorem Value.HasType.of_compatible {v : Value} {τ τ' : RdlType} (h : v.HasType τ)
    (hc : isTypeCompatible τ τ' = .ok true) : v.HasType τ' := by
  unfold isTypeCompatible at hc
  split at hc
  · rename_i hnum
    simp only [Bool.and_eq_true] at hnum
    exact h.of_numeric hnum.1 hnum.2
  · split at hc
    · cases hc
    · have heq : τ = τ' := by simpa [pure, Except.pure] using hc
      exact heq ▸ h

/-!
# Width passes over operands that halt
-/

structure Operand.Terminating (o : Operand) : Prop where
  minEvalWidth : ∀ {s : State}, s.CastNonneg -> Halts (fun p => p.2.CastNonneg) (o.minEvalWidth s)
  propagate : ∀ (w : Int) {s : State}, s.CastNonneg -> Halts State.CastNonneg (o.propagate w s)

theorem minEvalWidths_halts {ops : List Operand} (h : ∀ o ∈ ops, o.Terminating) :
    ∀ {ss : List State} (w : Int), (∀ s ∈ ss, s.CastNonneg) ->
      Halts (fun p => ∀ s ∈ p.2, s.CastNonneg) (minEvalWidths ops ss w) := by
  induction ops with
  | nil => intro _ _ _; exact .pure fun _ h => nomatch h
  | cons o os ih =>
      intro ss w hss
      refine ((h o (List.mem_cons_self _ _)).minEvalWidth (castNonneg_headD hss)).bind ?_
      rintro ⟨wo, so⟩ - hso
      refine (ih (fun o' ho' => h o' (List.mem_cons_of_mem _ ho')) _ (castNonneg_tail hss)).bind ?_
      rintro ⟨w', ss'⟩ - hss'
      exact .pure (by simpa using And.intro hso hss')

theorem propagateAll_halts {ops : List Operand} (h : ∀ o ∈ ops, o.Terminating) :
    ∀ {ss : List State} (w : Int), (∀ s ∈ ss, s.CastNonneg) ->
      Halts (fun ss' => ∀ s ∈ ss', s.CastNonneg) (propagateAll ops ss w) := by
  induction ops with
  | nil => intro _ _ _; exact .pure fun _ h => nomatch h
  | cons o os ih =>
      intro ss w hss
      refine ((h o (List.mem_cons_self _ _)).propagate w (castNonneg_headD hss)).bind ?_
      intro so _ hso
      refine (ih (fun o' ho' => h o' (List.mem_cons_of_mem _ ho')) _ (castNonneg_tail hss)).bind ?_
      intro ss' _ hss'
      exact .pure (by simpa using And.intro hso hss')

theorem defaultResolve_halts {ops : List Operand} (h : ∀ o ∈ ops, o.Terminating) {s : State}
    (hs : s.CastNonneg) : Halts State.CastNonneg (defaultResolve ops s) := by
  refine (minEvalWidths_halts h 1 hs.ops).bind ?_
  rintro ⟨w, ss⟩ - hss
  exact (propagateAll_halts h w hss).bind fun _ _ hss' => .pure (.mk hs.slot hss')

theorem defaultPropagate_halts {ops : List Operand} (h : ∀ o ∈ ops, o.Terminating) (w : Int)
    {s : State} (hs : s.CastNonneg) : Halts State.CastNonneg (defaultPropagate ops w s) :=
  (propagateAll_halts h w hs.ops).bind fun _ _ hss' => .pure (.mk hs.slot hss')

theorem resolveCastValue_halts {o : Operand} (h : o.Terminating) (cw : Int) {s : State}
    (hs : s.CastNonneg) : Halts State.CastNonneg (resolveCastValue o cw s) := by
  refine (h.minEvalWidth (hs.op 0)).bind ?_
  rintro ⟨w, sv⟩ - hsv
  refine (h.propagate _ hsv).bind fun sv' _ hsv' => .pure (.mk hs.slot ?_)
  intro x hx
  rcases List.mem_cons.mp hx with rfl | hx
  · exact hsv'
  · exact hs.ops x (List.mem_of_mem_drop hx)

theorem resolveCastWidth_halts {eval : State -> Except Diag (Value × State)}
    (heval : ∀ {s : State}, s.CastNonneg -> Halts (fun p => p.1.NonNeg ∧ p.2.CastNonneg) (eval s))
    {s : State} (hs : s.CastNonneg) :
    Halts (fun p => 0 ≤ p.1 ∧ p.2.CastNonneg) (resolveCastWidth eval s) := by
  unfold resolveCastWidth
  split
  · rename_i cw hcw
    exact .pure ⟨hs.slot cw hcw, hs⟩
  · refine (heval (hs.op 1)).bind ?_
    rintro ⟨cv, se⟩ - ⟨hcv, hse⟩
    refine (Value.toWidth_halts hcv).bind fun cw _ hcw => .pure ⟨hcw, .mk ?_ ?_⟩
    · intro w hw
      cases hw
      exact hcw
    · simpa using And.intro (hs.op 0) hse

/-!
# Trees whose evaluation halts
-/

mutual

/-- Every node of the tree satisfies `P`. -/
def Expr.All (P : Expr -> Prop) : Expr -> Prop
  | e@(.intLiteral ..) | e@(.builtinEnumLiteral ..) | e@(.stringLiteral ..) => P e
  | e@(.binaryInt _ _ l r) | e@(.relational _ _ l r) | e@(.boolExpr _ _ l r)
  | e@(.expShift _ _ l r) => P e ∧ l.All P ∧ r.All P
  | e@(.unaryInt _ _ n) | e@(.reduction _ _ n) | e@(.boolCast _ n) => P e ∧ n.All P
  | e@(.ternary _ i j k) => P e ∧ i.All P ∧ j.All P ∧ k.All P
  | e@(.widthCast _ v _) | e@(.assignmentCast _ v _) => P e ∧ v.All P
  | e@(.widthCastExpr _ v w) => P e ∧ v.All P ∧ w.All P
  | e@(.parameterRef _ _ _ none) => P e
  | e@(.parameterRef _ _ _ (some x)) => P e ∧ x.All P
  | e@(.instRef _ _ els) => P e ∧ Expr.AllElements P els

def Expr.AllElements (P : Expr -> Prop) : List (Token × List Expr) -> Prop
  | [] => True
  | (_, sufs) :: rest => Expr.AllList P sufs ∧ Expr.AllElements P rest

def Expr.AllList (P : Expr -> Prop) : List Expr -> Prop
  | [] => True
  | e :: es => e.All P ∧ Expr.AllList P es

end

/-- An integer literal is nonnegative. -/
def LiteralNonneg : Expr -> Prop
  | .intLiteral _ val _ => 0 ≤ val
  | _ => True

section

variable (T : ComponentTree)

/-- A parameter's bound expression is accepted by `predict_type` with a type compatible with
the parameter's declared type. -/
def ParamTyped : Expr -> Prop
  | .parameterRef _ _ paramType (some x) =>
      ∃ τ, predictType T x .fresh = .ok τ ∧ isTypeCompatible τ paramType = .ok true
  | _ => True

structure Terminates (e : Expr) (τ : RdlType) : Prop where
  value : ∀ {s : State}, s.CastNonneg ->
    Halts (fun p => p.1.HasType τ ∧ p.1.NonNeg ∧ p.2.CastNonneg) (getValue T e s)
  minWidth : ∀ {s : State}, s.CastNonneg ->
    Halts (fun p => p.2.CastNonneg) (getMinEvalWidth T e s)
  pass : ∀ (ctx : Option Int) {s : State}, s.CastNonneg ->
    Halts State.CastNonneg (widthPass T ctx e s)

variable {T}

theorem Terminates.operand {e : Expr} {τ : RdlType} (h : Terminates T e τ) :
    Operand.Terminating ⟨getMinEvalWidth T e, fun w => widthPass T (some w) e⟩ :=
  ⟨h.minWidth, fun w _ hs => h.pass (some w) hs⟩

theorem Terminates.getValue_toInt {β : Type} {Q : β -> Prop} {e : Expr} {τ : RdlType}
    (h : Terminates T e τ) (hτ : τ.isNumeric) {s : State} (hs : s.CastNonneg)
    {f : Int -> Value × State -> Except Diag β}
    (hf : ∀ a p, 0 ≤ a -> p.2.CastNonneg -> Halts Q (f a p)) :
    Halts Q (getValue T e s >>= fun p => p.1.toInt >>= fun a => f a p) := by
  refine (h.value hs).bind ?_
  rintro ⟨v, s'⟩ - ⟨hty, hn, hs'⟩
  exact (Value.toInt_halts hty hτ hn).bind fun a _ ha => hf a _ ha hs'

theorem Terminates.pass_value {e : Expr} {τ : RdlType} (h : Terminates T e τ)
    {s : State} (hs : s.CastNonneg) :
    Halts (fun p => p.1.NonNeg ∧ p.2.CastNonneg)
      (do getValue T e (← widthPass T none e s)) :=
  (h.pass none hs).bind fun _ _ hs' =>
    (h.value hs').imp fun _ ⟨_, hn, hs''⟩ => ⟨hn, hs''⟩

mutual

theorem terminates_of_typed :
    ∀ (e : Expr) {τ : RdlType}, predictType T e .fresh = .ok τ -> e.All LiteralNonneg ->
      e.All (ParamTyped T) -> Terminates T e τ
  | .intLiteral .., τ, h, hlit, _ => by
      simp only [predictType, pure_eq_ok] at h
      subst h
      exact ⟨fun hs => .pure ⟨rfl, hlit, hs⟩, fun hs => .pure hs, fun ctx _ hs => by
        cases ctx
        · exact defaultResolve_halts (by simp) hs
        · exact defaultPropagate_halts (by simp) _ hs⟩
  | .builtinEnumLiteral .., τ, h, _, _ | .stringLiteral .., τ, h, _, _ => by
      simp only [predictType, pure_eq_ok] at h
      subst h
      exact ⟨fun hs => .pure ⟨rfl, trivial, hs⟩, fun hs => .pure hs, fun ctx _ hs => by
        cases ctx
        · exact defaultResolve_halts (by simp) hs
        · exact defaultPropagate_halts (by simp) _ hs⟩
  | .binaryInt o c l r, τ, h, hlit, hpar => by
      simp only [predictType, bind_eq_ok, requireNumeric_eq_ok, State.fresh_op, exists_const,
        pure_eq_ok] at h
      obtain ⟨tl, hl, htl, tr, hr, htr, rfl⟩ := h
      have il := terminates_of_typed l hl hlit.2.1 hpar.2.1
      have ir := terminates_of_typed r hr hlit.2.2 hpar.2.2
      refine ⟨fun hs => ?_, fun hs => ?_, fun ctx _ hs => ?_⟩
      · simp only [getValue]
        refine il.getValue_toInt htl (hs.op 0) fun a pl _ hsl => ?_
        refine ir.getValue_toInt htr (hs.op 1) fun b pr _ hsr => ?_
        refine (o.apply_halts c a b).bind fun v _ _ => ?_
        exact (trunc_halts _ v).bind fun v' _ hv' =>
          .pure ⟨rfl, hv', .mk hs.slot (by simp [hsl, hsr])⟩
      · simp only [getMinEvalWidth]
        refine (il.minWidth (hs.op 0)).bind fun pl _ hsl => ?_
        exact (ir.minWidth (hs.op 1)).bind fun pr _ hsr =>
          .pure (.mk hs.slot (by simp [hsl, hsr]))
      · have hops := List.forall_mem_cons.2 ⟨il.operand, List.forall_mem_singleton.2 ir.operand⟩
        cases ctx
        · exact defaultResolve_halts hops hs
        · exact defaultPropagate_halts hops _ hs
  | .unaryInt o c n, τ, h, hlit, hpar => by
      simp only [predictType, bind_eq_ok, requireNumeric_eq_ok, State.fresh_op, exists_const,
        pure_eq_ok] at h
      obtain ⟨tn, hn, htn, rfl⟩ := h
      have i := terminates_of_typed n hn hlit.2 hpar.2
      refine ⟨fun hs => ?_, fun hs => ?_, fun ctx _ hs => ?_⟩
      · simp only [getValue]
        exact i.getValue_toInt htn (hs.op 0) fun a pn _ hsn =>
          (trunc_halts _ _).bind fun v _ hv => .pure ⟨rfl, hv, .mk hs.slot (by simp [hsn])⟩
      · simp only [getMinEvalWidth]
        exact (i.minWidth (hs.op 0)).bind fun pn _ hsn => .pure (.mk hs.slot (by simp [hsn]))
      · cases ctx
        · exact defaultResolve_halts (List.forall_mem_singleton.2 i.operand) hs
        · exact defaultPropagate_halts (List.forall_mem_singleton.2 i.operand) _ hs
  | .relational o c l r, τ, h, hlit, hpar => by
      simp only [predictType, bind_eq_ok, requireNumeric_eq_ok, State.fresh_op, exists_const,
        pure_eq_ok] at h
      obtain ⟨tl, hl, htl, tr, hr, htr, rfl⟩ := h
      have il := terminates_of_typed l hl hlit.2.1 hpar.2.1
      have ir := terminates_of_typed r hr hlit.2.2 hpar.2.2
      refine ⟨fun hs => ?_, fun hs => .pure hs, fun ctx _ hs => ?_⟩
      · simp only [getValue]
        exact il.getValue_toInt htl (hs.op 0) fun a pl _ hsl =>
          ir.getValue_toInt htr (hs.op 1) fun b pr _ hsr =>
            .pure ⟨rfl, trivial, .mk hs.slot (by simp [hsl, hsr])⟩
      · cases ctx <;> exact defaultResolve_halts
          (List.forall_mem_cons.2 ⟨il.operand, List.forall_mem_singleton.2 ir.operand⟩) hs
  | .reduction o c n, τ, h, hlit, hpar => by
      simp only [predictType, bind_eq_ok, requireNumeric_eq_ok, State.fresh_op, exists_const,
        pure_eq_ok] at h
      obtain ⟨tn, hn, htn, rfl⟩ := h
      have i := terminates_of_typed n hn hlit.2 hpar.2
      refine ⟨fun {s} hs => ?_, fun hs => .pure hs, fun ctx _ hs => ?_⟩
      · by_cases ho : o = .boolNot
        · subst ho
          exact .pure ⟨rfl, trivial, hs⟩
        · rw [getValue_reduction T ho]
          exact i.getValue_toInt htn (hs.op 0) fun a pn ha hsn =>
            (o.apply_halts _ ha).bind fun v _ ⟨hty, hv⟩ =>
              .pure ⟨hty, hv, .mk hs.slot (by simp [hsn])⟩
      · cases ctx <;> exact defaultResolve_halts (List.forall_mem_singleton.2 i.operand) hs
  | .boolExpr o c l r, τ, h, hlit, hpar => by
      simp only [predictType, bind_eq_ok, requireNumeric_eq_ok, State.fresh_op, exists_const,
        pure_eq_ok] at h
      obtain ⟨tl, hl, htl, tr, hr, htr, rfl⟩ := h
      have il := terminates_of_typed l hl hlit.2.1 hpar.2.1
      have ir := terminates_of_typed r hr hlit.2.2 hpar.2.2
      refine ⟨fun hs => ?_, fun hs => .pure hs, fun ctx _ hs => ?_⟩
      · simp only [getValue]
        refine (il.value (hs.op 0)).bind fun pl _ ⟨_, _, hsl⟩ => ?_
        exact (ir.value (hs.op 1)).bind fun pr _ ⟨_, _, hsr⟩ =>
          .pure ⟨rfl, trivial, .mk hs.slot (by simp [hsl, hsr])⟩
      · cases ctx with
        | none => exact .pure hs
        | some _ =>
            exact (il.pass none (hs.op 0)).bind fun sl _ hsl =>
              (ir.pass none (hs.op 1)).bind fun sr _ hsr =>
                .pure (.mk hs.slot (by simp [hsl, hsr]))
  | .expShift o c l r, τ, h, hlit, hpar => by
      simp only [predictType, bind_eq_ok, requireNumeric_eq_ok, State.fresh_op, exists_const,
        pure_eq_ok] at h
      obtain ⟨tl, hl, htl, tr, hr, htr, rfl⟩ := h
      have il := terminates_of_typed l hl hlit.2.1 hpar.2.1
      have ir := terminates_of_typed r hr hlit.2.2 hpar.2.2
      refine ⟨fun hs => ?_, fun hs => ?_, fun ctx _ hs => ?_⟩
      · simp only [getValue]
        refine il.getValue_toInt htl (hs.op 0) fun a pl _ hsl => ?_
        refine ir.getValue_toInt htr (hs.op 1) fun b pr _ hsr => ?_
        refine (o.apply_halts a b).bind fun v _ _ => ?_
        exact (trunc_halts _ v).bind fun v' _ hv' =>
          .pure ⟨rfl, hv', .mk hs.slot (by simp [hsl, hsr])⟩
      · simp only [getMinEvalWidth]
        exact (il.minWidth (hs.op 0)).bind fun pl _ hsl =>
          .pure (.mk hs.slot (by simp [hsl, hs.op 1]))
      · cases ctx
        · refine (il.minWidth (hs.op 0)).bind fun pl _ hsl => ?_
          exact (il.pass _ hsl).bind fun sl _ hsl' => .pure (.mk hs.slot (by simp [hsl', hs.op 1]))
        · exact (il.pass _ (hs.op 0)).bind fun sl _ hsl =>
            (ir.pass none (hs.op 1)).bind fun sr _ hsr => .pure (.mk hs.slot (by simp [hsl, hsr]))
  | .ternary c i j k, τ, h, hlit, hpar => by
      simp only [predictType, bind_eq_ok, requireNumeric_eq_ok, State.fresh_op, exists_const] at h
      obtain ⟨ti, hi, hti, tj, hj, tk, hk, h⟩ := h
      have ii := terminates_of_typed i hi hlit.2.1 hpar.2.1
      have ij := terminates_of_typed j hj hlit.2.2.1 hpar.2.2.1
      have ik := terminates_of_typed k hk hlit.2.2.2 hpar.2.2.2
      have hjk : ∀ v : Value, v.HasType tj ∨ v.HasType tk -> v.HasType τ := by
        split at h
        · rename_i hnum
          simp only [Bool.and_eq_true, pure_eq_ok] at hnum h
          subst h
          rintro v (hv | hv)
          · exact hv.of_numeric hnum.1 rfl
          · exact hv.of_numeric hnum.2 rfl
        · split at h
          · cases h
          · rename_i heq
            simp only [ne_eq, not_not, pure_eq_ok] at heq h
            subst heq h
            rintro v (hv | hv) <;> exact hv
      refine ⟨fun hs => ?_, fun hs => ?_, fun ctx _ hs => ?_⟩
      · simp only [getValue]
        refine (ii.value (hs.op 0)).bind fun pi _ ⟨_, _, hsi⟩ => ?_
        refine (ij.value (hs.op 1)).bind fun pj _ ⟨htj, hnj, hsj⟩ => ?_
        refine (ik.value (hs.op 2)).bind fun pk _ ⟨htk, hnk, hsk⟩ => ?_
        refine .pure ⟨?_, ?_, .mk hs.slot (by simp [hsi, hsj, hsk])⟩ <;> split
        · exact hjk _ (.inl htj)
        · exact hjk _ (.inr htk)
        · exact hnj
        · exact hnk
      · simp only [getMinEvalWidth]
        exact (ij.minWidth (hs.op 1)).bind fun pj _ hsj => (ik.minWidth (hs.op 2)).bind
          fun pk _ hsk => .pure (.mk hs.slot (by simp [hs.op 0, hsj, hsk]))
      · cases ctx
        · refine (ij.minWidth (hs.op 1)).bind fun pj _ hsj => ?_
          refine (ik.minWidth (hs.op 2)).bind fun pk _ hsk => ?_
          exact (ij.pass _ hsj).bind fun sj _ hsj' => (ik.pass _ hsk).bind fun sk _ hsk' =>
            .pure (.mk hs.slot (by simp [hs.op 0, hsj', hsk']))
        · exact (ij.pass _ (hs.op 1)).bind fun sj _ hsj => (ik.pass _ (hs.op 2)).bind
            fun sk _ hsk => (ii.pass none (hs.op 0)).bind fun si _ hsi =>
              .pure (.mk hs.slot (by simp [hsi, hsj, hsk]))
  | .widthCast c v wInt, τ, h, hlit, hpar => by
      simp only [predictType, bind_eq_ok, requireNumeric_eq_ok, State.fresh_op, exists_const,
        pure_eq_ok] at h
      obtain ⟨tv, hv, htv, rfl⟩ := h
      have i := terminates_of_typed v hv hlit.2 hpar.2
      refine ⟨fun hs => ?_, fun hs => .pure hs, fun ctx _ hs => ?_⟩
      · simp only [getValue]
        exact i.getValue_toInt htv (hs.op 0) fun a pv _ hsv =>
          (castTrunc_halts c _ a).bind fun r _ hr => .pure ⟨rfl, hr, .mk hs.slot (by simp [hsv])⟩
      · cases ctx <;> exact resolveCastValue_halts i.operand _ hs
  | .widthCastExpr c v wExpr, τ, h, hlit, hpar => by
      simp only [predictType, bind_eq_ok, requireNumeric_eq_ok, State.fresh_op, exists_const,
        State.fresh_castWidth, if_true, pure_eq_ok] at h
      obtain ⟨tw, hw, htw, tv, hv, htv, rfl⟩ := h
      have iv := terminates_of_typed v hv hlit.2.1 hpar.2.1
      have iw := terminates_of_typed wExpr hw hlit.2.2 hpar.2.2
      refine ⟨fun hs => ?_, fun hs => ?_, fun ctx _ hs => ?_⟩
      · simp only [getValue]
        exact iv.getValue_toInt htv (hs.op 0) fun a pv _ hsv =>
          (castTrunc_halts c _ a).bind fun r _ hr =>
            .pure ⟨rfl, hr, .mk hs.slot (by simp [hsv, hs.op 1])⟩
      · simp only [getMinEvalWidth]
        exact (resolveCastWidth_halts iw.pass_value hs).imp fun _ h => h.2
      · cases ctx <;>
          exact (resolveCastWidth_halts iw.pass_value hs).bind fun _ _ h =>
            resolveCastValue_halts iv.operand _ h.2
  | .boolCast c n, τ, h, hlit, hpar => by
      simp only [predictType, bind_eq_ok, requireNumeric_eq_ok, State.fresh_op, exists_const,
        pure_eq_ok] at h
      obtain ⟨tn, hn, htn, rfl⟩ := h
      have i := terminates_of_typed n hn hlit.2 hpar.2
      refine ⟨fun hs => ?_, fun hs => .pure hs, fun ctx _ hs => ?_⟩
      · simp only [getValue]
        exact i.getValue_toInt htn (hs.op 0) fun a pn _ hsn =>
          .pure ⟨rfl, trivial, .mk hs.slot (by simp [hsn])⟩
      · cases ctx <;> exact defaultResolve_halts (List.forall_mem_singleton.2 i.operand) hs
  | .parameterRef c name paramType none, τ, _, _, _ =>
      ⟨fun _ => .error (by nofun), fun _ => .error (by nofun), fun ctx _ _ => by
        cases ctx <;> exact .error (by nofun)⟩
  | .parameterRef c name paramType (some x), τ, h, hlit, hpar => by
      simp only [predictType, pure_eq_ok] at h
      subst h
      obtain ⟨tx, hx, hcompat⟩ := hpar.1
      have i := terminates_of_typed x hx hlit.2 hpar.2
      refine ⟨fun hs => ?_, fun hs => ?_, fun ctx _ hs => ?_⟩
      · simp only [getValue]
        exact (i.value (hs.op 0)).bind fun px _ ⟨hty, hn, hsx⟩ =>
          .pure ⟨hty.of_compatible hcompat, hn, .mk hs.slot (by simp [hsx])⟩
      · simp only [getMinEvalWidth]
        exact (i.minWidth (hs.op 0)).bind fun px _ hsx => .pure (.mk hs.slot (by simp [hsx]))
      · cases ctx <;> exact defaultResolve_halts (List.forall_mem_singleton.2 i.operand) hs
  | .assignmentCast c v destType, τ, h, hlit, hpar => by
      simp only [predictType, bind_eq_ok, State.fresh_op] at h
      obtain ⟨tv, hv, compatible, hcompat, h⟩ := h
      have hτ : compatible = true ∧ destType = τ := by
        split at h
        · exact ⟨‹_›, by simpa using h⟩
        · cases h
      obtain ⟨rfl, rfl⟩ := hτ
      have i := terminates_of_typed v hv hlit.2 hpar.2
      refine ⟨fun hs => ?_, fun hs => ?_, fun ctx _ hs => ?_⟩
      · simp only [getValue]
        refine (i.value (hs.op 0)).bind fun pv _ ⟨hty, hn, hsv⟩ =>
          .pure ⟨?_, ?_, .mk hs.slot (by simp [hsv])⟩ <;> split
        · subst destType; rfl
        · exact hty.of_compatible hcompat
        · trivial
        · exact hn
      · simp only [getMinEvalWidth]
        exact (i.minWidth (hs.op 0)).bind fun pv _ hsv => .pure (.mk hs.slot (by simp [hsv]))
      · cases ctx <;> exact defaultResolve_halts (List.forall_mem_singleton.2 i.operand) hs
  | .instRef refInst uplevels els, τ, h, hlit, hpar => by
      simp only [predictType, bind_eq_ok, State.fresh_ops, pure_eq_ok] at h
      obtain ⟨c, hc, rfl⟩ := h
      have iels := terminates_refElements els hc hlit.2 hpar.2
      refine ⟨fun hs => ?_, fun hs => .pure hs, fun ctx _ hs => ?_⟩
      · simp only [getValue]
        exact (iels.1 hs.ops).bind fun p _ hp => .pure ⟨trivial, trivial, .mk hs.slot hp⟩
      · cases ctx <;>
          exact (iels.2 hs.ops).bind fun ss _ hss => .pure (.mk hs.slot hss)

theorem terminates_refElements :
    ∀ (els : List (Token × List Expr)) {cur c : Nat}, predictTypeRefElements T cur els [] = .ok c ->
      Expr.AllElements LiteralNonneg els -> Expr.AllElements (ParamTyped T) els ->
      (∀ {ss : List State}, (∀ s ∈ ss, s.CastNonneg) ->
        Halts (fun p => ∀ s ∈ p.2, s.CastNonneg) (getValueRefElements T cur els ss)) ∧
      (∀ {ss : List State}, (∀ s ∈ ss, s.CastNonneg) ->
        Halts (fun ss' => ∀ s ∈ ss', s.CastNonneg) (widthPassRefElements T els ss))
  | [], _, _, _, _, _ => ⟨fun _ => .pure (by simp), fun _ => .pure (by simp)⟩
  | (tok, sufs) :: rest, cur, c, h, hlit, hpar => by
      simp only [predictTypeRefElements] at h
      cases hchild : T.getChildByName cur tok.text with
      | none => simp [hchild] at h
      | some c' =>
          simp only [hchild, bind_eq_ok, List.headD_nil, State.fresh_ops, List.tail_nil] at h
          obtain ⟨_, hsufs, h⟩ := h
          have hrest : predictTypeRefElements T c' rest [] = .ok c := by
            split at h <;> split at h <;> first | exact h | simp [bind, Except.bind] at h
          have isufs := terminates_suffixes sufs hsufs hlit.1 hpar.1
          have irest := terminates_refElements rest hrest hlit.2 hpar.2
          refine ⟨fun hss => ?_, fun hss => ?_⟩
          · simp only [getValueRefElements, hchild]
            split
            · simp only [bind_assoc, pure_bind]
              exact (isufs.1 (castNonneg_headD hss).ops).bind fun q _ hq =>
                (checkIndexRange_halts _ _).bind fun _ _ _ =>
                  (irest.1 (castNonneg_tail hss)).bind fun r _ hr =>
                    .pure (List.forall_mem_cons.mpr ⟨.mk (castNonneg_headD hss).slot hq, hr⟩)
            · simp only [pure_bind]
              exact (irest.1 (castNonneg_tail hss)).bind fun r _ hr =>
                .pure (List.forall_mem_cons.mpr ⟨castNonneg_headD hss, hr⟩)
          · simp only [widthPassRefElements]
            exact (isufs.2 (castNonneg_headD hss).ops).bind fun q _ hq =>
              (irest.2 (castNonneg_tail hss)).bind fun r _ hr =>
                .pure (List.forall_mem_cons.mpr ⟨.mk (castNonneg_headD hss).slot hq, hr⟩)

theorem terminates_suffixes :
    ∀ (es : List Expr), predictTypeSuffixes T es [] = .ok () -> Expr.AllList LiteralNonneg es ->
      Expr.AllList (ParamTyped T) es ->
      (∀ {ss : List State}, (∀ s ∈ ss, s.CastNonneg) ->
        Halts (fun p => ∀ s ∈ p.2, s.CastNonneg) (getValueSuffixes T es ss)) ∧
      (∀ {ss : List State}, (∀ s ∈ ss, s.CastNonneg) ->
        Halts (fun ss' => ∀ s ∈ ss', s.CastNonneg) (widthPassSuffixes T es ss))
  | [], _, _, _ => ⟨fun _ => .pure (by simp), fun _ => .pure (by simp)⟩
  | e :: es, h, hlit, hpar => by
      simp only [predictTypeSuffixes, bind_eq_ok, List.headD_nil, List.tail_nil] at h
      obtain ⟨τ, he, hes⟩ := h
      have ie := terminates_of_typed e he hlit.1 hpar.1
      have ies := terminates_suffixes es hes hlit.2 hpar.2
      refine ⟨fun hss => ?_, fun hss => ?_⟩
      · simp only [getValueSuffixes]
        exact (ie.value (castNonneg_headD hss)).bind fun p _ ⟨_, _, hp⟩ =>
          (ies.1 (castNonneg_tail hss)).bind fun q _ hq =>
            .pure (List.forall_mem_cons.mpr ⟨hp, hq⟩)
      · simp only [widthPassSuffixes]
        exact (ie.pass none (castNonneg_headD hss)).bind fun s _ hs =>
          (ies.2 (castNonneg_tail hss)).bind fun q _ hq =>
            .pure (List.forall_mem_cons.mpr ⟨hs, hq⟩)

end

/-- A typed tree with nonnegative literals and typed parameters halts in the width methods and in
`get_value()`, with nonnegative values of the predicted kind. -/
theorem typed_evaluation_halts {e : Expr} {τ : RdlType} (hτ : predictType T e .fresh = .ok τ)
    (hlit : e.All LiteralNonneg) (hpar : e.All (ParamTyped T)) {s : State} (hs : s.CastNonneg) :
    Halts (fun p => p.2.CastNonneg) (getMinEvalWidth T e s) ∧
      Halts State.CastNonneg (resolveExprWidth T e s) ∧
      Halts (fun p => p.1.HasType τ ∧ p.1.NonNeg ∧ p.2.CastNonneg) (getValue T e s) :=
  have h := terminates_of_typed e hτ hlit hpar
  ⟨h.minWidth hs, h.pass none hs, h.value hs⟩

/-- `^(4'd5)` from a fresh tree. -/
theorem typed_evaluation_halts_xorReduce :
    Halts (fun p => p.2.CastNonneg)
        (getMinEvalWidth .leaf (.reduction .xorReduce 0 (.intLiteral 0 5 4)) .fresh) ∧
      Halts State.CastNonneg
        (resolveExprWidth .leaf (.reduction .xorReduce 0 (.intLiteral 0 5 4)) .fresh) ∧
      Halts (fun p => p.1.HasType .int ∧ p.1.NonNeg ∧ p.2.CastNonneg)
        (getValue .leaf (.reduction .xorReduce 0 (.intLiteral 0 5 4)) .fresh) :=
  @typed_evaluation_halts .leaf (.reduction .xorReduce 0 (.intLiteral 0 5 4)) .int rfl
    (by simp [Expr.All, LiteralNonneg])
    (by simp [Expr.All, ParamTyped]) _ State.castNonneg_fresh

/-- The condition on parameters is needed: `^P` with `P` declared `int` and bound to `"-5"` is
accepted, and its `get_value()` loops on `int("-5")`. -/
theorem string_parameter_reduction_diverges :
    predictType .leaf
        (.reduction .xorReduce 0 (.parameterRef 0 "P" .int (some (.stringLiteral 0 "-5")))) .fresh =
        .ok .int ∧
      (Expr.reduction .xorReduce 0
        (.parameterRef 0 "P" .int (some (.stringLiteral 0 "-5")))).All LiteralNonneg ∧
      (resolveExprWidth .leaf
          (.reduction .xorReduce 0 (.parameterRef 0 "P" .int (some (.stringLiteral 0 "-5")))) .fresh
        >>= fun s => (getValue .leaf (.reduction .xorReduce 0
          (.parameterRef 0 "P" .int (some (.stringLiteral 0 "-5")))) s).map Prod.fst) =
        .error .diverges :=
  ⟨rfl, by simp [Expr.All, LiteralNonneg], rfl⟩

end

end RdlExpressions

import RdlExpressions.Syntax

/-!
# Static typing: `predict_type`

`predictType T e s` runs `e.predict_type()`: every operand's type is predicted, in operand order,
and checked against what the operator accepts; the first failing check is fatal at the node's
`err_ctx` (at the name token for a hierarchical reference). The only attribute it reads is the
`cast_width` of a width cast, whose width operand is checked only while that width is unset.
-/

namespace RdlExpressions

/-- `if(t not in [int, bool]): self.msg.fatal(message, self.err_ctx)`. -/
def requireNumeric (message : String) (errCtx : ErrCtx) (t : RdlType) : Except Diag Unit :=
  if t.isNumeric then pure () else .error (.fatal message errCtx)

theorem requireNumeric_eq_ok {message : String} {errCtx : ErrCtx} {t : RdlType} {u : Unit} :
    requireNumeric message errCtx t = .ok u ↔ t.isNumeric := by
  unfold requireNumeric
  split <;> simp_all

theorem requireNumeric_one_eq_ok {x : Except Diag RdlType} {m : String} {c : ErrCtx}
    {t τ : RdlType} :
    (do requireNumeric m c (← x); pure t) = .ok τ ↔
      ∃ tn, x = .ok tn ∧ tn.isNumeric ∧ t = τ := by
  simp only [bind_eq_ok, requireNumeric_eq_ok, exists_const, pure_eq_ok]

theorem requireNumeric_two_eq_ok {x y : Except Diag RdlType} {m₁ m₂ : String} {c : ErrCtx}
    {t τ : RdlType} :
    (do requireNumeric m₁ c (← x); requireNumeric m₂ c (← y); pure t) = .ok τ ↔
      ∃ tl, x = .ok tl ∧ tl.isNumeric ∧ ∃ tr, y = .ok tr ∧ tr.isNumeric ∧ t = τ := by
  simp only [bind_eq_ok, requireNumeric_eq_ok, exists_const, pure_eq_ok]

section

variable (T : ComponentTree)

mutual

/-- `predict_type()`. -/
def predictType : Expr -> State -> Except Diag RdlType
  | .intLiteral .., _ => pure .int
  | .builtinEnumLiteral _ val, _ => pure (.enum val.kind)
  | .stringLiteral .., _ => pure .str
  | .binaryInt _ c l r, s => do
      requireNumeric "Left operand of expression is not a compatible numeric type" c
        (← predictType l (s.op 0))
      requireNumeric "Right operand of expression is not a compatible numeric type" c
        (← predictType r (s.op 1))
      pure .int
  | .unaryInt _ c n, s => do
      requireNumeric "Operand of expression is not a compatible numeric type" c
        (← predictType n (s.op 0))
      pure .int
  | .relational _ c l r, s => do
      requireNumeric "Left operand of expression is not a compatible numeric type" c
        (← predictType l (s.op 0))
      requireNumeric "Right operand of expression is not a compatible numeric type" c
        (← predictType r (s.op 1))
      pure .bool
  | .reduction _ c n, s => do
      requireNumeric "Operand of expression is not a compatible numeric type" c
        (← predictType n (s.op 0))
      pure .int
  | .boolExpr _ c l r, s => do
      requireNumeric "Left operand of expression is not a compatible boolean type" c
        (← predictType l (s.op 0))
      requireNumeric "Right operand of expression is not a compatible boolean type" c
        (← predictType r (s.op 1))
      pure .bool
  | .expShift _ c l r, s => do
      requireNumeric "Left operand of expression is not a compatible numeric type" c
        (← predictType l (s.op 0))
      requireNumeric "Right operand of expression is not a compatible numeric type" c
        (← predictType r (s.op 1))
      pure .int
  | .ternary c i j k, s => do
      requireNumeric "Conditional operand of expression is not a compatible boolean type" c
        (← predictType i (s.op 0))
      let tj ← predictType j (s.op 1)
      let tk ← predictType k (s.op 2)
      if tj.isNumeric && tk.isNumeric then pure .int
      else if tj ≠ tk then
        .error (.fatal "True/False results of ternary conditional are not compatible types" c)
      else pure tj
  | .widthCast c v _, s => do
      requireNumeric "Value operand of cast expression cannot be cast to an integer" c
        (← predictType v (s.op 0))
      pure .int
  | .widthCastExpr c v wExpr, s => do
      if s.slot.castWidth = none then do
        let tw ← predictType wExpr (s.op 1)
        requireNumeric "Width operand of cast expression is not a compatible numeric type" c tw
      requireNumeric "Value operand of cast expression cannot be cast to an integer" c
        (← predictType v (s.op 0))
      pure .int
  | .boolCast c n, s => do
      requireNumeric "Value operand of cast expression cannot be cast to a boolean" c
        (← predictType n (s.op 0))
      pure .bool
  | .parameterRef _ _ paramType _, _ => pure paramType
  | .instRef refInst _ refElements, s => do
      let c ← predictTypeRefElements refInst refElements s.ops
      pure (.component (T.componentClass c))
  | .assignmentCast c v destType, s => do
      let opType ← predictType v (s.op 0)
      let compatible ← isTypeCompatible opType destType
      if compatible then pure destType
      else .error (.fatal "Result of expression is not compatible with the expected type" c)

/-- The loop of `InstRef.predict_type` from the component `cur`; returns the component the path
ends at. -/
def predictTypeRefElements : Nat -> List (Token × List Expr) -> List State -> Except Diag Nat
  | cur, [], _ => pure cur
  | cur, (nameToken, arraySuffixes) :: rest, ss => do
      let name := nameToken.text
      let some c := T.getChildByName cur name
        | .error (.fatal s!"Could not resolve hierarchical reference to '{name}'" nameToken.errCtx)
      predictTypeSuffixes arraySuffixes (ss.headD State.fresh).ops
      let dims := T.arrayDimensions c
      let found := arraySuffixes.length
      if T.isAddressableArray c then
        if found ≠ dims.length then
          .error (.fatal
            s!"Incompatible number of index dimensions after '{name}'. Expected {dims.length}, found {found}."
            nameToken.errCtx)
      else if found ≠ 0 then
        .error (.fatal s!"Unable to index non-array component '{name}'" nameToken.errCtx)
      predictTypeRefElements c rest ss.tail

/-- `for array_suffix in array_suffixes: array_suffix.predict_type()`; the types are dropped. -/
def predictTypeSuffixes : List Expr -> List State -> Except Diag Unit
  | [], _ => pure ()
  | e :: es, ss => do
      let _ ← predictType e (ss.headD State.fresh)
      predictTypeSuffixes es ss.tail

end

/-!
## What an accepted tree is made of

The operator classes share the shapes of `requireNumeric_one_eq_ok` and `requireNumeric_two_eq_ok`;
the classes below check their operands their own way. Each lemma gives the operands' predictions
an accepted node is made of, so that proofs about accepted trees never unfold the method.
-/

variable {T}

theorem predictType_ternary_eq_ok {c : ErrCtx} {i j k : Expr} {s : State} {τ : RdlType} :
    predictType T (.ternary c i j k) s = .ok τ ↔
      ∃ ti, predictType T i (s.op 0) = .ok ti ∧ ti.isNumeric ∧
      ∃ tj, predictType T j (s.op 1) = .ok tj ∧ ∃ tk, predictType T k (s.op 2) = .ok tk ∧
        (if tj.isNumeric && tk.isNumeric then pure .int
          else if tj ≠ tk then
            .error (.fatal "True/False results of ternary conditional are not compatible types" c)
          else pure tj : Except Diag RdlType) = .ok τ := by
  simp only [predictType, bind_eq_ok, requireNumeric_eq_ok, exists_const]

theorem predictType_widthCastExpr_eq_ok {c : ErrCtx} {v wExpr : Expr} {s : State} {τ : RdlType} :
    predictType T (.widthCastExpr c v wExpr) s = .ok τ ↔
      (s.slot.castWidth = none ->
        ∃ tw, predictType T wExpr (s.op 1) = .ok tw ∧ tw.isNumeric) ∧
      ∃ tv, predictType T v (s.op 0) = .ok tv ∧ tv.isNumeric ∧ RdlType.int = τ := by
  simp only [predictType]
  cases s.slot.castWidth with
  | none =>
      simp only [↓reduceIte, bind_eq_ok, requireNumeric_eq_ok, exists_const, pure_eq_ok,
        forall_const]
      exact ⟨fun ⟨tw, hw, htw, h⟩ => ⟨⟨tw, hw, htw⟩, h⟩,
        fun ⟨⟨tw, hw, htw⟩, h⟩ => ⟨tw, hw, htw, h⟩⟩
  | some _ =>
      simp only [reduceCtorEq, if_false, pure_bind, bind_eq_ok, requireNumeric_eq_ok, exists_const,
        pure_eq_ok, false_implies, true_and]

theorem predictType_assignmentCast_eq_ok {c : ErrCtx} {v : Expr} {destType : RdlType} {s : State}
    {τ : RdlType} :
    predictType T (.assignmentCast c v destType) s = .ok τ ↔
      ∃ tv, predictType T v (s.op 0) = .ok tv ∧ isTypeCompatible tv destType = .ok true ∧
        destType = τ := by
  simp only [predictType, bind_eq_ok]
  constructor
  · rintro ⟨tv, hv, compatible, hc, h⟩
    split at h
    · subst compatible
      exact ⟨tv, hv, hc, by simpa using h⟩
    · cases h
  · rintro ⟨tv, hv, hc, rfl⟩
    exact ⟨tv, hv, true, hc, rfl⟩

theorem predictTypeRefElements_cons_eq_ok {cur c : Nat} {tok : Token} {sufs : List Expr}
    {rest : List (Token × List Expr)} {ss : List State} :
    predictTypeRefElements T cur ((tok, sufs) :: rest) ss = .ok c ↔
      ∃ c', T.getChildByName cur tok.text = some c' ∧
        predictTypeSuffixes T sufs (ss.headD State.fresh).ops = .ok () ∧
        sufs.length = (if T.isAddressableArray c' then (T.arrayDimensions c').length else 0) ∧
        predictTypeRefElements T c' rest ss.tail = .ok c := by
  simp only [predictTypeRefElements]
  cases hchild : T.getChildByName cur tok.text with
  | none => simp
  | some c' =>
      simp only [bind_eq_ok, Option.some.injEq, exists_eq_left', Unique.exists_iff]
      split_ifs <;> simp_all [pure, Except.pure, bind, Except.bind]

theorem predictTypeSuffixes_cons_eq_ok {e : Expr} {es : List Expr} {ss : List State} {u : Unit} :
    predictTypeSuffixes T (e :: es) ss = .ok u ↔
      ∃ τ, predictType T e (ss.headD State.fresh) = .ok τ ∧
        predictTypeSuffixes T es ss.tail = .ok u := by
  simp only [predictTypeSuffixes, bind_eq_ok]

end

end RdlExpressions

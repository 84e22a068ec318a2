import RdlExpressions.Soundness
import RdlExpressions.Table

/-!
# The minimal width is enough

`get_min_eval_width()` is the number of bits an expression needs: `resolve_expr_width()` opens a
context of width `max(1, get_min_eval_width())`, and an enclosing context may impose a wider one
through `propagate_eval_width(w)`. This module shows that the width is enough. When every integer
literal fits its declared width, every integer `get_value()` returns fits the width of its
context. An arithmetic node truncates to that width. A cast truncates to its cast width, which is
its minimal width. A node that opens a context of its own, a parameter or an assignment cast, yields
a value of its own minimal width, and the enclosing context is at least that wide.

Nothing here needs `predict_type`: the bound holds of every tree, typed or not.
-/

namespace RdlExpressions

/-!
## What a computation returns
-/

def Returns {α : Type} (P : α -> Prop) : Except Diag α -> Prop
  | .ok a => P a
  | .error _ => True

theorem Returns.bind {α β : Type} {P : α -> Prop} {Q : β -> Prop} {x : Except Diag α}
    {f : α -> Except Diag β} (h : Returns P x) (hf : ∀ a, P a -> Returns Q (f a)) :
    Returns Q (x >>= f) := by
  cases x with
  | error _ => trivial
  | ok a => exact hf a h

theorem Returns.bind_any {α β : Type} {Q : β -> Prop} {x : Except Diag α}
    {f : α -> Except Diag β} (hf : ∀ a, Returns Q (f a)) : Returns Q (x >>= f) := by
  cases x with
  | error _ => trivial
  | ok a => exact hf a

theorem Returns.pure {α : Type} {P : α -> Prop} {a : α} (h : P a) : Returns P (pure a) := h

theorem Returns.of_eq_ok {α : Type} {P : α -> Prop} {x : Except Diag α} {a : α}
    (h : Returns P x) (hx : x = .ok a) : P a := by
  subst hx
  exact h

/-!
## Values that fit a width
-/

/-- An integer value is nonnegative and below `2 ^ w`; a value of another kind fits every
width. -/
def Value.FitsIn (w : ℤ) : Value -> Prop
  | .int n => 0 ≤ n ∧ n < 2 ^ w.toNat
  | _ => True

instance (w : ℤ) : DecidablePred (Value.FitsIn w)
  | .int n => inferInstanceAs (Decidable (0 ≤ n ∧ n < 2 ^ w.toNat))
  | .bool _ | .str _ | .enum _ | .componentRef .. => isTrue trivial

theorem Value.FitsIn.mono {v : Value} {w w' : ℤ} (h : v.FitsIn w) (hw : w ≤ w') :
    v.FitsIn w' := by
  cases v with
  | int n =>
      exact ⟨h.1, lt_of_lt_of_le h.2 (pow_le_pow_right₀ (by norm_num) (Int.toNat_le_toNat hw))⟩
  | _ => trivial

/-- An integer literal is nonnegative and fits its declared width. -/
def LiteralFits : Expr -> Prop
  | .intLiteral _ val width => 0 ≤ val ∧ val < 2 ^ width.toNat
  | _ => True

theorem trunc_returns_fitsIn (w n : ℤ) :
    Returns (fun m => (Value.int m).FitsIn w) (trunc (some w) n) := by
  rcases lt_or_le w 0 with hw | hw
  · simp only [trunc, if_pos hw]
    trivial
  · rw [trunc_of_nonneg hw]
    exact .pure ⟨Int.emod_nonneg _ (by positivity), Int.emod_lt_of_pos _ (by positivity)⟩

theorem castTrunc_returns_fitsIn (c : ErrCtx) (w n : ℤ) :
    Returns (fun m => (Value.int m).FitsIn w) (castTrunc c (some w) n) := by
  unfold castTrunc
  split
  · trivial
  · exact trunc_returns_fitsIn w n

theorem ReductionOp.apply_returns_fitsIn (o : ReductionOp) (w : Option Int) (n : Int) :
    Returns (Value.FitsIn 1) (o.apply w n) := by
  cases o
  case andReduce => exact .bind_any fun _ => .pure (by split <;> decide)
  case xorReduce | xnorReduce =>
    rcases lt_or_le n 0 with hn | hn
    · simp only [ReductionOp.apply, parityOf_of_neg hn]
      trivial
    · simp only [ReductionOp.apply, parityOf_of_nonneg hn]
      have hbit : n.toNat.bits.count true % 2 < 2 ^ 1 := Nat.mod_lt _ (by norm_num)
      refine .pure ⟨Int.natCast_nonneg _, ?_⟩
      exact_mod_cast Nat.xor_lt_two_pow (by norm_num) hbit
  case nandReduce | orReduce | norReduce => exact .pure (by split <;> decide)
  case boolNot => exact .pure trivial

/-!
## Every context is wide enough
-/

section

variable (T : ComponentTree)

theorem getValue_ternary_returns_fitsIn {c : ErrCtx} {i j k : Expr} {s : State} {W : ℤ}
    (hj : Returns (fun p => p.1.FitsIn W) (getValue T j (s.op 1)))
    (hk : Returns (fun p => p.1.FitsIn W) (getValue T k (s.op 2))) :
    Returns (fun p => p.1.FitsIn W) (getValue T (.ternary c i j k) s) :=
  .bind_any fun _ => hj.bind fun _ hj' => hk.bind fun _ hk' =>
    .pure (by dsimp only; split <;> assumption)

theorem getValue_returns_fitsIn :
    ∀ (e : Expr), e.All LiteralFits -> ∀ {s s₁ s' : State} {m W : ℤ},
      getMinEvalWidth T e s = .ok (m, s₁) -> max 1 m ≤ W ->
      propagateEvalWidth T W e s₁ = .ok s' -> Returns (fun p => p.1.FitsIn W) (getValue T e s')
  | .intLiteral _ val width, hlit, _, _, _, _, _, hm, hW, _ => by
      obtain ⟨rfl, -⟩ := Prod.mk.inj (Except.ok.inj hm)
      exact (show (Value.int val).FitsIn width from hlit).mono (by omega)
  | .builtinEnumLiteral .., _, _, _, _, _, _, _, _, _
  | .stringLiteral .., _, _, _, _, _, _, _, _, _ => trivial
  | .binaryInt .., _, _, _, _, _, _, _, _, hp => by
      obtain ⟨_, -, _, -, rfl⟩ := defaultPropagate_two_eq_ok.mp hp
      exact .bind_any fun _ => .bind_any fun _ => .bind_any fun _ => .bind_any fun _ =>
        .bind_any fun _ => (trunc_returns_fitsIn _ _).bind fun _ h => .pure h
  | .unaryInt .., _, _, _, _, _, _, _, _, hp => by
      obtain ⟨_, -, rfl⟩ := defaultPropagate_one_eq_ok.mp hp
      exact .bind_any fun _ => .bind_any fun _ =>
        (trunc_returns_fitsIn _ _).bind fun _ h => .pure h
  | .relational .., _, _, _, _, _, _, _, _, _ =>
      .bind_any fun _ => .bind_any fun _ => .bind_any fun _ => .bind_any fun _ => .pure trivial
  | .reduction o _ n, _, _, _, _, _, _, _, hW, _ => by
      by_cases ho : o = .boolNot
      · subst ho
        trivial
      · rw [getValue_reduction T ho]
        exact .bind_any fun _ => .bind_any fun _ =>
          (o.apply_returns_fitsIn _ _).bind fun _ h => .pure (h.mono (by omega))
  | .boolExpr .., _, _, _, _, _, _, _, _, _ => .bind_any fun _ => .bind_any fun _ => .pure trivial
  | .expShift .., _, _, _, _, _, _, _, _, hp => by
      obtain ⟨_, -, h⟩ := bind_eq_ok.mp hp
      obtain ⟨_, -, h⟩ := bind_eq_ok.mp h
      obtain rfl := Except.ok.inj h
      exact .bind_any fun _ => .bind_any fun _ => .bind_any fun _ => .bind_any fun _ =>
        .bind_any fun _ => (trunc_returns_fitsIn _ _).bind fun _ h => .pure h
  | .ternary _ i j k, hlit, _, _, _, _, _, hm, hW, hp => by
      obtain ⟨⟨wj, sj⟩, hj, h⟩ := bind_eq_ok.mp hm
      obtain ⟨⟨wk, sk⟩, hk, h⟩ := bind_eq_ok.mp h
      obtain ⟨rfl, rfl⟩ := Prod.mk.inj (Except.ok.inj h)
      obtain ⟨_, hpj, h⟩ := bind_eq_ok.mp hp
      obtain ⟨_, hpk, h⟩ := bind_eq_ok.mp h
      obtain ⟨_, -, h⟩ := bind_eq_ok.mp h
      obtain rfl := Except.ok.inj h
      exact getValue_ternary_returns_fitsIn T
        (getValue_returns_fitsIn j hlit.2.2.1 hj (by omega) hpj)
        (getValue_returns_fitsIn k hlit.2.2.2 hk (by omega) hpk)
  | .widthCast c _ _, _, _, _, _, _, _, hm, hW, _ => by
      obtain ⟨rfl, -⟩ := Prod.mk.inj (Except.ok.inj hm)
      exact .bind_any fun _ => .bind_any fun _ =>
        (castTrunc_returns_fitsIn c _ _).bind fun _ h => .pure (h.mono (by omega))
  | .widthCastExpr c .., _, _, _, _, _, _, hm, hW, hp => by
      obtain ⟨⟨cw, s₂⟩, hcw, hv⟩ := bind_eq_ok.mp hp
      rw [resolveCastWidth_of_castWidth (resolveCastWidth_castWidth hm)] at hcw
      obtain ⟨rfl, rfl⟩ := Prod.mk.inj (Except.ok.inj hcw)
      have hcast := (resolveCastValue_castWidth hv).trans (resolveCastWidth_castWidth hm)
      simp only [getValue, hcast]
      exact .bind_any fun _ => .bind_any fun _ =>
        (castTrunc_returns_fitsIn c _ _).bind fun _ h => .pure (h.mono (by omega))
  | .boolCast .., _, _, _, _, _, _, _, _, _ => .bind_any fun _ => .bind_any fun _ => .pure trivial
  | .parameterRef _ _ _ none, _, _, _, _, _, _, hm, _, _ => nomatch hm
  | .parameterRef _ _ _ (some x), hlit, _, _, _, _, _, hm, hW, hp => by
      obtain ⟨⟨mx, sx⟩, hx, h⟩ := bind_eq_ok.mp hm
      obtain ⟨rfl, rfl⟩ := Prod.mk.inj (Except.ok.inj h)
      obtain ⟨_, _, hx', _, hpx, rfl⟩ := defaultResolve_one_eq_ok.mp hp
      obtain ⟨rfl, rfl⟩ :=
        Prod.mk.inj (Except.ok.inj ((getMinEvalWidth_idem T x hx).symm.trans hx'))
      exact (getValue_returns_fitsIn x hlit.2 hx le_rfl hpx).bind fun _ h => .pure (h.mono hW)
  | .instRef .., _, _, _, _, _, _, _, _, _ => .bind_any fun _ => .pure trivial
  | .assignmentCast _ v _, hlit, _, _, _, _, _, hm, hW, hp => by
      obtain ⟨⟨mv, sv⟩, hv, h⟩ := bind_eq_ok.mp hm
      obtain ⟨rfl, rfl⟩ := Prod.mk.inj (Except.ok.inj h)
      obtain ⟨_, _, hv', _, hpv, rfl⟩ := defaultResolve_one_eq_ok.mp hp
      obtain ⟨rfl, rfl⟩ :=
        Prod.mk.inj (Except.ok.inj ((getMinEvalWidth_idem T v hv).symm.trans hv'))
      exact (getValue_returns_fitsIn v hlit.2 hv le_rfl hpv).bind fun _ h =>
        .pure (by dsimp only; split; trivial; exact h.mono hW)

theorem resolve_returns_fitsIn {e : Expr} (hlit : e.All LiteralFits) {s s₁ s' : State} {m : ℤ}
    (hm : getMinEvalWidth T e s = .ok (m, s₁)) (hr : resolveExprWidth T e s = .ok s') :
    Returns (fun p => p.1.FitsIn (max 1 m)) (getValue T e s') := by
  by_cases he : resolvesOperands e = true
  · obtain ⟨w, s₀, s₂, hm', hp, hs | ⟨c, val, width, rfl⟩⟩ := widthPass_none_decompose T he hr
    · obtain ⟨rfl, rfl⟩ := Prod.mk.inj (Except.ok.inj (hm.symm.trans hm'))
      exact hs ▸ getValue_returns_fitsIn T e hlit hm le_rfl hp
    · obtain ⟨rfl, -⟩ := Prod.mk.inj (Except.ok.inj hm)
      exact (show (Value.int val).FitsIn width from hlit).mono (le_max_right _ _)
  · cases e with
    | boolExpr => exact .bind_any fun _ => .bind_any fun _ => .pure trivial
    | expShift o c l r =>
        obtain ⟨⟨ml, sl⟩, hl, h⟩ := bind_eq_ok.mp hm
        obtain ⟨rfl, rfl⟩ := Prod.mk.inj (Except.ok.inj h)
        obtain ⟨⟨w, sl'⟩, hl', h⟩ := bind_eq_ok.mp hr
        obtain ⟨rfl, rfl⟩ := Prod.mk.inj (Except.ok.inj (hl.symm.trans hl'))
        obtain ⟨_, -, h⟩ := bind_eq_ok.mp h
        obtain rfl := Except.ok.inj h
        exact .bind_any fun _ => .bind_any fun _ => .bind_any fun _ => .bind_any fun _ =>
          .bind_any fun _ => (trunc_returns_fitsIn _ _).bind fun _ h => .pure (h.mono (by omega))
    | ternary c i j k =>
        obtain ⟨⟨wj, sj⟩, hj, h⟩ := bind_eq_ok.mp hm
        obtain ⟨⟨wk, sk⟩, hk, h⟩ := bind_eq_ok.mp h
        obtain ⟨rfl, rfl⟩ := Prod.mk.inj (Except.ok.inj h)
        obtain ⟨⟨wj', sj'⟩, hj', h⟩ := bind_eq_ok.mp hr
        obtain ⟨rfl, rfl⟩ := Prod.mk.inj (Except.ok.inj (hj.symm.trans hj'))
        obtain ⟨⟨wk', sk'⟩, hk', h⟩ := bind_eq_ok.mp h
        obtain ⟨rfl, rfl⟩ := Prod.mk.inj (Except.ok.inj (hk.symm.trans hk'))
        obtain ⟨_, hpj, h⟩ := bind_eq_ok.mp h
        obtain ⟨_, hpk, h⟩ := bind_eq_ok.mp h
        obtain rfl := Except.ok.inj h
        rw [show max 1 (max wj wk) = max (max 1 wj) wk by omega]
        exact getValue_ternary_returns_fitsIn T
          (getValue_returns_fitsIn T j hlit.2.2.1 hj (by omega) hpj)
          (getValue_returns_fitsIn T k hlit.2.2.2 hk (by omega) hpk)
    | _ => exact absurd rfl he

/-- After `propagate_eval_width(W)` with `W ≥ max(1, get_min_eval_width())`, an integer
`get_value()` returns lies in `[0, 2 ^ W)` when every literal fits its width. -/
theorem getValue_fitsIn_of_propagate {e : Expr} (hlit : e.All LiteralFits)
    {s s₁ s' s'' : State} {m W : ℤ} {v : Value} (hm : getMinEvalWidth T e s = .ok (m, s₁))
    (hW : max 1 m ≤ W) (hp : propagateEvalWidth T W e s₁ = .ok s')
    (hv : getValue T e s' = .ok (v, s'')) : v.FitsIn W :=
  (getValue_returns_fitsIn T e hlit hm hW hp).of_eq_ok hv

/-- After `resolve_expr_width()` on any root, an integer `get_value()` returns lies in `[0, 2 ^
max(1, get_min_eval_width()))` when every literal fits its width. -/
theorem getValue_fitsIn_of_resolve {e : Expr} (hlit : e.All LiteralFits) {s s₁ s' s'' : State}
    {m : ℤ} {v : Value} (hm : getMinEvalWidth T e s = .ok (m, s₁))
    (hr : resolveExprWidth T e s = .ok s') (hv : getValue T e s' = .ok (v, s'')) :
    v.FitsIn (max 1 m) :=
  (resolve_returns_fitsIn T hlit hm hr).of_eq_ok hv

end

/-- `4'd15 + 4'd1` in a context of width 5 keeps its carry: `16` fits in 5 bits. -/
theorem getValue_fitsIn_of_propagate_carry :
    ∃ s₁ s' s'', getMinEvalWidth .leaf
        (.binaryInt .add 0 (.intLiteral 0 15 4) (.intLiteral 0 1 4)) .fresh = .ok (4, s₁) ∧
      propagateEvalWidth .leaf 5
        (.binaryInt .add 0 (.intLiteral 0 15 4) (.intLiteral 0 1 4)) s₁ = .ok s' ∧
      getValue .leaf (.binaryInt .add 0 (.intLiteral 0 15 4) (.intLiteral 0 1 4)) s' =
        .ok (.int 16, s'') ∧
      (Value.int 16).FitsIn 5 :=
  ⟨_, _, _, rfl, rfl, rfl, @getValue_fitsIn_of_propagate .leaf
    (.binaryInt .add 0 (.intLiteral 0 15 4) (.intLiteral 0 1 4))
    (by simp [Expr.All, LiteralFits]) .fresh _ _ _ 4 5 _ rfl (by decide) rfl rfl⟩

/-- The root `(2'd3)'(4'd15)`: its minimal width is the cast width `3`, which the width expression
gives, and its value `7` fits in it. -/
theorem getValue_fitsIn_of_resolve_cast :
    ∃ s₁ s' s'', getMinEvalWidth .leaf
        (.widthCastExpr 0 (.intLiteral 0 15 4) (.intLiteral 0 3 2)) .fresh = .ok (3, s₁) ∧
      resolveExprWidth .leaf (.widthCastExpr 0 (.intLiteral 0 15 4) (.intLiteral 0 3 2)) .fresh =
        .ok s' ∧
      getValue .leaf (.widthCastExpr 0 (.intLiteral 0 15 4) (.intLiteral 0 3 2)) s' =
        .ok (.int 7, s'') ∧
      (Value.int 7).FitsIn (max 1 3) :=
  ⟨_, _, _, rfl, rfl, rfl, @getValue_fitsIn_of_resolve .leaf
    (.widthCastExpr 0 (.intLiteral 0 15 4) (.intLiteral 0 3 2))
    (by simp [Expr.All, LiteralFits]) .fresh _ _ _ 3 _ rfl rfl rfl⟩

end RdlExpressions

import RdlExpressions.PredictType
import RdlExpressions.Width
import Mathlib.Data.List.Basic

/-!
# Running the width passes again

The width passes and `get_value` change the attributes they read: `get_min_eval_width` memoizes a
cast width, `resolve_expr_width` and `propagate_eval_width` store widths, and `WidthCast.get_value`
overwrites its own width with its cast width. This module shows which of these runs can be
repeated without effect: a second `get_min_eval_width` changes nothing, a second resolution
reproduces the first, and a second `get_value` returns the same value with the same attributes.

Three classes do not resolve what their own `propagate_eval_width` resolves: the
`resolve_expr_width` of `_BoolExpr` does nothing, that of `TernaryExpr` skips the condition, and
that of `_ExpShiftExpr` skips the right operand. An operand left so is never given a width, and
`get_value` then fails in `trunc`, or changes attributes that no later resolution restores.
-/

namespace RdlExpressions

/-!
# Repeating the default methods

`Expr.resolve_expr_width` and `Expr.propagate_eval_width` run their operands' methods one after
another. A second run from where the first ended changes nothing as soon as each operand's
`propagate_eval_width(w)` keeps the minimal width that was read before it, and a second
`propagate_eval_width(w)` of an operand changes nothing.
-/

structure Operand.Repeatable (a : Operand) : Prop where
  minEvalWidth_propagate : ∀ {s s₀ s' : State} {w W : Int}, a.minEvalWidth s = .ok (w, s₀) ->
    a.propagate W s₀ = .ok s' -> a.minEvalWidth s' = .ok (w, s')
  propagate_idem : ∀ {s s' : State} {W : Int}, a.propagate W s = .ok s' -> a.propagate W s' = .ok s'

theorem minEvalWidths_propagateAll : ∀ {ops : List Operand}, ops.Forall Operand.Repeatable ->
    ∀ {ss ss₀ ss' : List State} {w₀ w W : Int}, minEvalWidths ops ss w₀ = .ok (w, ss₀) ->
      propagateAll ops ss₀ W = .ok ss' -> minEvalWidths ops ss' w₀ = .ok (w, ss')
  | [], _, _, _, _, _, _, _, h, hp => by
      obtain ⟨rfl, rfl⟩ := Prod.mk.inj (Except.ok.inj h)
      obtain rfl := Except.ok.inj hp
      rfl
  | a :: ops, hops, _, _, _, _, _, _, h, hp => by
      obtain ⟨⟨wa, sa⟩, ha, h⟩ := bind_eq_ok.mp h
      obtain ⟨⟨w', ss₀⟩, hs, h⟩ := bind_eq_ok.mp h
      obtain ⟨rfl, rfl⟩ := Prod.mk.inj (Except.ok.inj h)
      obtain ⟨sa', hpa, hp⟩ := bind_eq_ok.mp hp
      obtain ⟨ss', hps, hp⟩ := bind_eq_ok.mp hp
      obtain rfl := Except.ok.inj hp
      obtain ⟨hrep, hops⟩ := (List.forall_cons _ _ _).1 hops
      exact bind_eq_of_ok (hrep.minEvalWidth_propagate ha hpa)
        (bind_eq_of_ok (minEvalWidths_propagateAll hops hs hps) rfl)

theorem propagateAll_idem : ∀ {ops : List Operand}, ops.Forall Operand.Repeatable ->
    ∀ {ss ss' : List State} {W : Int}, propagateAll ops ss W = .ok ss' -> propagateAll ops ss' W = .ok ss'
  | [], _, _, _, _, h => by
      obtain rfl := Except.ok.inj h
      rfl
  | a :: ops, hops, _, _, _, h => by
      obtain ⟨sa, ha, h⟩ := bind_eq_ok.mp h
      obtain ⟨ss, hs, h⟩ := bind_eq_ok.mp h
      obtain rfl := Except.ok.inj h
      obtain ⟨hrep, hops⟩ := (List.forall_cons _ _ _).1 hops
      exact bind_eq_of_ok (hrep.propagate_idem ha) (bind_eq_of_ok (propagateAll_idem hops hs) rfl)

section

variable {ops : List Operand} {s s₁ : State}

theorem defaultResolve_idem (h : defaultResolve ops s = .ok s₁) (hops : ops.Forall Operand.Repeatable) :
    defaultResolve ops s₁ = .ok s₁ := by
  obtain ⟨⟨w, ss₀⟩, hw, h⟩ := bind_eq_ok.mp h
  obtain ⟨ss, hp, h⟩ := bind_eq_ok.mp h
  obtain rfl := Except.ok.inj h
  exact bind_eq_of_ok (minEvalWidths_propagateAll hops hw hp)
    (bind_eq_of_ok (propagateAll_idem hops hp) rfl)

theorem defaultPropagate_idem {w : Int} (h : defaultPropagate ops w s = .ok s₁)
    (hops : ops.Forall Operand.Repeatable) : defaultPropagate ops w s₁ = .ok s₁ := by
  obtain ⟨ss, hp, h⟩ := bind_eq_ok.mp h
  obtain rfl := Except.ok.inj h
  exact bind_eq_of_ok (propagateAll_idem hops hp) rfl

end

theorem resolveCastValue_idem {a : Operand} (ha : a.Repeatable) {cw : Int} {s s₁ : State}
    (h : resolveCastValue a cw s = .ok s₁) : resolveCastValue a cw s₁ = .ok s₁ := by
  obtain ⟨wa, sa, hwa, sa', hpa, rfl⟩ := resolveCastValue_eq_ok.mp h
  exact bind_eq_of_ok (ha.minEvalWidth_propagate hwa hpa) (bind_eq_of_ok (ha.propagate_idem hpa) rfl)

section

variable (T : ComponentTree)

/-!
# Repeating `get_min_eval_width`
-/

theorem getMinEvalWidth_idem :
    ∀ (e : Expr) {s s₁ : State} {w : ℤ},
      getMinEvalWidth T e s = .ok (w, s₁) -> getMinEvalWidth T e s₁ = .ok (w, s₁)
  | .intLiteral .., _, _, _, h
  | .builtinEnumLiteral .., _, _, _, h
  | .stringLiteral .., _, _, _, h
  | .relational .., _, _, _, h
  | .reduction .., _, _, _, h
  | .boolExpr .., _, _, _, h
  | .widthCast .., _, _, _, h
  | .boolCast .., _, _, _, h
  | .instRef .., _, _, _, h => by
      obtain ⟨rfl, rfl⟩ := Prod.mk.inj (Except.ok.inj h)
      rfl
  | .binaryInt _ _ l r, _, _, _, h
  | .ternary _ _ l r, _, _, _, h => by
      obtain ⟨⟨wl, sl⟩, hl, h⟩ := bind_eq_ok.mp h
      obtain ⟨⟨wr, sr⟩, hr, h⟩ := bind_eq_ok.mp h
      obtain ⟨rfl, rfl⟩ := Prod.mk.inj (Except.ok.inj h)
      exact bind_eq_of_ok (getMinEvalWidth_idem l hl) (bind_eq_of_ok (getMinEvalWidth_idem r hr) rfl)
  | .unaryInt _ _ n, _, _, _, h
  | .expShift _ _ n _, _, _, _, h
  | .parameterRef _ _ _ (some n), _, _, _, h
  | .assignmentCast _ n _, _, _, _, h => by
      obtain ⟨⟨wn, sn⟩, hn, h⟩ := bind_eq_ok.mp h
      obtain ⟨rfl, rfl⟩ := Prod.mk.inj (Except.ok.inj h)
      exact bind_eq_of_ok (getMinEvalWidth_idem n hn) rfl
  | .widthCastExpr .., _, _, _, h => resolveCastWidth_of_castWidth (resolveCastWidth_castWidth h)
  | .parameterRef _ _ _ none, _, _, _, h => nomatch h

/-- A second `get_min_eval_width()` returns the same width and changes nothing; a failing first call
is all that runs. -/
theorem getMinEvalWidth_twice (e : Expr) (s : State) :
    (getMinEvalWidth T e s >>= fun p => getMinEvalWidth T e p.2) = getMinEvalWidth T e s := by
  cases h : getMinEvalWidth T e s with
  | error _ => rfl
  | ok p => exact getMinEvalWidth_idem T e h

theorem getMinEvalWidth_widthPass :
    ∀ (e : Expr) {ctx : Option Int} {s s₀ s' : State} {w : ℤ},
      getMinEvalWidth T e s = .ok (w, s₀) -> widthPass T ctx e s₀ = .ok s' ->
      getMinEvalWidth T e s' = .ok (w, s')
  | .intLiteral .., _, _, _, _, _, h, _
  | .builtinEnumLiteral .., _, _, _, _, _, h, _
  | .stringLiteral .., _, _, _, _, _, h, _
  | .relational .., _, _, _, _, _, h, _
  | .reduction .., _, _, _, _, _, h, _
  | .boolExpr .., _, _, _, _, _, h, _
  | .widthCast .., _, _, _, _, _, h, _
  | .boolCast .., _, _, _, _, _, h, _
  | .instRef .., _, _, _, _, _, h, _ => by
      obtain ⟨rfl, -⟩ := Prod.mk.inj (Except.ok.inj h)
      rfl
  | .binaryInt _ _ l r, ctx, _, _, _, _, h, hp => by
      obtain ⟨⟨wl, sl⟩, hl, h⟩ := bind_eq_ok.mp h
      obtain ⟨⟨wr, sr⟩, hr, h⟩ := bind_eq_ok.mp h
      obtain ⟨rfl, rfl⟩ := Prod.mk.inj (Except.ok.inj h)
      cases ctx with
      | none =>
          obtain ⟨wa, sa, ha, wb, sb, hb, sa', hpa, sb', hpb, rfl⟩ := defaultResolve_two_eq_ok.mp hp
          obtain ⟨rfl, rfl⟩ := Prod.mk.inj (Except.ok.inj (ha.symm.trans (getMinEvalWidth_idem T l hl)))
          obtain ⟨rfl, rfl⟩ := Prod.mk.inj (Except.ok.inj (hb.symm.trans (getMinEvalWidth_idem T r hr)))
          exact bind_eq_of_ok (getMinEvalWidth_widthPass l hl hpa)
            (bind_eq_of_ok (getMinEvalWidth_widthPass r hr hpb) rfl)
      | some _ =>
          obtain ⟨sa', hpa, sb', hpb, rfl⟩ := defaultPropagate_two_eq_ok.mp hp
          exact bind_eq_of_ok (getMinEvalWidth_widthPass l hl hpa)
            (bind_eq_of_ok (getMinEvalWidth_widthPass r hr hpb) rfl)
  | .unaryInt _ _ n, ctx, _, _, _, _, h, hp => by
      obtain ⟨⟨wn, sn⟩, hn, h⟩ := bind_eq_ok.mp h
      obtain ⟨rfl, rfl⟩ := Prod.mk.inj (Except.ok.inj h)
      cases ctx with
      | none =>
          obtain ⟨wa, sa, ha, sa', hpa, rfl⟩ := defaultResolve_one_eq_ok.mp hp
          obtain ⟨rfl, rfl⟩ := Prod.mk.inj (Except.ok.inj (ha.symm.trans (getMinEvalWidth_idem T n hn)))
          exact bind_eq_of_ok (getMinEvalWidth_widthPass n hn hpa) rfl
      | some _ =>
          obtain ⟨sa', hpa, rfl⟩ := defaultPropagate_one_eq_ok.mp hp
          exact bind_eq_of_ok (getMinEvalWidth_widthPass n hn hpa) rfl
  | .expShift _ _ l _, ctx, _, _, _, _, h, hp => by
      obtain ⟨⟨wl, sl⟩, hl, h⟩ := bind_eq_ok.mp h
      obtain ⟨rfl, rfl⟩ := Prod.mk.inj (Except.ok.inj h)
      cases ctx with
      | none =>
          obtain ⟨⟨wa, sa⟩, ha, hp⟩ := bind_eq_ok.mp hp
          obtain ⟨rfl, rfl⟩ := Prod.mk.inj (Except.ok.inj (ha.symm.trans (getMinEvalWidth_idem T l hl)))
          obtain ⟨sl', hpl, hp⟩ := bind_eq_ok.mp hp
          obtain rfl := Except.ok.inj hp
          exact bind_eq_of_ok (getMinEvalWidth_widthPass l hl hpl) rfl
      | some _ =>
          obtain ⟨sl', hpl, hp⟩ := bind_eq_ok.mp hp
          obtain ⟨_, -, hp⟩ := bind_eq_ok.mp hp
          obtain rfl := Except.ok.inj hp
          exact bind_eq_of_ok (getMinEvalWidth_widthPass l hl hpl) rfl
  | .ternary _ _ j k, ctx, _, _, _, _, h, hp => by
      obtain ⟨⟨wj, sj⟩, hj, h⟩ := bind_eq_ok.mp h
      obtain ⟨⟨wk, sk⟩, hk, h⟩ := bind_eq_ok.mp h
      obtain ⟨rfl, rfl⟩ := Prod.mk.inj (Except.ok.inj h)
      cases ctx with
      | none =>
          obtain ⟨⟨wa, sa⟩, ha, hp⟩ := bind_eq_ok.mp hp
          obtain ⟨rfl, rfl⟩ := Prod.mk.inj (Except.ok.inj (ha.symm.trans (getMinEvalWidth_idem T j hj)))
          obtain ⟨⟨wb, sb⟩, hb, hp⟩ := bind_eq_ok.mp hp
          obtain ⟨rfl, rfl⟩ := Prod.mk.inj (Except.ok.inj (hb.symm.trans (getMinEvalWidth_idem T k hk)))
          obtain ⟨sj', hpj, hp⟩ := bind_eq_ok.mp hp
          obtain ⟨sk', hpk, hp⟩ := bind_eq_ok.mp hp
          obtain rfl := Except.ok.inj hp
          exact bind_eq_of_ok (getMinEvalWidth_widthPass j hj hpj)
            (bind_eq_of_ok (getMinEvalWidth_widthPass k hk hpk) rfl)
      | some _ =>
          obtain ⟨sj', hpj, hp⟩ := bind_eq_ok.mp hp
          obtain ⟨sk', hpk, hp⟩ := bind_eq_ok.mp hp
          obtain ⟨_, -, hp⟩ := bind_eq_ok.mp hp
          obtain rfl := Except.ok.inj hp
          exact bind_eq_of_ok (getMinEvalWidth_widthPass j hj hpj)
            (bind_eq_of_ok (getMinEvalWidth_widthPass k hk hpk) rfl)
  | .widthCastExpr .., ctx, _, _, _, _, h, hp => by
      have hcw := resolveCastWidth_castWidth h
      cases ctx <;>
      ( obtain ⟨⟨cw, s₂⟩, hc, hv⟩ := bind_eq_ok.mp hp
        obtain ⟨rfl, rfl⟩ := Prod.mk.inj (Except.ok.inj (hc.symm.trans (resolveCastWidth_of_castWidth hcw)))
        exact resolveCastWidth_of_castWidth ((resolveCastValue_castWidth hv).trans hcw) )
  | .parameterRef _ _ _ none, _, _, _, _, _, h, _ => nomatch h
  | .parameterRef _ _ _ (some x), ctx, _, _, _, _, h, hp
  | .assignmentCast _ x _, ctx, _, _, _, _, h, hp => by
      obtain ⟨⟨wx, sx⟩, hx, h⟩ := bind_eq_ok.mp h
      obtain ⟨rfl, rfl⟩ := Prod.mk.inj (Except.ok.inj h)
      cases ctx <;>
      ( obtain ⟨wa, sa, ha, sa', hpa, rfl⟩ := defaultResolve_one_eq_ok.mp hp
        obtain ⟨rfl, rfl⟩ := Prod.mk.inj (Except.ok.inj (ha.symm.trans (getMinEvalWidth_idem T x hx)))
        exact bind_eq_of_ok (getMinEvalWidth_widthPass x hx hpa) rfl )

/-!
# Repeating `resolve_expr_width` and `propagate_eval_width`
-/

theorem operand_repeatable {e : Expr}
    (h : ∀ {W : Int} {s s₁ : State}, widthPass T (some W) e s = .ok s₁ -> widthPass T (some W) e s₁ = .ok s₁) :
    Operand.Repeatable ⟨getMinEvalWidth T e, fun w => widthPass T (some w) e⟩ :=
  ⟨getMinEvalWidth_widthPass T e, h⟩

mutual

theorem widthPass_idem : ∀ (e : Expr) {ctx : Option Int} {s s₁ : State},
    widthPass T ctx e s = .ok s₁ -> widthPass T ctx e s₁ = .ok s₁
  | .intLiteral .., ctx, _, _, h
  | .builtinEnumLiteral .., ctx, _, _, h
  | .stringLiteral .., ctx, _, _, h => by
      cases ctx <;> (obtain rfl := Except.ok.inj h; rfl)
  | .binaryInt _ _ l r, ctx, _, _, h => by
      have hops := And.intro (operand_repeatable T (widthPass_idem l)) (operand_repeatable T (widthPass_idem r))
      cases ctx
      · exact defaultResolve_idem h hops
      · exact defaultPropagate_idem h hops
  | .unaryInt _ _ n, ctx, _, _, h => by
      have hops := operand_repeatable T (widthPass_idem n)
      cases ctx
      · exact defaultResolve_idem h hops
      · exact defaultPropagate_idem h hops
  | .relational _ _ l r, ctx, _, _, h => by
      have hops := And.intro (operand_repeatable T (widthPass_idem l)) (operand_repeatable T (widthPass_idem r))
      cases ctx <;> exact defaultResolve_idem h hops
  | .reduction _ _ n, ctx, _, _, h
  | .boolCast _ n, ctx, _, _, h
  | .parameterRef _ _ _ (some n), ctx, _, _, h
  | .assignmentCast _ n _, ctx, _, _, h => by
      have hops := operand_repeatable T (widthPass_idem n)
      cases ctx <;> exact defaultResolve_idem h hops
  | .boolExpr _ _ l r, none, _, _, h => by
      obtain rfl := Except.ok.inj h
      rfl
  | .boolExpr _ _ l r, some _, _, _, h => by
      obtain ⟨sl, hl, h⟩ := bind_eq_ok.mp h
      obtain ⟨sr, hr, h⟩ := bind_eq_ok.mp h
      obtain rfl := Except.ok.inj h
      exact bind_eq_of_ok (widthPass_idem l hl) (bind_eq_of_ok (widthPass_idem r hr) rfl)
  | .expShift _ _ l _, none, _, _, h => by
      obtain ⟨⟨w, sl⟩, hw, h⟩ := bind_eq_ok.mp h
      obtain ⟨sl', hl, h⟩ := bind_eq_ok.mp h
      obtain rfl := Except.ok.inj h
      exact bind_eq_of_ok (getMinEvalWidth_widthPass T l hw hl) (bind_eq_of_ok (widthPass_idem l hl) rfl)
  | .expShift _ _ l r, some _, _, _, h => by
      obtain ⟨sl, hl, h⟩ := bind_eq_ok.mp h
      obtain ⟨sr, hr, h⟩ := bind_eq_ok.mp h
      obtain rfl := Except.ok.inj h
      exact bind_eq_of_ok (widthPass_idem l hl) (bind_eq_of_ok (widthPass_idem r hr) rfl)
  | .ternary _ _ j k, none, _, _, h => by
      obtain ⟨⟨wj, sj⟩, hwj, h⟩ := bind_eq_ok.mp h
      obtain ⟨⟨wk, sk⟩, hwk, h⟩ := bind_eq_ok.mp h
      obtain ⟨sj', hj, h⟩ := bind_eq_ok.mp h
      obtain ⟨sk', hk, h⟩ := bind_eq_ok.mp h
      obtain rfl := Except.ok.inj h
      exact bind_eq_of_ok (getMinEvalWidth_widthPass T j hwj hj)
        (bind_eq_of_ok (getMinEvalWidth_widthPass T k hwk hk)
          (bind_eq_of_ok (widthPass_idem j hj) (bind_eq_of_ok (widthPass_idem k hk) rfl)))
  | .ternary _ i j k, some _, _, _, h => by
      obtain ⟨sj, hj, h⟩ := bind_eq_ok.mp h
      obtain ⟨sk, hk, h⟩ := bind_eq_ok.mp h
      obtain ⟨si, hi, h⟩ := bind_eq_ok.mp h
      obtain rfl := Except.ok.inj h
      exact bind_eq_of_ok (widthPass_idem j hj)
        (bind_eq_of_ok (widthPass_idem k hk) (bind_eq_of_ok (widthPass_idem i hi) rfl))
  | .widthCast _ v _, ctx, _, _, h => by
      have hv := operand_repeatable T (widthPass_idem v)
      cases ctx <;> exact resolveCastValue_idem hv h
  | .widthCastExpr _ v _, ctx, _, _, h => by
      have hv := operand_repeatable T (widthPass_idem v)
      cases ctx <;>
      ( obtain ⟨⟨cw, s₂⟩, hc, h⟩ := bind_eq_ok.mp h
        have hcw := (resolveCastValue_castWidth h).trans (resolveCastWidth_castWidth hc)
        exact bind_eq_of_ok (resolveCastWidth_of_castWidth hcw) (resolveCastValue_idem hv h) )
  | .parameterRef _ _ _ none, ctx, _, _, h => by cases ctx <;> nomatch h
  | .instRef _ _ els, ctx, _, _, h => by
      cases ctx <;>
      ( obtain ⟨segs, hs, h⟩ := bind_eq_ok.mp h
        obtain rfl := Except.ok.inj h
        exact bind_eq_of_ok (widthPassRefElements_idem els hs) rfl )

theorem widthPassRefElements_idem : ∀ (els : List (Token × List Expr)) {ss ss₁ : List State},
    widthPassRefElements T els ss = .ok ss₁ -> widthPassRefElements T els ss₁ = .ok ss₁
  | [], _, _, h => by
      obtain rfl := Except.ok.inj h
      rfl
  | (_, sufs) :: rest, _, _, h => by
      obtain ⟨sufStates, hs, h⟩ := bind_eq_ok.mp h
      obtain ⟨restStates, hr, h⟩ := bind_eq_ok.mp h
      obtain rfl := Except.ok.inj h
      exact bind_eq_of_ok (widthPassSuffixes_idem sufs hs)
        (bind_eq_of_ok (widthPassRefElements_idem rest hr) rfl)

theorem widthPassSuffixes_idem : ∀ (es : List Expr) {ss ss₁ : List State},
    widthPassSuffixes T es ss = .ok ss₁ -> widthPassSuffixes T es ss₁ = .ok ss₁
  | [], _, _, h => by
      obtain rfl := Except.ok.inj h
      rfl
  | e :: es, _, _, h => by
      obtain ⟨s, hs, h⟩ := bind_eq_ok.mp h
      obtain ⟨ss, hss, h⟩ := bind_eq_ok.mp h
      obtain rfl := Except.ok.inj h
      exact bind_eq_of_ok (widthPass_idem e hs) (bind_eq_of_ok (widthPassSuffixes_idem es hss) rfl)

end

/-- A second `resolve_expr_width()` or `propagate_eval_width(w)` changes nothing; a failing first
run is all that runs. -/
theorem widthPass_twice (ctx : Option Int) (e : Expr) (s : State) :
    (widthPass T ctx e s >>= widthPass T ctx e) = widthPass T ctx e s := by
  cases h : widthPass T ctx e s with
  | error _ => rfl
  | ok _ => exact widthPass_idem T e h

/-!
# Repeating `get_value`

`WidthCast.get_value` overwrites its own `expr_eval_width` with its cast width, and no other
`get_value` writes an attribute. A second evaluation from the attributes the first left replays
every step of the first.
-/

mutual

theorem getValue_idem : ∀ (e : Expr) {s s₁ : State} {v : Value},
    getValue T e s = .ok (v, s₁) -> getValue T e s₁ = .ok (v, s₁)
  | .intLiteral .., _, _, _, h
  | .builtinEnumLiteral .., _, _, _, h
  | .stringLiteral .., _, _, _, h
  | .reduction .boolNot .., _, _, _, h => by
      obtain ⟨rfl, rfl⟩ := Prod.mk.inj (Except.ok.inj h)
      rfl
  | .binaryInt _ _ l r, _, _, _, h
  | .expShift _ _ l r, _, _, _, h => by
      obtain ⟨⟨lv, sl⟩, hl, h⟩ := bind_eq_ok.mp h
      obtain ⟨a, ha, h⟩ := bind_eq_ok.mp h
      obtain ⟨⟨rv, sr⟩, hr, h⟩ := bind_eq_ok.mp h
      obtain ⟨b, hb, h⟩ := bind_eq_ok.mp h
      obtain ⟨x, hx, h⟩ := bind_eq_ok.mp h
      obtain ⟨y, hy, h⟩ := bind_eq_ok.mp h
      obtain ⟨rfl, rfl⟩ := Prod.mk.inj (Except.ok.inj h)
      refine bind_eq_of_ok (getValue_idem l hl) (bind_eq_of_ok ha ?_)
      refine bind_eq_of_ok (getValue_idem r hr) (bind_eq_of_ok hb ?_)
      exact bind_eq_of_ok hx (bind_eq_of_ok hy rfl)
  | .relational _ _ l r, _, _, _, h => by
      obtain ⟨⟨lv, sl⟩, hl, h⟩ := bind_eq_ok.mp h
      obtain ⟨a, ha, h⟩ := bind_eq_ok.mp h
      obtain ⟨⟨rv, sr⟩, hr, h⟩ := bind_eq_ok.mp h
      obtain ⟨b, hb, h⟩ := bind_eq_ok.mp h
      obtain ⟨rfl, rfl⟩ := Prod.mk.inj (Except.ok.inj h)
      refine bind_eq_of_ok (getValue_idem l hl) (bind_eq_of_ok ha ?_)
      exact bind_eq_of_ok (getValue_idem r hr) (bind_eq_of_ok hb rfl)
  | .unaryInt _ _ n, _, _, _, h
  | .reduction .andReduce _ n, _, _, _, h
  | .reduction .nandReduce _ n, _, _, _, h
  | .reduction .orReduce _ n, _, _, _, h
  | .reduction .norReduce _ n, _, _, _, h
  | .reduction .xorReduce _ n, _, _, _, h
  | .reduction .xnorReduce _ n, _, _, _, h
  | .widthCast _ n _, _, _, _, h
  | .widthCastExpr _ n _, _, _, _, h => by
      obtain ⟨⟨nv, sn⟩, hn, h⟩ := bind_eq_ok.mp h
      obtain ⟨a, ha, h⟩ := bind_eq_ok.mp h
      obtain ⟨x, hx, h⟩ := bind_eq_ok.mp h
      obtain ⟨rfl, rfl⟩ := Prod.mk.inj (Except.ok.inj h)
      exact bind_eq_of_ok (getValue_idem n hn) (bind_eq_of_ok ha (bind_eq_of_ok hx rfl))
  | .boolExpr _ _ l r, _, _, _, h => by
      obtain ⟨⟨lv, sl⟩, hl, h⟩ := bind_eq_ok.mp h
      obtain ⟨⟨rv, sr⟩, hr, h⟩ := bind_eq_ok.mp h
      obtain ⟨rfl, rfl⟩ := Prod.mk.inj (Except.ok.inj h)
      exact bind_eq_of_ok (getValue_idem l hl) (bind_eq_of_ok (getValue_idem r hr) rfl)
  | .ternary _ i j k, _, _, _, h => by
      obtain ⟨⟨iv, si⟩, hi, h⟩ := bind_eq_ok.mp h
      obtain ⟨⟨jv, sj⟩, hj, h⟩ := bind_eq_ok.mp h
      obtain ⟨⟨kv, sk⟩, hk, h⟩ := bind_eq_ok.mp h
      obtain ⟨rfl, rfl⟩ := Prod.mk.inj (Except.ok.inj h)
      exact bind_eq_of_ok (getValue_idem i hi)
        (bind_eq_of_ok (getValue_idem j hj) (bind_eq_of_ok (getValue_idem k hk) rfl))
  | .boolCast _ n, _, _, _, h => by
      obtain ⟨⟨nv, sn⟩, hn, h⟩ := bind_eq_ok.mp h
      obtain ⟨a, ha, h⟩ := bind_eq_ok.mp h
      obtain ⟨rfl, rfl⟩ := Prod.mk.inj (Except.ok.inj h)
      exact bind_eq_of_ok (getValue_idem n hn) (bind_eq_of_ok ha rfl)
  | .parameterRef _ _ _ none, _, _, _, h => nomatch h
  | .parameterRef _ _ _ (some n), _, _, _, h
  | .assignmentCast _ n _, _, _, _, h => by
      obtain ⟨⟨nv, sn⟩, hn, h⟩ := bind_eq_ok.mp h
      obtain ⟨rfl, rfl⟩ := Prod.mk.inj (Except.ok.inj h)
      exact bind_eq_of_ok (getValue_idem n hn) rfl
  | .instRef refInst _ els, _, _, _, h => by
      obtain ⟨⟨path, segs⟩, hs, h⟩ := bind_eq_ok.mp h
      obtain ⟨rfl, rfl⟩ := Prod.mk.inj (Except.ok.inj h)
      exact bind_eq_of_ok (getValueRefElements_idem refInst els hs) rfl

theorem getValueRefElements_idem : ∀ (cur : Nat) (els : List (Token × List Expr))
    {ss ss₁ : List State} {path : List (String × Option (List Value))},
    getValueRefElements T cur els ss = .ok (path, ss₁) ->
      getValueRefElements T cur els ss₁ = .ok (path, ss₁)
  | _, [], _, _, _, h => by
      obtain ⟨rfl, rfl⟩ := Prod.mk.inj (Except.ok.inj h)
      rfl
  | cur, (tok, sufs) :: rest, _, _, _, h => by
      simp only [getValueRefElements] at h ⊢
      cases hc : T.getChildByName cur tok.text with
      | none => simp [hc] at h
      | some c =>
          simp only [hc] at h ⊢
          split at h
          · rename_i harr
            simp only [bind_assoc, pure_bind, bind_eq_ok, pure_eq_ok, Prod.mk.injEq] at h
            obtain ⟨⟨idx, sufStates⟩, hs, u, hu, ⟨path, restStates⟩, hrest, rfl, rfl⟩ := h
            rw [if_pos harr]
            exact bind_eq_of_ok (getValueSuffixes_idem sufs hs) (bind_eq_of_ok hu (bind_eq_of_ok rfl
              (bind_eq_of_ok (getValueRefElements_idem c rest hrest) rfl)))
          · rename_i harr
            simp only [pure_bind, bind_eq_ok, pure_eq_ok, Prod.mk.injEq] at h
            obtain ⟨⟨path, restStates⟩, hrest, rfl, rfl⟩ := h
            rw [if_neg harr]
            exact bind_eq_of_ok rfl (bind_eq_of_ok (getValueRefElements_idem c rest hrest) rfl)

theorem getValueSuffixes_idem : ∀ (es : List Expr) {ss ss₁ : List State} {vs : List Value},
    getValueSuffixes T es ss = .ok (vs, ss₁) -> getValueSuffixes T es ss₁ = .ok (vs, ss₁)
  | [], _, _, _, h => by
      obtain ⟨rfl, rfl⟩ := Prod.mk.inj (Except.ok.inj h)
      rfl
  | e :: es, _, _, _, h => by
      obtain ⟨⟨v, s⟩, hs, h⟩ := bind_eq_ok.mp h
      obtain ⟨⟨vs, ss⟩, hss, h⟩ := bind_eq_ok.mp h
      obtain ⟨rfl, rfl⟩ := Prod.mk.inj (Except.ok.inj h)
      exact bind_eq_of_ok (getValue_idem e hs) (bind_eq_of_ok (getValueSuffixes_idem es hss) rfl)

end

/-- Calling `get_value()` twice is calling it once: the second call, from the attributes the first
left, returns the same value and changes nothing, and a first call that fails is all that runs. -/
theorem getValue_twice (e : Expr) (s : State) :
    (getValue T e s >>= fun p => getValue T e p.2) = getValue T e s := by
  cases h : getValue T e s with
  | error _ => rfl
  | ok _ => exact getValue_idem T e h

end

/-- `resolve_expr_width()` of `(4'd1 + 4'd1) && 1'd1` does nothing, so the addition keeps no width
and `get_value()` fails in `1 << None`. -/
theorem boolExpr_resolution_skips_operands (T : ComponentTree) :
    predictType T (.boolExpr .boolAnd 0 (.binaryInt .add 0 (.intLiteral 0 1 4) (.intLiteral 0 1 4))
        (.intLiteral 0 1 1)) .fresh = .ok .bool ∧
      resolveExprWidth T (.boolExpr .boolAnd 0
        (.binaryInt .add 0 (.intLiteral 0 1 4) (.intLiteral 0 1 4)) (.intLiteral 0 1 1)) .fresh =
        .ok .fresh ∧
      (propagateEvalWidth T 1 (.boolExpr .boolAnd 0
        (.binaryInt .add 0 (.intLiteral 0 1 4) (.intLiteral 0 1 4)) (.intLiteral 0 1 1)) .fresh).map
        (fun s => (s.op 0).slot.exprEvalWidth) = .ok (some 4) ∧
      (getValue T (.boolExpr .boolAnd 0
        (.binaryInt .add 0 (.intLiteral 0 1 4) (.intLiteral 0 1 4)) (.intLiteral 0 1 1)) .fresh).map
        Prod.fst = .error .typeError :=
  ⟨rfl, rfl, rfl, rfl⟩

/-- In `64'd1[8] && 64'd1`, `get_value()` gives the cast the width 8, which a second resolution
keeps: the two resolutions differ. -/
theorem boolExpr_resolution_not_restored (T : ComponentTree) :
    (do
      let e : Expr := .boolExpr .boolAnd 0 (.widthCast 0 (.intLiteral 0 1 64) 8) (.intLiteral 0 1 64)
      let s₁ ← resolveExprWidth T e .fresh
      let (_, s₂) ← getValue T e s₁
      let s₃ ← resolveExprWidth T e s₂
      pure ((s₁.op 0).slot.exprEvalWidth, (s₃.op 0).slot.exprEvalWidth)) = .ok (none, some 8) :=
  rfl

end RdlExpressions

import RdlExpressions.GetValue

/-!
# Width resolution: `get_min_eval_width`, `resolve_expr_width`, `propagate_eval_width`

`getMinEvalWidth T e s` is `e.get_min_eval_width()`. `widthPass T ctx e s` is
`e.resolve_expr_width()` for `ctx = none` and `e.propagate_eval_width(w)` for `ctx = some w`:
every class either overrides these methods or inherits the defaults of `Expr`, and each case below
is the method the class ends up with. All three return the attributes afterwards.

`get_min_eval_width` is not read-only: on a width cast with a width expression it runs
`resolve_cast_width`, which resolves and evaluates that expression once and memoizes the result
in `cast_width`. So the minimal-width calls also thread the state.
-/

namespace RdlExpressions

/-- An entry of `self.op` as the default width methods use it. -/
structure Operand where
  minEvalWidth : State -> Except Diag (Int × State)
  propagate : Int -> State -> Except Diag State

/-- `for op in self.op: w = op.get_min_eval_width(); width = max(width, w)`. -/
def minEvalWidths : List Operand -> List State -> Int -> Except Diag (Int × List State)
  | [], _, w => pure (w, [])
  | o :: os, ss, w => do
      let (wo, so) ← o.minEvalWidth (ss.headD State.fresh)
      let (w', ss') ← minEvalWidths os ss.tail (max w wo)
      pure (w', so :: ss')

/-- `for op in self.op: op.propagate_eval_width(w)`. -/
def propagateAll : List Operand -> List State -> Int -> Except Diag (List State)
  | [], _, _ => pure []
  | o :: os, ss, w => do
      let so ← o.propagate w (ss.headD State.fresh)
      let ss' ← propagateAll os ss.tail w
      pure (so :: ss')

/-- `Expr.resolve_expr_width`: the context width is the maximum of 1 and the operands' minimal
widths, stored and then propagated to every operand. -/
def defaultResolve (ops : List Operand) (s : State) : Except Diag State := do
  let (w, ss) ← minEvalWidths ops s.ops 1
  let ss ← propagateAll ops ss w
  pure (.mk { s.slot with exprEvalWidth := some w } ss)

/-- `Expr.propagate_eval_width`: store the imposed width and forward it to every operand. -/
def defaultPropagate (ops : List Operand) (w : Int) (s : State) : Except Diag State := do
  let ss ← propagateAll ops s.ops w
  pure (.mk { s.slot with exprEvalWidth := some w } ss)

/-- `WidthCast.resolve_cast_width`: while `cast_width` is unset, evaluate the width expression and
memoize its value. -/
def resolveCastWidth (evalWidthExpr : State -> Except Diag (Value × State)) (s : State) :
    Except Diag (Int × State) :=
  match s.slot.castWidth with
  | some cw => pure (cw, s)
  | none => do
      let (cv, se) ← evalWidthExpr (s.op 1)
      let cw ← cv.toWidth
      pure (cw, .mk { s.slot with castWidth := some cw } [s.op 0, se])

/-- The rest of `WidthCast.resolve_expr_width` once `cast_width` is `cw`: the value operand is
propagated at `max(cast_width, its minimal width)`, which becomes the cast's `expr_eval_width`. -/
def resolveCastValue (value : Operand) (cw : Int) (s : State) : Except Diag State := do
  let (w, sv) ← value.minEvalWidth (s.op 0)
  let ew := max cw w
  let sv ← value.propagate ew sv
  pure (.mk { s.slot with exprEvalWidth := some ew } (sv :: s.ops.drop 1))

theorem resolveCastWidth_of_castWidth {f : State -> Except Diag (Value × State)} {s : State}
    {cw : Int} (h : s.slot.castWidth = some cw) : resolveCastWidth f s = .ok (cw, s) := by
  unfold resolveCastWidth
  rw [h]
  rfl

theorem resolveCastWidth_of_none {f : State -> Except Diag (Value × State)} {s : State}
    (h : s.slot.castWidth = none) : resolveCastWidth f s = (do
      let (cv, se) ← f (s.op 1)
      let cw ← cv.toWidth
      pure (cw, .mk { s.slot with castWidth := some cw } [s.op 0, se])) := by
  unfold resolveCastWidth
  rw [h]

theorem resolveCastWidth_castWidth {f : State -> Except Diag (Value × State)} {s s' : State}
    {cw : Int} (h : resolveCastWidth f s = .ok (cw, s')) : s'.slot.castWidth = some cw := by
  unfold resolveCastWidth at h
  split at h
  · obtain ⟨rfl, rfl⟩ := Prod.mk.inj (Except.ok.inj h)
    assumption
  · obtain ⟨⟨_, _⟩, -, h⟩ := bind_eq_ok.mp h
    obtain ⟨_, -, h⟩ := bind_eq_ok.mp h
    obtain ⟨rfl, rfl⟩ := Prod.mk.inj (Except.ok.inj h)
    rfl

theorem State.ops_headD (s : State) : s.ops.headD State.fresh = s.op 0 := by
  rcases s with ⟨_, _ | ⟨_, _⟩⟩ <;> rfl

theorem State.ops_tail_headD (s : State) : s.ops.tail.headD State.fresh = s.op 1 := by
  rcases s with ⟨_, _ | ⟨_, _ | ⟨_, _⟩⟩⟩ <;> rfl

theorem defaultPropagate_nil (w : Int) (s : State) :
    defaultPropagate [] w s = pure (.mk { s.slot with exprEvalWidth := some w } []) := rfl

theorem defaultPropagate_one (a : Operand) (w : Int) (s : State) :
    defaultPropagate [a] w s = (do
      let sa ← a.propagate w (s.op 0)
      pure (.mk { s.slot with exprEvalWidth := some w } [sa])) := by
  simp only [defaultPropagate, propagateAll, State.ops_headD, bind_assoc, pure_bind]

theorem defaultPropagate_two (a b : Operand) (w : Int) (s : State) :
    defaultPropagate [a, b] w s = (do
      let sa ← a.propagate w (s.op 0)
      let sb ← b.propagate w (s.op 1)
      pure (.mk { s.slot with exprEvalWidth := some w } [sa, sb])) := by
  simp only [defaultPropagate, propagateAll, State.ops_headD, State.ops_tail_headD, bind_assoc,
    pure_bind]

theorem defaultResolve_nil (s : State) :
    defaultResolve [] s = pure (.mk { s.slot with exprEvalWidth := some 1 } []) := rfl

theorem defaultResolve_one (a : Operand) (s : State) :
    defaultResolve [a] s = (do
      let (wa, sa) ← a.minEvalWidth (s.op 0)
      let sa ← a.propagate (max 1 wa) sa
      pure (.mk { s.slot with exprEvalWidth := some (max 1 wa) } [sa])) := by
  simp only [defaultResolve, minEvalWidths, propagateAll, State.ops_headD, bind_assoc, pure_bind,
    List.headD_cons]

theorem defaultResolve_two (a b : Operand) (s : State) :
    defaultResolve [a, b] s = (do
      let (wa, sa) ← a.minEvalWidth (s.op 0)
      let (wb, sb) ← b.minEvalWidth (s.op 1)
      let sa ← a.propagate (max (max 1 wa) wb) sa
      let sb ← b.propagate (max (max 1 wa) wb) sb
      pure (.mk { s.slot with exprEvalWidth := some (max (max 1 wa) wb) } [sa, sb])) := by
  simp only [defaultResolve, minEvalWidths, propagateAll, State.ops_headD, State.ops_tail_headD,
    bind_assoc, pure_bind, List.headD_cons, List.tail_cons]

/-!
What one run of the default methods can do, as the width proofs consume it.
-/

theorem defaultPropagate_one_eq_ok {a : Operand} {w : Int} {s s' : State} :
    defaultPropagate [a] w s = .ok s' ↔ ∃ sa, a.propagate w (s.op 0) = .ok sa ∧
      .mk { s.slot with exprEvalWidth := some w } [sa] = s' := by
  rw [defaultPropagate_one]
  simp only [bind_eq_ok, pure_eq_ok]

theorem defaultPropagate_two_eq_ok {a b : Operand} {w : Int} {s s' : State} :
    defaultPropagate [a, b] w s = .ok s' ↔ ∃ sa, a.propagate w (s.op 0) = .ok sa ∧
      ∃ sb, b.propagate w (s.op 1) = .ok sb ∧
      .mk { s.slot with exprEvalWidth := some w } [sa, sb] = s' := by
  rw [defaultPropagate_two]
  simp only [bind_eq_ok, pure_eq_ok]

theorem defaultResolve_one_eq_ok {a : Operand} {s s' : State} :
    defaultResolve [a] s = .ok s' ↔ ∃ wa sa, a.minEvalWidth (s.op 0) = .ok (wa, sa) ∧
      ∃ sa', a.propagate (max 1 wa) sa = .ok sa' ∧
      .mk { s.slot with exprEvalWidth := some (max 1 wa) } [sa'] = s' := by
  rw [defaultResolve_one]
  simp only [bind_eq_ok, pure_eq_ok, Prod.exists]

theorem defaultResolve_two_eq_ok {a b : Operand} {s s' : State} :
    defaultResolve [a, b] s = .ok s' ↔ ∃ wa sa, a.minEvalWidth (s.op 0) = .ok (wa, sa) ∧
      ∃ wb sb, b.minEvalWidth (s.op 1) = .ok (wb, sb) ∧
      ∃ sa', a.propagate (max (max 1 wa) wb) sa = .ok sa' ∧
      ∃ sb', b.propagate (max (max 1 wa) wb) sb = .ok sb' ∧
      .mk { s.slot with exprEvalWidth := some (max (max 1 wa) wb) } [sa', sb'] = s' := by
  rw [defaultResolve_two]
  simp only [bind_eq_ok, pure_eq_ok, Prod.exists]

theorem resolveCastValue_eq_ok {a : Operand} {cw : Int} {s s' : State} :
    resolveCastValue a cw s = .ok s' ↔ ∃ wa sa, a.minEvalWidth (s.op 0) = .ok (wa, sa) ∧
      ∃ sa', a.propagate (max cw wa) sa = .ok sa' ∧
      .mk { s.slot with exprEvalWidth := some (max cw wa) } (sa' :: s.ops.drop 1) = s' := by
  simp only [resolveCastValue, bind_eq_ok, pure_eq_ok, Prod.exists]

theorem resolveCastValue_castWidth {a : Operand} {cw : Int} {s s' : State}
    (h : resolveCastValue a cw s = .ok s') : s'.slot.castWidth = s.slot.castWidth := by
  obtain ⟨_, _, -, _, -, rfl⟩ := resolveCastValue_eq_ok.mp h
  rfl

section

variable (T : ComponentTree)

mutual

/-- `get_min_eval_width()`. -/
def getMinEvalWidth : Expr -> State -> Except Diag (Int × State)
  | .intLiteral _ _ width, s => pure (width, s)
  | .builtinEnumLiteral .., s => pure (1, s)
  | .stringLiteral .., s => pure (1, s)
  | .binaryInt _ _ l r, s => do
      let (wl, sl) ← getMinEvalWidth l (s.op 0)
      let (wr, sr) ← getMinEvalWidth r (s.op 1)
      pure (max wl wr, .mk s.slot [sl, sr])
  | .unaryInt _ _ n, s => do
      let (w, sn) ← getMinEvalWidth n (s.op 0)
      pure (w, .mk s.slot [sn])
  | .relational .., s => pure (1, s)
  | .reduction .., s => pure (1, s)
  | .boolExpr .., s => pure (1, s)
  | .expShift _ _ l _, s => do
      let (w, sl) ← getMinEvalWidth l (s.op 0)
      pure (w, .mk s.slot [sl, s.op 1])
  | .ternary _ _ j k, s => do
      let (wj, sj) ← getMinEvalWidth j (s.op 1)
      let (wk, sk) ← getMinEvalWidth k (s.op 2)
      pure (max wj wk, .mk s.slot [s.op 0, sj, sk])
  | .widthCast _ _ wInt, s => pure (wInt, s)
  | .widthCastExpr _ _ wExpr, s =>
      resolveCastWidth (fun se => do getValue T wExpr (← widthPass none wExpr se)) s
  | .boolCast .., s => pure (1, s)
  | .parameterRef c name _ none, _ =>
      .error (.fatal s!"Value for parameter '{name}' was never assigned" c)
  | .parameterRef _ _ _ (some x), s => do
      let (w, sx) ← getMinEvalWidth x (s.op 0)
      pure (w, .mk s.slot [sx])
  | .instRef .., s => pure (1, s)
  | .assignmentCast _ v _, s => do
      let (w, sv) ← getMinEvalWidth v (s.op 0)
      pure (w, .mk s.slot [sv])

/-- `resolve_expr_width()` for `ctx = none`, `propagate_eval_width(w)` for `ctx = some w`. -/
def widthPass : Option Int -> Expr -> State -> Except Diag State
  | none, .intLiteral .., s => defaultResolve [] s
  | some w, .intLiteral .., s => defaultPropagate [] w s
  | none, .builtinEnumLiteral .., s => defaultResolve [] s
  | some w, .builtinEnumLiteral .., s => defaultPropagate [] w s
  | none, .stringLiteral .., s => defaultResolve [] s
  | some w, .stringLiteral .., s => defaultPropagate [] w s
  | none, .binaryInt _ _ l r, s =>
      defaultResolve [⟨getMinEvalWidth l, fun w => widthPass (some w) l⟩,
        ⟨getMinEvalWidth r, fun w => widthPass (some w) r⟩] s
  | some w, .binaryInt _ _ l r, s =>
      defaultPropagate [⟨getMinEvalWidth l, fun w => widthPass (some w) l⟩,
        ⟨getMinEvalWidth r, fun w => widthPass (some w) r⟩] w s
  | none, .unaryInt _ _ n, s =>
      defaultResolve [⟨getMinEvalWidth n, fun w => widthPass (some w) n⟩] s
  | some w, .unaryInt _ _ n, s =>
      defaultPropagate [⟨getMinEvalWidth n, fun w => widthPass (some w) n⟩] w s
  | _, .relational _ _ l r, s =>
      defaultResolve [⟨getMinEvalWidth l, fun w => widthPass (some w) l⟩,
        ⟨getMinEvalWidth r, fun w => widthPass (some w) r⟩] s
  | _, .reduction _ _ n, s =>
      defaultResolve [⟨getMinEvalWidth n, fun w => widthPass (some w) n⟩] s
  | none, .boolExpr .., s => pure s
  | some _, .boolExpr _ _ l r, s => do
      let sl ← widthPass none l (s.op 0)
      let sr ← widthPass none r (s.op 1)
      pure (.mk s.slot [sl, sr])
  | none, .expShift _ _ l _, s => do
      let (w, sl) ← getMinEvalWidth l (s.op 0)
      let sl ← widthPass (some w) l sl
      pure (.mk { s.slot with exprEvalWidth := some w } [sl, s.op 1])
  | some w, .expShift _ _ l r, s => do
      let sl ← widthPass (some w) l (s.op 0)
      let sr ← widthPass none r (s.op 1)
      pure (.mk { s.slot with exprEvalWidth := some w } [sl, sr])
  | none, .ternary _ _ j k, s => do
      let (wj, sj) ← getMinEvalWidth j (s.op 1)
      let (wk, sk) ← getMinEvalWidth k (s.op 2)
      let w := max (max 1 wj) wk
      let sj ← widthPass (some w) j sj
      let sk ← widthPass (some w) k sk
      pure (.mk { s.slot with exprEvalWidth := some w } [s.op 0, sj, sk])
  | some w, .ternary _ i j k, s => do
      let sj ← widthPass (some w) j (s.op 1)
      let sk ← widthPass (some w) k (s.op 2)
      let si ← widthPass none i (s.op 0)
      pure (.mk { s.slot with exprEvalWidth := some w } [si, sj, sk])
  | _, .widthCast _ v wInt, s =>
      resolveCastValue ⟨getMinEvalWidth v, fun w => widthPass (some w) v⟩ wInt s
  | _, .widthCastExpr _ v wExpr, s => do
      let (cw, s) ← resolveCastWidth (fun se => do getValue T wExpr (← widthPass none wExpr se)) s
      resolveCastValue ⟨getMinEvalWidth v, fun w => widthPass (some w) v⟩ cw s
  | _, .boolCast _ n, s =>
      defaultResolve [⟨getMinEvalWidth n, fun w => widthPass (some w) n⟩] s
  | _, .parameterRef c name _ none, _ =>
      .error (.fatal s!"Value for parameter '{name}' was never assigned" c)
  | _, .parameterRef _ _ _ (some x), s =>
      defaultResolve [⟨getMinEvalWidth x, fun w => widthPass (some w) x⟩] s
  | _, .instRef _ _ refElements, s => do
      let segs ← widthPassRefElements refElements s.ops
      pure (.mk s.slot segs)
  | _, .assignmentCast _ v _, s =>
      defaultResolve [⟨getMinEvalWidth v, fun w => widthPass (some w) v⟩] s

/-- `InstRef.resolve_expr_width` over the remaining path segments. -/
def widthPassRefElements : List (Token × List Expr) -> List State -> Except Diag (List State)
  | [], _ => pure []
  | (_, arraySuffixes) :: rest, ss => do
      let seg := ss.headD State.fresh
      let sufStates ← widthPassSuffixes arraySuffixes seg.ops
      let restStates ← widthPassRefElements rest ss.tail
      pure (.mk seg.slot sufStates :: restStates)

/-- `for array_suffix in array_suffixes: array_suffix.resolve_expr_width()`. -/
def widthPassSuffixes : List Expr -> List State -> Except Diag (List State)
  | [], _ => pure []
  | e :: es, ss => do
      let s ← widthPass none e (ss.headD State.fresh)
      let ss' ← widthPassSuffixes es ss.tail
      pure (s :: ss')

end

/-- `resolve_expr_width()`: the entry point of a new evaluation context. -/
def resolveExprWidth (e : Expr) (s : State) : Except Diag State :=
  widthPass T none e s

/-- `propagate_eval_width(w)`: the width imposed by the enclosing context. -/
def propagateEvalWidth (w : Int) (e : Expr) (s : State) : Except Diag State :=
  widthPass T (some w) e s

end

end RdlExpressions

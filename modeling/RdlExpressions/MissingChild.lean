import RdlExpressions.InstRef
import RdlExpressions.Soundness
import RdlExpressions.Session

/-!
# The missing-child `RuntimeError` is never raised

`InstRef.get_value` walks the path with `get_child_by_name` and raises `RuntimeError` where a
child is missing. `predict_type` made the same walk and reported a missing child through
`msg.fatal`, so on a tree it accepts the branch is dead, whatever attributes the tree has.

The width passes look up no child: they reach `get_value` only through the width expression of a
cast, which `predict_type` checked on the new tree. So no sequence of calls of
`resolve_expr_width()`, `propagate_eval_width(w)`, `get_min_eval_width()` and `get_value()` on a
tree it accepts raises the `RuntimeError` either.
-/

namespace RdlExpressions

/-!
## Computations that do not raise it
-/

def NoRuntimeError {α : Type} : Except Diag α -> Prop
  | .ok _ => True
  | .error d => d ≠ .runtimeError

theorem NoRuntimeError.bind {α β : Type} {x : Except Diag α} {f : α -> Except Diag β}
    (h : NoRuntimeError x) (hf : ∀ a, NoRuntimeError (f a)) : NoRuntimeError (x >>= f) := by
  cases x with
  | error _ => exact h
  | ok a => exact hf a

@[simp]
theorem noRuntimeError_error {α : Type} {d : Diag} :
    NoRuntimeError (.error d : Except Diag α) ↔ d ≠ .runtimeError :=
  Iff.rfl

theorem NoRuntimeError.ne {α : Type} {x : Except Diag α} (h : NoRuntimeError x) :
    x ≠ .error .runtimeError := by
  rintro rfl
  exact h rfl

@[simp]
theorem NoRuntimeError.pure {α : Type} {a : α} : NoRuntimeError (pure a : Except Diag α) :=
  trivial

theorem Value.toInt_noRuntimeError (v : Value) : NoRuntimeError v.toInt := by
  cases v <;> simp only [Value.toInt] <;> (try split) <;> simp

theorem Value.toWidth_noRuntimeError (v : Value) : NoRuntimeError v.toWidth := by
  cases v <;> simp [Value.toWidth]

theorem trunc_noRuntimeError (w : Option Int) (v : Int) : NoRuntimeError (trunc w v) := by
  unfold trunc
  split <;> (try split) <;> simp

theorem castTrunc_noRuntimeError (c : ErrCtx) (w : Option Int) (v : Int) :
    NoRuntimeError (castTrunc c w v) := by
  unfold castTrunc
  split
  · simp
  · exact trunc_noRuntimeError w v

theorem BinaryIntOp.apply_noRuntimeError (o : BinaryIntOp) (c : ErrCtx) (a b : Int) :
    NoRuntimeError (o.apply c a b) := by
  cases o <;> simp only [BinaryIntOp.apply] <;> (try split) <;> simp

theorem ExpShiftOp.apply_noRuntimeError (o : ExpShiftOp) (a b : Int) :
    NoRuntimeError (o.apply a b) := by
  cases o <;> simp only [ExpShiftOp.apply, intPow, shiftLeft, shiftRight] <;>
    split_ifs <;> simp

theorem ReductionOp.apply_noRuntimeError (o : ReductionOp) (w : Option Int) (n : Int) :
    NoRuntimeError (o.apply w n) := by
  cases o
  case andReduce => exact (trunc_noRuntimeError w _).bind fun _ => .pure
  case xorReduce | xnorReduce =>
    simp only [ReductionOp.apply, parityOf]
    split <;> simp
  all_goals exact .pure

theorem checkIndexRange_noRuntimeError :
    ∀ (vs : List Value) (ds : List Nat), NoRuntimeError (checkIndexRange vs ds)
  | [], _ => .pure
  | _ :: _, [] => by simp [checkIndexRange]
  | v :: vs, d :: ds => by
      have hge : NoRuntimeError (v.geDim d) := by
        cases v <;> simp [Value.geDim]
      refine hge.bind fun _ => ?_
      split
      · simp
      · exact checkIndexRange_noRuntimeError vs ds

/-!
## `get_value`
-/

section

variable (T : ComponentTree)

mutual

theorem getValue_noRuntimeError :
    ∀ (e : Expr) {τ : RdlType}, predictType T e .fresh = .ok τ -> e.All (ParamTyped T) ->
      ∀ s, NoRuntimeError (getValue T e s)
  | .intLiteral .., _, _, _, _ | .builtinEnumLiteral .., _, _, _, _
  | .stringLiteral .., _, _, _, _ => .pure
  | .binaryInt o c l r, _, h, hpar, _ => by
      obtain ⟨_, hl, -, _, hr, -, -⟩ := requireNumeric_two_eq_ok.mp h
      exact (getValue_noRuntimeError l hl hpar.2.1 _).bind fun _ =>
        (Value.toInt_noRuntimeError _).bind fun _ =>
          (getValue_noRuntimeError r hr hpar.2.2 _).bind fun _ =>
            (Value.toInt_noRuntimeError _).bind fun _ => (o.apply_noRuntimeError c _ _).bind
              fun _ => (trunc_noRuntimeError _ _).bind fun _ => .pure
  | .unaryInt _ _ n, _, h, hpar, _ => by
      obtain ⟨_, hn, -, -⟩ := requireNumeric_one_eq_ok.mp h
      exact (getValue_noRuntimeError n hn hpar.2 _).bind fun _ =>
        (Value.toInt_noRuntimeError _).bind fun _ => (trunc_noRuntimeError _ _).bind fun _ => .pure
  | .relational _ _ l r, _, h, hpar, _ => by
      obtain ⟨_, hl, -, _, hr, -, -⟩ := requireNumeric_two_eq_ok.mp h
      exact (getValue_noRuntimeError l hl hpar.2.1 _).bind fun _ =>
        (Value.toInt_noRuntimeError _).bind fun _ =>
          (getValue_noRuntimeError r hr hpar.2.2 _).bind fun _ =>
            (Value.toInt_noRuntimeError _).bind fun _ => .pure
  | .reduction o _ n, _, h, hpar, _ => by
      obtain ⟨_, hn, -, -⟩ := requireNumeric_one_eq_ok.mp h
      by_cases ho : o = .boolNot
      · subst ho
        exact .pure
      · rw [getValue_reduction T ho]
        exact (getValue_noRuntimeError n hn hpar.2 _).bind fun _ =>
          (Value.toInt_noRuntimeError _).bind fun _ =>
            (o.apply_noRuntimeError _ _).bind fun _ => .pure
  | .boolExpr _ _ l r, _, h, hpar, _ => by
      obtain ⟨_, hl, -, _, hr, -, -⟩ := requireNumeric_two_eq_ok.mp h
      exact (getValue_noRuntimeError l hl hpar.2.1 _).bind fun _ =>
        (getValue_noRuntimeError r hr hpar.2.2 _).bind fun _ => .pure
  | .expShift o _ l r, _, h, hpar, _ => by
      obtain ⟨_, hl, -, _, hr, -, -⟩ := requireNumeric_two_eq_ok.mp h
      exact (getValue_noRuntimeError l hl hpar.2.1 _).bind fun _ =>
        (Value.toInt_noRuntimeError _).bind fun _ =>
          (getValue_noRuntimeError r hr hpar.2.2 _).bind fun _ =>
            (Value.toInt_noRuntimeError _).bind fun _ => (o.apply_noRuntimeError _ _).bind
              fun _ => (trunc_noRuntimeError _ _).bind fun _ => .pure
  | .ternary _ i j k, _, h, hpar, _ => by
      obtain ⟨_, hi, -, _, hj, _, hk, -⟩ := predictType_ternary_eq_ok.mp h
      exact (getValue_noRuntimeError i hi hpar.2.1 _).bind fun _ =>
        (getValue_noRuntimeError j hj hpar.2.2.1 _).bind fun _ =>
          (getValue_noRuntimeError k hk hpar.2.2.2 _).bind fun _ => .pure
  | .widthCast c v _, _, h, hpar, _ => by
      obtain ⟨_, hv, -, -⟩ := requireNumeric_one_eq_ok.mp h
      exact (getValue_noRuntimeError v hv hpar.2 _).bind fun _ =>
        (Value.toInt_noRuntimeError _).bind fun _ =>
          (castTrunc_noRuntimeError c _ _).bind fun _ => .pure
  | .widthCastExpr c v _, _, h, hpar, _ => by
      obtain ⟨-, _, hv, -, -⟩ := predictType_widthCastExpr_eq_ok.mp h
      exact (getValue_noRuntimeError v hv hpar.2.1 _).bind fun _ =>
        (Value.toInt_noRuntimeError _).bind fun _ =>
          (castTrunc_noRuntimeError c _ _).bind fun _ => .pure
  | .boolCast _ n, _, h, hpar, _ => by
      obtain ⟨_, hn, -, -⟩ := requireNumeric_one_eq_ok.mp h
      exact (getValue_noRuntimeError n hn hpar.2 _).bind fun _ =>
        (Value.toInt_noRuntimeError _).bind fun _ => .pure
  | .parameterRef _ _ _ none, _, _, _, _ => nofun
  | .parameterRef _ _ _ (some x), _, _, hpar, _ => by
      obtain ⟨_, hx, -⟩ := hpar.1
      exact (getValue_noRuntimeError x hx hpar.2 _).bind fun _ => .pure
  | .instRef _ _ els, _, h, hpar, _ => by
      obtain ⟨_, hc, -⟩ := bind_eq_ok.mp h
      exact (getValueRefElements_noRuntimeError els hc hpar.2 _).bind fun _ => .pure
  | .assignmentCast _ v _, _, h, hpar, _ => by
      obtain ⟨_, hv, -, -⟩ := predictType_assignmentCast_eq_ok.mp h
      exact (getValue_noRuntimeError v hv hpar.2 _).bind fun _ => .pure

theorem getValueRefElements_noRuntimeError :
    ∀ (els : List (Token × List Expr)) {cur c : Nat},
      predictTypeRefElements T cur els [] = .ok c -> Expr.AllElements (ParamTyped T) els ->
      ∀ ss, NoRuntimeError (getValueRefElements T cur els ss)
  | [], _, _, _, _, _ => .pure
  | (_, sufs) :: rest, _, _, h, hpar, _ => by
      obtain ⟨c', hchild, hsufs, -, hrest⟩ := predictTypeRefElements_cons_eq_ok.mp h
      have irest : ∀ ss, NoRuntimeError (getValueRefElements T c' rest ss) :=
        getValueRefElements_noRuntimeError rest hrest hpar.2
      simp only [getValueRefElements, hchild]
      split
      · exact (getValueSuffixes_noRuntimeError sufs hsufs hpar.1 _).bind fun _ =>
          (checkIndexRange_noRuntimeError _ _).bind fun _ =>
            NoRuntimeError.pure.bind fun _ => (irest _).bind fun _ => .pure
      · exact NoRuntimeError.pure.bind fun _ => (irest _).bind fun _ => .pure

theorem getValueSuffixes_noRuntimeError :
    ∀ (es : List Expr), predictTypeSuffixes T es [] = .ok () -> Expr.AllList (ParamTyped T) es ->
      ∀ ss, NoRuntimeError (getValueSuffixes T es ss)
  | [], _, _, _ => .pure
  | e :: es, h, hpar, _ => by
      obtain ⟨_, he, hes⟩ := predictTypeSuffixes_cons_eq_ok.mp h
      exact (getValue_noRuntimeError e he hpar.1 _).bind fun _ =>
        (getValueSuffixes_noRuntimeError es hes hpar.2 _).bind fun _ => .pure

end

/-- On a tree `predict_type` accepts, with typed parameters, `get_value()` never raises the
missing-child `RuntimeError`, from any attributes. -/
theorem getValue_ne_runtimeError {e : Expr} {τ : RdlType} (hτ : predictType T e .fresh = .ok τ)
    (hpar : e.All (ParamTyped T)) (s : State) : getValue T e s ≠ .error .runtimeError :=
  (getValue_noRuntimeError T e hτ hpar s).ne

end

/-- `arr["x"][0]`, whose string index `predict_type` lets through: `get_value()` fails on it, but
not with the `RuntimeError`. -/
theorem getValue_ne_runtimeError_stringIndex :
    getValue .rootWithArray
        (.instRef 0 0 [(⟨5, "arr"⟩, [.stringLiteral 0 "x", .intLiteral 0 0 64])]) .fresh ≠
      .error .runtimeError :=
  getValue_ne_runtimeError .rootWithArray (by rfl)
    (by simp [Expr.All, Expr.AllElements, Expr.AllList, ParamTyped]) .fresh

/-!
## The width passes and whole sessions
-/

structure Operand.RaisesNoRuntimeError (o : Operand) : Prop where
  minWidth : ∀ s, NoRuntimeError (o.minEvalWidth s)
  propagate : ∀ w s, NoRuntimeError (o.propagate w s)

theorem minEvalWidths_noRuntimeError {ops : List Operand}
    (h : ∀ o ∈ ops, o.RaisesNoRuntimeError) (ss : List State) (w : Int) :
    NoRuntimeError (minEvalWidths ops ss w) := by
  induction ops generalizing ss w with
  | nil => exact .pure
  | cons o os ih =>
      exact ((h o (List.mem_cons_self _ _)).minWidth _).bind fun _ =>
        (ih (fun o' ho' => h o' (List.mem_cons_of_mem _ ho')) _ _).bind fun _ => .pure

theorem propagateAll_noRuntimeError {ops : List Operand}
    (h : ∀ o ∈ ops, o.RaisesNoRuntimeError) (ss : List State) (w : Int) :
    NoRuntimeError (propagateAll ops ss w) := by
  induction ops generalizing ss with
  | nil => exact .pure
  | cons o os ih =>
      exact ((h o (List.mem_cons_self _ _)).propagate _ _).bind fun _ =>
        (ih (fun o' ho' => h o' (List.mem_cons_of_mem _ ho')) _).bind fun _ => .pure

theorem defaultResolve_noRuntimeError {ops : List Operand}
    (h : ∀ o ∈ ops, o.RaisesNoRuntimeError) (s : State) :
    NoRuntimeError (defaultResolve ops s) :=
  (minEvalWidths_noRuntimeError h _ _).bind fun _ =>
    (propagateAll_noRuntimeError h _ _).bind fun _ => .pure

theorem defaultPropagate_noRuntimeError {ops : List Operand}
    (h : ∀ o ∈ ops, o.RaisesNoRuntimeError) (w : Int) (s : State) :
    NoRuntimeError (defaultPropagate ops w s) :=
  (propagateAll_noRuntimeError h _ _).bind fun _ => .pure

theorem resolveCastValue_noRuntimeError {o : Operand} (h : o.RaisesNoRuntimeError) (cw : Int)
    (s : State) : NoRuntimeError (resolveCastValue o cw s) :=
  (h.minWidth _).bind fun _ => (h.propagate _ _).bind fun _ => .pure

theorem resolveCastWidth_noRuntimeError {eval : State -> Except Diag (Value × State)}
    (heval : ∀ s, NoRuntimeError (eval s)) (s : State) :
    NoRuntimeError (resolveCastWidth eval s) := by
  unfold resolveCastWidth
  split
  · exact .pure
  · exact (heval _).bind fun _ => (Value.toWidth_noRuntimeError _).bind fun _ => .pure

section

variable (T : ComponentTree)

structure PassNoRuntimeError (e : Expr) : Prop where
  minWidth : ∀ s, NoRuntimeError (getMinEvalWidth T e s)
  pass : ∀ ctx s, NoRuntimeError (widthPass T ctx e s)

variable {T} in
theorem PassNoRuntimeError.operand {e : Expr} (h : PassNoRuntimeError T e) :
    Operand.RaisesNoRuntimeError ⟨getMinEvalWidth T e, fun w => widthPass T (some w) e⟩ :=
  ⟨h.minWidth, fun w => h.pass (some w)⟩

mutual

theorem passNoRuntimeError_of_typed :
    ∀ (e : Expr) {τ : RdlType}, predictType T e .fresh = .ok τ -> e.All (ParamTyped T) ->
      PassNoRuntimeError T e
  | .intLiteral .., _, _, _ | .builtinEnumLiteral .., _, _, _ | .stringLiteral .., _, _, _ =>
      ⟨fun _ => trivial, fun ctx _ => by cases ctx <;> trivial⟩
  | .binaryInt _ _ l r, _, h, hpar => by
      obtain ⟨_, hl, -, _, hr, -, -⟩ := requireNumeric_two_eq_ok.mp h
      have il := (passNoRuntimeError_of_typed l hl hpar.2.1).operand
      have ir := (passNoRuntimeError_of_typed r hr hpar.2.2).operand
      refine ⟨fun _ => (il.minWidth _).bind fun _ => (ir.minWidth _).bind fun _ => trivial,
        fun ctx _ => ?_⟩
      have hops := List.forall_mem_cons.2 ⟨il, List.forall_mem_singleton.2 ir⟩
      cases ctx
      · exact defaultResolve_noRuntimeError hops _
      · exact defaultPropagate_noRuntimeError hops _ _
  | .unaryInt _ _ n, _, h, hpar => by
      obtain ⟨_, hn, -, -⟩ := requireNumeric_one_eq_ok.mp h
      have i := (passNoRuntimeError_of_typed n hn hpar.2).operand
      refine ⟨fun _ => (i.minWidth _).bind fun _ => trivial, fun ctx _ => ?_⟩
      cases ctx
      · exact defaultResolve_noRuntimeError (List.forall_mem_singleton.2 i) _
      · exact defaultPropagate_noRuntimeError (List.forall_mem_singleton.2 i) _ _
  | .relational _ _ l r, _, h, hpar => by
      obtain ⟨_, hl, -, _, hr, -, -⟩ := requireNumeric_two_eq_ok.mp h
      have il := (passNoRuntimeError_of_typed l hl hpar.2.1).operand
      have ir := (passNoRuntimeError_of_typed r hr hpar.2.2).operand
      exact ⟨fun _ => trivial, fun ctx _ => by
        cases ctx <;> exact defaultResolve_noRuntimeError
          (List.forall_mem_cons.2 ⟨il, List.forall_mem_singleton.2 ir⟩) _⟩
  | .reduction _ _ n, _, h, hpar | .boolCast _ n, _, h, hpar => by
      obtain ⟨_, hn, -, -⟩ := requireNumeric_one_eq_ok.mp h
      have i := (passNoRuntimeError_of_typed n hn hpar.2).operand
      exact ⟨fun _ => trivial, fun ctx _ => by
        cases ctx <;> exact defaultResolve_noRuntimeError (List.forall_mem_singleton.2 i) _⟩
  | .boolExpr _ _ l r, _, h, hpar => by
      obtain ⟨_, hl, -, _, hr, -, -⟩ := requireNumeric_two_eq_ok.mp h
      have il := passNoRuntimeError_of_typed l hl hpar.2.1
      have ir := passNoRuntimeError_of_typed r hr hpar.2.2
      refine ⟨fun _ => trivial, fun ctx _ => ?_⟩
      cases ctx
      · exact trivial
      · exact (il.pass none _).bind fun _ => (ir.pass none _).bind fun _ => trivial
  | .expShift _ _ l r, _, h, hpar => by
      obtain ⟨_, hl, -, _, hr, -, -⟩ := requireNumeric_two_eq_ok.mp h
      have il := (passNoRuntimeError_of_typed l hl hpar.2.1).operand
      have ir := passNoRuntimeError_of_typed r hr hpar.2.2
      refine ⟨fun _ => (il.minWidth _).bind fun _ => trivial, fun ctx _ => ?_⟩
      cases ctx
      · exact (il.minWidth _).bind fun _ => (il.propagate _ _).bind fun _ => trivial
      · exact (il.propagate _ _).bind fun _ => (ir.pass none _).bind fun _ => trivial
  | .ternary _ i j k, _, h, hpar => by
      obtain ⟨_, hi, -, _, hj, _, hk, -⟩ := predictType_ternary_eq_ok.mp h
      have ii := passNoRuntimeError_of_typed i hi hpar.2.1
      have ij := (passNoRuntimeError_of_typed j hj hpar.2.2.1).operand
      have ik := (passNoRuntimeError_of_typed k hk hpar.2.2.2).operand
      refine ⟨fun _ => (ij.minWidth _).bind fun _ => (ik.minWidth _).bind fun _ => trivial,
        fun ctx _ => ?_⟩
      cases ctx
      · exact (ij.minWidth _).bind fun _ => (ik.minWidth _).bind fun _ =>
          (ij.propagate _ _).bind fun _ => (ik.propagate _ _).bind fun _ => trivial
      · exact (ij.propagate _ _).bind fun _ => (ik.propagate _ _).bind fun _ =>
          (ii.pass none _).bind fun _ => trivial
  | .widthCast _ v _, _, h, hpar => by
      obtain ⟨_, hv, -, -⟩ := requireNumeric_one_eq_ok.mp h
      have i := (passNoRuntimeError_of_typed v hv hpar.2).operand
      exact ⟨fun _ => trivial, fun ctx _ => by
        cases ctx <;> exact resolveCastValue_noRuntimeError i _ _⟩
  | .widthCastExpr _ v wExpr, _, h, hpar => by
      obtain ⟨hwt, _, hv, -, -⟩ := predictType_widthCastExpr_eq_ok.mp h
      obtain ⟨_, hw, -⟩ := hwt rfl
      have iv := (passNoRuntimeError_of_typed v hv hpar.2.1).operand
      have iw := passNoRuntimeError_of_typed wExpr hw hpar.2.2
      have heval : ∀ se, NoRuntimeError (widthPass T none wExpr se >>= getValue T wExpr) :=
        fun _ => (iw.pass none _).bind fun _ => getValue_noRuntimeError T wExpr hw hpar.2.2 _
      refine ⟨resolveCastWidth_noRuntimeError heval, fun ctx _ => ?_⟩
      cases ctx <;> exact (resolveCastWidth_noRuntimeError heval _).bind fun _ =>
        resolveCastValue_noRuntimeError iv _ _
  | .parameterRef _ _ _ none, _, _, _ => ⟨fun _ => nofun, fun ctx _ => by cases ctx <;> nofun⟩
  | .parameterRef _ _ _ (some x), _, _, hpar => by
      obtain ⟨_, hx, -⟩ := hpar.1
      have i := (passNoRuntimeError_of_typed x hx hpar.2).operand
      exact ⟨fun _ => (i.minWidth _).bind fun _ => trivial, fun ctx _ => by
        cases ctx <;> exact defaultResolve_noRuntimeError (List.forall_mem_singleton.2 i) _⟩
  | .instRef _ _ els, _, h, hpar => by
      obtain ⟨_, hc, -⟩ := bind_eq_ok.mp h
      exact ⟨fun _ => trivial, fun ctx _ => by
        cases ctx <;> exact (passNoRuntimeErrorRefElements els hc hpar.2 _).bind fun _ => trivial⟩
  | .assignmentCast _ v _, _, h, hpar => by
      obtain ⟨_, hv, -, -⟩ := predictType_assignmentCast_eq_ok.mp h
      have i := (passNoRuntimeError_of_typed v hv hpar.2).operand
      exact ⟨fun _ => (i.minWidth _).bind fun _ => trivial, fun ctx _ => by
        cases ctx <;> exact defaultResolve_noRuntimeError (List.forall_mem_singleton.2 i) _⟩

theorem passNoRuntimeErrorRefElements :
    ∀ (els : List (Token × List Expr)) {cur c : Nat},
      predictTypeRefElements T cur els [] = .ok c -> Expr.AllElements (ParamTyped T) els ->
      ∀ ss, NoRuntimeError (widthPassRefElements T els ss)
  | [], _, _, _, _, _ => trivial
  | (_, sufs) :: rest, _, _, h, hpar, _ => by
      obtain ⟨_, -, hsufs, -, hrest⟩ := predictTypeRefElements_cons_eq_ok.mp h
      exact (passNoRuntimeErrorSuffixes sufs hsufs hpar.1 _).bind fun _ =>
        (passNoRuntimeErrorRefElements rest hrest hpar.2 _).bind fun _ => trivial

theorem passNoRuntimeErrorSuffixes :
    ∀ (es : List Expr), predictTypeSuffixes T es [] = .ok () -> Expr.AllList (ParamTyped T) es ->
      ∀ ss, NoRuntimeError (widthPassSuffixes T es ss)
  | [], _, _, _ => trivial
  | e :: es, h, hpar, _ => by
      obtain ⟨_, he, hes⟩ := predictTypeSuffixes_cons_eq_ok.mp h
      exact ((passNoRuntimeError_of_typed e he hpar.1).pass none _).bind fun _ =>
        (passNoRuntimeErrorSuffixes es hes hpar.2 _).bind fun _ => trivial

end

theorem Call.run_noRuntimeError {e : Expr} (hp : PassNoRuntimeError T e)
    (hv : ∀ s, NoRuntimeError (RdlExpressions.getValue T e s)) :
    ∀ (c : Call) (s : State), NoRuntimeError (c.run T e s)
  | .resolveExprWidth, s => hp.pass none s
  | .propagateEvalWidth w, s => hp.pass (some w) s
  | .getMinEvalWidth, s => (hp.minWidth s).bind fun _ => .pure
  | .getValue, s => (hv s).bind fun _ => .pure

theorem runCalls_noRuntimeError {e : Expr} (hp : PassNoRuntimeError T e)
    (hv : ∀ s, NoRuntimeError (getValue T e s)) :
    ∀ (cs : List Call) (s : State), NoRuntimeError (runCalls T e cs s)
  | [], _ => .pure
  | c :: cs, s => (Call.run_noRuntimeError T hp hv c s).bind fun s' =>
      runCalls_noRuntimeError hp hv cs s'

/-- No run of calls on a tree `predict_type` accepts, with typed parameters, raises the
missing-child `RuntimeError`. -/
theorem runCalls_ne_runtimeError {e : Expr} {τ : RdlType} (hτ : predictType T e .fresh = .ok τ)
    (hpar : e.All (ParamTyped T)) (cs : List Call) (s : State) :
    runCalls T e cs s ≠ .error .runtimeError :=
  (runCalls_noRuntimeError T (passNoRuntimeError_of_typed T e hτ hpar)
    (getValue_noRuntimeError T e hτ hpar) cs s).ne

end

/-- `arr[1][2]` resolved, evaluated, propagated at width 8 and evaluated again. -/
theorem runCalls_ne_runtimeError_arr :
    runCalls .rootWithArray (.instRef 0 0 [(⟨5, "arr"⟩, [.intLiteral 0 1 64, .intLiteral 0 2 64])])
        [.resolveExprWidth, .getValue, .propagateEvalWidth 8, .getValue] .fresh ≠
      .error .runtimeError :=
  runCalls_ne_runtimeError .rootWithArray (by rfl)
    (by simp [Expr.All, Expr.AllElements, Expr.AllList, ParamTyped]) _ .fresh

end RdlExpressions

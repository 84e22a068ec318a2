import RdlExpressions.Syntax

/-!
# Evaluation: `get_value`

`getValue T e s` runs `e.get_value()` with the assigned attributes `s`, consulting the register
model `T` for hierarchical references. It returns the value and the attributes afterwards, which
differ from `s` only where `WidthCast.get_value` assigns its own `expr_eval_width`.

The operator subclasses keep their `get_value` bodies as the `apply` of their tag; the bodies of
`XorReduce` and `XnorReduce` are a `while` loop, modelled with an explicit iteration bound that
suffices for every nonnegative operand.
-/

namespace RdlExpressions

/-- `get_value` of a `_BinaryIntExpr` subclass before `trunc`, on its two `int()` operands. -/
def BinaryIntOp.apply (errCtx : ErrCtx) : BinaryIntOp -> Int -> Int -> Except Diag Int
  | .add, l, r => pure (l + r)
  | .sub, l, r => pure (l - r)
  | .mult, l, r => pure (l * r)
  | .div, l, r => if r = 0 then .error (.fatal "Division by zero" errCtx) else pure (l.fdiv r)
  | .mod, l, r => if r = 0 then .error (.fatal "Modulo by zero" errCtx) else pure (l.fmod r)
  | .bitwiseAnd, l, r => pure (Int.land l r)
  | .bitwiseOr, l, r => pure (Int.lor l r)
  | .bitwiseXor, l, r => pure (Int.xor l r)
  | .bitwiseXnor, l, r => pure (Int.xor l (Int.lnot r))

/-- `get_value` of a `_UnaryIntExpr` subclass before `trunc`; `~n` is `Int.lnot`. -/
def UnaryIntOp.apply : UnaryIntOp -> Int -> Int
  | .unaryPlus, n => n
  | .unaryMinus, n => -n
  | .bitwiseInvert, n => Int.lnot n

/-- `get_value` of a `_RelationalExpr` subclass. -/
def RelationalOp.apply : RelationalOp -> Int -> Int -> Bool
  | .eq, l, r => l == r
  | .neq, l, r => l != r
  | .lt, l, r => decide (l < r)
  | .gt, l, r => decide (l > r)
  | .leq, l, r => decide (l ≤ r)
  | .geq, l, r => decide (l ≥ r)

/-- `get_value` of a `_BoolExpr` subclass, on the `bool()` of its operands. -/
def BoolOp.apply : BoolOp -> Bool -> Bool -> Bool
  | .boolAnd, l, r => l && r
  | .boolOr, l, r => l || r

/-- `get_value` of an `_ExpShiftExpr` subclass before `trunc`. -/
def ExpShiftOp.apply : ExpShiftOp -> Int -> Int -> Except Diag Int
  | .exponent, l, r => intPow l r
  | .lShift, l, r => shiftLeft l r
  | .rShift, l, r => shiftRight l r

/-- `while(n): if(n & 1): v ^= 1; n >>= 1` of `XorReduce` and `XnorReduce`, cut off after `fuel`
iterations with `none`. -/
def parityLoop : Nat -> Int -> Nat -> Option Nat
  | 0, n, v => if n = 0 then some v else none
  | fuel + 1, n, v =>
      if n = 0 then some v
      else parityLoop fuel (n >>> (1 : Nat)) (if Int.land n 1 = 0 then v else v ^^^ 1)

/-- The loop run from accumulator `v`: `n.toNat + 1` iterations are enough for every `n ≥ 0`, and
no bound is enough for `n < 0` (`parityLoop_neg`), where the Python loop never ends. -/
def parityOf (n : Int) (v : Nat) : Except Diag Value :=
  match parityLoop (n.toNat + 1) n v with
  | some r => pure (.int r)
  | none => .error .diverges

/-- `get_value` of a `_ReductionExpr` subclass on its `int()` operand `n`, with `w` the node's
`expr_eval_width`. `BoolNot` never gets here: its `get_value` does not evaluate the operand. -/
def ReductionOp.apply (w : Option Int) : ReductionOp -> Int -> Except Diag Value
  | .andReduce, n => do
      let m ← trunc w (Int.lnot n)
      pure (.int (if m = 0 then 1 else 0))
  | .nandReduce, n => pure (.int (if n ≠ 0 then 1 else 0))
  | .orReduce, n => pure (.int (if n ≠ 0 then 1 else 0))
  | .norReduce, n => pure (.int (if n = 0 then 1 else 0))
  | .xorReduce, n => parityOf n 0
  | .xnorReduce, n => parityOf n 1
  | .boolNot, _ => pure (.bool false)

/-- The end of `WidthCast.get_value`: `expr_eval_width` becomes `cast_width`, a zero width is
fatal, and the operand is truncated to it. -/
def castTrunc (errCtx : ErrCtx) (castWidth : Option Int) (n : Int) : Except Diag Int :=
  if castWidth = some 0 then .error (.fatal "Cannot cast to width of zero" errCtx)
  else trunc castWidth n

/-- The range check of `InstRef.get_value`; its report reads `array_suffix`, unbound there, so it
raises `NameError`. -/
def checkIndexRange : List Value -> List Nat -> Except Diag Unit
  | [], _ => pure ()
  | _ :: _, [] => .error .indexError
  | v :: vs, d :: ds => do
      let out ← v.geDim d
      if out then .error (.nameError "array_suffix") else checkIndexRange vs ds

section

variable (T : ComponentTree)

mutual

/-- `get_value()`. -/
def getValue : Expr -> State -> Except Diag (Value × State)
  | .intLiteral _ val _, s => pure (.int val, s)
  | .builtinEnumLiteral _ val, s => pure (.enum val, s)
  | .stringLiteral _ val, s => pure (.str val, s)
  | .binaryInt o c l r, s => do
      let (lv, sl) ← getValue l (s.op 0)
      let a ← lv.toInt
      let (rv, sr) ← getValue r (s.op 1)
      let b ← rv.toInt
      let v ← o.apply c a b
      let v ← trunc s.slot.exprEvalWidth v
      pure (.int v, .mk s.slot [sl, sr])
  | .unaryInt o _ n, s => do
      let (nv, sn) ← getValue n (s.op 0)
      let a ← nv.toInt
      let v ← trunc s.slot.exprEvalWidth (o.apply a)
      pure (.int v, .mk s.slot [sn])
  | .relational o _ l r, s => do
      let (lv, sl) ← getValue l (s.op 0)
      let a ← lv.toInt
      let (rv, sr) ← getValue r (s.op 1)
      let b ← rv.toInt
      pure (.bool (o.apply a b), .mk s.slot [sl, sr])
  | .reduction .boolNot _ _, s => pure (.bool false, s)
  | .reduction o _ n, s => do
      let (nv, sn) ← getValue n (s.op 0)
      let a ← nv.toInt
      let v ← o.apply s.slot.exprEvalWidth a
      pure (v, .mk s.slot [sn])
  | .boolExpr o _ l r, s => do
      let (lv, sl) ← getValue l (s.op 0)
      let (rv, sr) ← getValue r (s.op 1)
      pure (.bool (o.apply lv.truthy rv.truthy), .mk s.slot [sl, sr])
  | .expShift o _ l r, s => do
      let (lv, sl) ← getValue l (s.op 0)
      let a ← lv.toInt
      let (rv, sr) ← getValue r (s.op 1)
      let b ← rv.toInt
      let v ← o.apply a b
      let v ← trunc s.slot.exprEvalWidth v
      pure (.int v, .mk s.slot [sl, sr])
  | .ternary _ i j k, s => do
      let (iv, si) ← getValue i (s.op 0)
      let (jv, sj) ← getValue j (s.op 1)
      let (kv, sk) ← getValue k (s.op 2)
      pure (if iv.truthy then jv else kv, .mk s.slot [si, sj, sk])
  | .widthCast c v wInt, s => do
      let (vv, sv) ← getValue v (s.op 0)
      let n ← vv.toInt
      let r ← castTrunc c (some wInt) n
      pure (.int r, .mk { s.slot with exprEvalWidth := some wInt } [sv])
  | .widthCastExpr c v _, s => do
      let (vv, sv) ← getValue v (s.op 0)
      let n ← vv.toInt
      let r ← castTrunc c s.slot.castWidth n
      pure (.int r, .mk { s.slot with exprEvalWidth := s.slot.castWidth } [sv, s.op 1])
  | .boolCast _ n, s => do
      let (nv, sn) ← getValue n (s.op 0)
      let a ← nv.toInt
      pure (.bool (a != 0), .mk s.slot [sn])
  | .parameterRef _ _ _ none, _ => .error .attributeError
  | .parameterRef _ _ _ (some x), s => do
      let (v, sx) ← getValue x (s.op 0)
      pure (v, .mk s.slot [sx])
  | .instRef refInst uplevelsToRef refElements, s => do
      let (path, segs) ← getValueRefElements refInst refElements s.ops
      pure (.componentRef uplevelsToRef path, .mk s.slot segs)
  | .assignmentCast _ v destType, s => do
      let (vv, sv) ← getValue v (s.op 0)
      pure (if destType = .bool then .bool vv.truthy else vv, .mk s.slot [sv])

/-- The loop of `InstRef.get_value` from the component `cur` over the remaining path segments,
with the states of those segments. -/
def getValueRefElements : Nat -> List (Token × List Expr) -> List State ->
    Except Diag (List (String × Option (List Value)) × List State)
  | _, [], _ => pure ([], [])
  | cur, (nameToken, arraySuffixes) :: rest, ss => do
      let name := nameToken.text
      let some c := T.getChildByName cur name | .error .runtimeError
      let seg := ss.headD State.fresh
      let (idxList, seg) ← if T.isAddressableArray c then do
            let (idx, sufStates) ← getValueSuffixes arraySuffixes seg.ops
            checkIndexRange idx (T.arrayDimensions c)
            pure (some idx, State.mk seg.slot sufStates)
          else pure (none, seg)
      let (path, restStates) ← getValueRefElements c rest ss.tail
      pure ((name, idxList) :: path, seg :: restStates)

/-- `[ suffix.get_value() for suffix in array_suffixes ]`. -/
def getValueSuffixes : List Expr -> List State -> Except Diag (List Value × List State)
  | [], _ => pure ([], [])
  | e :: es, ss => do
      let (v, s) ← getValue e (ss.headD State.fresh)
      let (vs, ss') ← getValueSuffixes es ss.tail
      pure (v :: vs, s :: ss')

end

theorem getValue_reduction {o : ReductionOp} (ho : o ≠ .boolNot) (c : ErrCtx) (n : Expr)
    (s : State) :
    getValue T (.reduction o c n) s = (do
      let (nv, sn) ← getValue T n (s.op 0)
      let a ← nv.toInt
      let v ← o.apply s.slot.exprEvalWidth a
      pure (v, .mk s.slot [sn])) := by
  cases o <;> first | exact absurd rfl ho | rfl

end

end RdlExpressions

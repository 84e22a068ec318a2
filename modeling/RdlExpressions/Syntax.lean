import RdlExpressions.Runtime

/-!
# Expression trees and their mutable attributes

An `Expr` is one node class of `core/expressions.py` together with the operands the constructor
stores in `self.op` and the constructor arguments the node keeps. Classes that share a base class
and differ only in `get_value` (`Add`, `Sub`, ... under `_BinaryIntExpr`) share one constructor,
tagged with the subclass.

The attributes that `__init__` leaves unset and the width passes or `get_value` assign later
(`expr_eval_width` of every node, `cast_width` of a width cast with a width expression) are kept
apart from the tree, in a `State` laid out like it: the state of a node holds its own `Slot` and
the states of its operands in operand order. This keeps every pass structurally recursive on the
immutable tree while it threads the attributes it changes.
-/

namespace RdlExpressions

/-- An Antlr `ID` token of a hierarchical reference: `getText()` and its location. -/
structure Token where
  errCtx : ErrCtx
  text : String
deriving DecidableEq, Repr

/-- Subclasses of `_BinaryIntExpr`. -/
inductive BinaryIntOp where
  | add
  | sub
  | mult
  | div
  | mod
  | bitwiseAnd
  | bitwiseOr
  | bitwiseXor
  | bitwiseXnor
deriving DecidableEq, Repr

/-- Subclasses of `_UnaryIntExpr`. -/
inductive UnaryIntOp where
  | unaryPlus
  | unaryMinus
  | bitwiseInvert
deriving DecidableEq, Repr

/-- Subclasses of `_RelationalExpr`. -/
inductive RelationalOp where
  | eq
  | neq
  | lt
  | gt
  | leq
  | geq
deriving DecidableEq, Repr

/-- Subclasses of `_ReductionExpr`. -/
inductive ReductionOp where
  | andReduce
  | nandReduce
  | orReduce
  | norReduce
  | xorReduce
  | xnorReduce
  | boolNot
deriving DecidableEq, Repr

/-- Subclasses of `_BoolExpr`. -/
inductive BoolOp where
  | boolAnd
  | boolOr
deriving DecidableEq, Repr

/-- Subclasses of `_ExpShiftExpr`. -/
inductive ExpShiftOp where
  | exponent
  | lShift
  | rShift
deriving DecidableEq, Repr

/-- Expression nodes. A `widthCast` has a fixed `w_int`, a `widthCastExpr` a width expression; a
`parameterRef` carries the parameter's `name`, `param_type` and bound `expr`. -/
inductive Expr where
  | intLiteral (errCtx : ErrCtx) (val width : Int)
  | builtinEnumLiteral (errCtx : ErrCtx) (val : EnumMember)
  | stringLiteral (errCtx : ErrCtx) (val : String)
  | binaryInt (o : BinaryIntOp) (errCtx : ErrCtx) (l r : Expr)
  | unaryInt (o : UnaryIntOp) (errCtx : ErrCtx) (n : Expr)
  | relational (o : RelationalOp) (errCtx : ErrCtx) (l r : Expr)
  | reduction (o : ReductionOp) (errCtx : ErrCtx) (n : Expr)
  | boolExpr (o : BoolOp) (errCtx : ErrCtx) (l r : Expr)
  | expShift (o : ExpShiftOp) (errCtx : ErrCtx) (l r : Expr)
  | ternary (errCtx : ErrCtx) (i j k : Expr)
  | widthCast (errCtx : ErrCtx) (v : Expr) (wInt : Int)
  | widthCastExpr (errCtx : ErrCtx) (v wExpr : Expr)
  | boolCast (errCtx : ErrCtx) (n : Expr)
  | parameterRef (errCtx : ErrCtx) (name : String) (paramType : RdlType) (expr : Option Expr)
  | instRef (refInst uplevelsToRef : Nat) (refElements : List (Token × List Expr))
  | assignmentCast (errCtx : ErrCtx) (v : Expr) (destType : RdlType)
deriving Repr

/-- The attributes of one node that are assigned after construction. -/
structure Slot where
  exprEvalWidth : Option Int := none
  castWidth : Option Int := none
deriving DecidableEq, Repr

/-- The assigned attributes of a tree: a slot per node and the states of its operands in the order
of `self.op`. -/
inductive State where
  | mk (slot : Slot) (ops : List State)
deriving Repr

/-- The state of a freshly constructed tree: nothing assigned anywhere. -/
def State.fresh : State := .mk {} []

instance : Inhabited State := ⟨State.fresh⟩

def State.slot : State -> Slot
  | .mk slot _ => slot

def State.ops : State -> List State
  | .mk _ ops => ops

/-- The state of operand `i`; operands a state does not record yet are fresh. -/
def State.op (s : State) (i : Nat) : State :=
  s.ops.getD i State.fresh

@[simp] theorem State.slot_mk (slot : Slot) (ops : List State) :
    (State.mk slot ops).slot = slot := rfl

@[simp] theorem State.ops_mk (slot : Slot) (ops : List State) :
    (State.mk slot ops).ops = ops := rfl

@[simp] theorem State.op_mk_zero (slot : Slot) (a : State) (ops : List State) :
    (State.mk slot (a :: ops)).op 0 = a := rfl

@[simp] theorem State.op_mk_one (slot : Slot) (a b : State) (ops : List State) :
    (State.mk slot (a :: b :: ops)).op 1 = b := rfl

@[simp] theorem State.fresh_op (i : Nat) : State.fresh.op i = State.fresh := rfl

@[simp] theorem State.fresh_ops : State.fresh.ops = [] := rfl

@[simp] theorem State.fresh_castWidth : State.fresh.slot.castWidth = none := rfl

@[simp] theorem State.op_mk_two (slot : Slot) (a b c : State) (ops : List State) :
    (State.mk slot (a :: b :: c :: ops)).op 2 = c := rfl

/-- The part of the register model an `InstRef` consults; components are opaque handles. -/
structure ComponentTree where
  getChildByName : Nat -> String -> Option Nat
  isAddressable : Nat -> Bool
  isArray : Nat -> Bool
  arrayDimensions : Nat -> List Nat
  componentClass : Nat -> Nat

/-- `issubclass(type(c), comp.AddressableComponent) and c.is_array`. -/
def ComponentTree.isAddressableArray (T : ComponentTree) (c : Nat) : Bool :=
  T.isAddressable c && T.isArray c

/-- A register model whose root has no children, in which no hierarchical reference resolves. -/
def ComponentTree.leaf : ComponentTree :=
  ⟨fun _ _ => none, fun _ => false, fun _ => false, fun _ => [], fun _ => 0⟩

end RdlExpressions

import Mathlib.Data.Int.Bitwise

/-!
# Runtime values, type tokens and diagnostics

`get_value` returns plain Python objects: an `int`, a `bool`, a `str`, a member of one of the
builtin RDL enumerations, or an `rdltypes.ComponentRef`. `predict_type` returns the Python class
such a value will have. This module fixes both as closed Lean types, gives the diagnostics and
Python exceptions an evaluation can stop with, and models the Python builtins the expression
nodes apply to values: `int()`, `bool()`, `>=`, `<<`, `>>`, `**`, floor division and the mask
of `Expr.trunc`.
-/

namespace RdlExpressions

/-- Handle of the Antlr context or token a diagnostic is reported against (`err_ctx`). -/
abbrev ErrCtx := Nat

/-- The builtin RDL enumerations a `BuiltinEnumLiteral` can hold. -/
inductive BuiltinEnum where
  | accessType
  | onReadType
  | onWriteType
  | addressingType
  | precedenceType
deriving DecidableEq, Repr

/-- A member of a builtin enumeration, named as in `rdltypes`. -/
structure EnumMember where
  kind : BuiltinEnum
  name : String
deriving DecidableEq, Repr

/-- The type tokens of `predict_type`: `int`, `bool`, `str`, an enumeration, `Array`, or the class
of a component, an opaque tag. -/
inductive RdlType where
  | int
  | bool
  | str
  | enum (kind : BuiltinEnum)
  | array
  | component (cls : Nat)
deriving DecidableEq, Repr

/-- `t in [int, bool]`, the numeric check every operator applies to its operand types. -/
def RdlType.isNumeric : RdlType -> Bool
  | .int => true
  | .bool => true
  | _ => false

/-- The objects `get_value` returns. A `componentRef` is `rdltypes.ComponentRef(uplevels, path)`,
whose path holds one `(name, idx_list)` pair per segment. -/
inductive Value where
  | int (n : Int)
  | bool (b : Bool)
  | str (s : String)
  | enum (m : EnumMember)
  | componentRef (uplevels : Nat) (path : List (String × Option (List Value)))
deriving Repr

/-- Ways an evaluation stops: `msg.fatal`, a Python exception, or a loop that never ends. -/
inductive Diag where
  | fatal (message : String) (errCtx : ErrCtx)
  | typeError
  | valueError
  | zeroDivisionError
  | runtimeError
  | nameError (name : String)
  | indexError
  | attributeError
  | notImplementedError
  | diverges
deriving DecidableEq, Repr

theorem bind_eq_ok {ε α β : Type} {x : Except ε α} {f : α -> Except ε β} {b : β} :
    x >>= f = .ok b ↔ ∃ a, x = .ok a ∧ f a = .ok b := by
  cases x <;> simp [bind, Except.bind]

theorem bind_eq_of_ok {ε α β : Type} {x : Except ε α} {f : α -> Except ε β} {a : α}
    {y : Except ε β} (hx : x = .ok a) (hf : f a = y) : x >>= f = y := by
  subst hx
  exact hf

@[simp] theorem pure_eq_ok {ε α : Type} {a b : α} : (pure a : Except ε α) = .ok b ↔ a = b := by
  simp [pure, Except.pure]

/-!
## Computations related step by step

Two evaluations of one tree, by the code and by a specification, are computed by recursions of
the same shape. `ExceptRel R` relates their outcomes: both stop with the same diagnostic, or both
succeed with results related by `R`; `ExceptRel.bind` carries this through one `do` step.
-/

def ExceptRel {α β : Type} (R : α -> β -> Prop) : Except Diag α -> Except Diag β -> Prop
  | .ok a, .ok b => R a b
  | .error d, .error d' => d = d'
  | _, _ => False

theorem ExceptRel.bind {α β γ δ : Type} {R : α -> β -> Prop} {R' : γ -> δ -> Prop}
    {x : Except Diag α} {y : Except Diag β} {f : α -> Except Diag γ} {g : β -> Except Diag δ}
    (h : ExceptRel R x y) (hf : ∀ a b, x = .ok a -> R a b -> ExceptRel R' (f a) (g b)) :
    ExceptRel R' (x >>= f) (y >>= g) := by
  cases x with
  | error d =>
      cases y with
      | error _ => exact h
      | ok _ => exact h.elim
  | ok a =>
      cases y with
      | error _ => exact h.elim
      | ok b => exact hf a b rfl h

theorem ExceptRel.refl {α : Type} (x : Except Diag α) : ExceptRel (· = ·) x x := by
  cases x <;> rfl

theorem ExceptRel.bind_eq {α γ δ : Type} {R : γ -> δ -> Prop} {x x' : Except Diag α}
    {f : α -> Except Diag γ} {g : α -> Except Diag δ} (hx : x = x')
    (hf : ∀ a, x = .ok a -> ExceptRel R (f a) (g a)) : ExceptRel R (x >>= f) (x' >>= g) :=
  hx ▸ (ExceptRel.refl x).bind fun a _ hx h => h ▸ hf a hx

theorem ExceptRel.bind_same {α γ δ : Type} {R : γ -> δ -> Prop} {x : Except Diag α}
    {f : α -> Except Diag γ} {g : α -> Except Diag δ}
    (hf : ∀ a, x = .ok a -> ExceptRel R (f a) (g a)) : ExceptRel R (x >>= f) (x >>= g) :=
  ExceptRel.bind_eq rfl hf

theorem ExceptRel.ok_left {α β : Type} {R : α -> β -> Prop} {a : α} {y : Except Diag β}
    (h : ExceptRel R (.ok a) y) : ∃ b, y = .ok b ∧ R a b := by
  cases y with
  | ok b => exact ⟨b, rfl, h⟩
  | error _ => exact h.elim

theorem ExceptRel.ok_right {α β : Type} {R : α -> β -> Prop} {x : Except Diag α} {b : β}
    (h : ExceptRel R x (.ok b)) : ∃ a, x = .ok a ∧ R a b := by
  cases x with
  | ok a => exact ⟨a, rfl, h⟩
  | error _ => exact h.elim

theorem ExceptRel.imp {α β : Type} {R R' : α -> β -> Prop} {x : Except Diag α}
    {y : Except Diag β} (h : ExceptRel R x y) (hR : ∀ a b, R a b -> R' a b) : ExceptRel R' x y := by
  cases x <;> cases y
  all_goals first | exact h | exact hR _ _ h

theorem exceptRel_fst_iff {α σ : Type} {x : Except Diag (α × σ)} {y : Except Diag α} :
    ExceptRel (fun p v => p.1 = v) x y ↔ x.map Prod.fst = y := by
  cases x <;> cases y <;> simp [ExceptRel, Except.map]

theorem ExceptRel.bind_right {α β δ : Type} {R : α -> δ -> Prop} {x : Except Diag α}
    {y : Except Diag β} {g : β -> Except Diag δ} {b : β} (hy : y = .ok b) (h : ExceptRel R x (g b)) :
    ExceptRel R x (y >>= g) := by
  subst hy
  exact h

theorem exceptRel_iff_map_eq {α β σ : Type} {f : β -> α} {x : Except Diag (α × σ)}
    {y : Except Diag β} : ExceptRel (fun p b => p.1 = f b) x y ↔ x.map Prod.fst = y.map f := by
  cases x <;> cases y <;> simp [ExceptRel, Except.map]

/-!
## Python's `int()` on strings

`int(s)` accepts surrounding whitespace, one sign and decimal digits, optionally separated by
single underscores. Whitespace is the ASCII whitespace of `Char.isWhitespace` and digits are ASCII
digits; the other Unicode whitespace and digits Python also accepts are left out.
-/

/-- Decimal digits after the first, each optionally preceded by one underscore. -/
def digitsAux : Nat -> List Char -> Option Nat
  | acc, [] => some acc
  | acc, '_' :: c :: cs => if c.isDigit then digitsAux (10 * acc + (c.toNat - 48)) cs else none
  | acc, c :: cs => if c.isDigit then digitsAux (10 * acc + (c.toNat - 48)) cs else none

/-- A nonempty run of decimal digits. -/
def digitsValue : List Char -> Option Nat
  | c :: cs => if c.isDigit then digitsAux (c.toNat - 48) cs else none
  | [] => none

/-- Drop leading and trailing whitespace. -/
def stripWhitespace (cs : List Char) : List Char :=
  ((cs.dropWhile Char.isWhitespace).reverse.dropWhile Char.isWhitespace).reverse

/-- `int(s)` for a string `s`, `none` where Python raises `ValueError`. -/
def parseInt (s : String) : Option Int :=
  match stripWhitespace s.data with
  | '-' :: ds => (digitsValue ds).map fun n => -(n : Int)
  | '+' :: ds => (digitsValue ds).map Int.ofNat
  | ds => (digitsValue ds).map Int.ofNat

/-!
## Builtins on values
-/

/-- `int(v)`. The builtin enumerations are plain `Enum` classes, which `int` rejects. -/
def Value.toInt : Value -> Except Diag Int
  | .int n => pure n
  | .bool b => pure (if b then 1 else 0)
  | .str s =>
      match parseInt s with
      | some n => pure n
      | none => .error .valueError
  | .enum _ => .error .typeError
  | .componentRef _ _ => .error .typeError

/-- `bool(v)`: nonzero integers, `True`, nonempty strings and every other object are true. -/
def Value.truthy : Value -> Bool
  | .int n => n != 0
  | .bool b => b
  | .str s => !s.isEmpty
  | .enum _ => true
  | .componentRef _ _ => true

/-- A width read from a cast-width value: `max`, `==` and `<<` treat `bool` as `int` and reject
every other kind. -/
def Value.toWidth : Value -> Except Diag Int
  | .int n => pure n
  | .bool b => pure (if b then 1 else 0)
  | _ => .error .typeError

/-- `idx >= dim` for an evaluated array index and a declared dimension. -/
def Value.geDim : Value -> Nat -> Except Diag Bool
  | .int n, d => pure (decide ((d : Int) ≤ n))
  | .bool b, d => pure (decide (d ≤ if b then 1 else 0))
  | _, _ => .error .typeError

/-- Whether a value is an instance of the class `predict_type` names; `int` and `bool` are
interchangeable, and any `ComponentRef` stands for a component class. -/
def Value.HasType : Value -> RdlType -> Prop
  | .int _, t => t.isNumeric
  | .bool _, t => t.isNumeric
  | .str _, t => t = .str
  | .enum m, t => t = .enum m.kind
  | .componentRef _ _, .component _ => True
  | .componentRef _ _, _ => False

/-- `Expr.trunc`: `v & ((1 << expr_eval_width) - 1)`. An unset width fails in `1 << None`, a
negative one in the shift. -/
def trunc (w : Option Int) (v : Int) : Except Diag Int :=
  match w with
  | none => .error .typeError
  | some w => if w < 0 then .error .valueError else pure (Int.land v ((1 <<< w) - 1))

/-- `l << r`. -/
def shiftLeft (l r : Int) : Except Diag Int :=
  if r < 0 then .error .valueError else pure (l <<< r)

/-- `l >> r`. -/
def shiftRight (l r : Int) : Except Diag Int :=
  if r < 0 then .error .valueError else pure (l >>> r)

/-- `int(l ** r)`; a negative exponent gives a float power, truncated toward zero. Operands beyond
the double range are not modelled. -/
def intPow (l r : Int) : Except Diag Int :=
  if 0 ≤ r then pure (l ^ r.toNat)
  else if l = 0 then .error .zeroDivisionError
  else if l = 1 then pure 1
  else if l = -1 then pure (if r % 2 = 0 then 1 else -1)
  else pure 0

/-- `is_type_compatible(t1, t2)`. -/
def isTypeCompatible (t1 t2 : RdlType) : Except Diag Bool :=
  if t1.isNumeric && t2.isNumeric then pure true
  else if t1 = .array && t2 = .array then .error .notImplementedError
  else pure (t1 == t2)

end RdlExpressions

import RdlExpressions.Width
import RdlExpressions.Bits
import RdlExpressions.Soundness
import Mathlib.Data.Int.ModEq

/-!
# Truncating after every operator

Every integer operator truncates its result to its context's `expr_eval_width`. On the
operators whose low bits depend only on the low bits of their operands (`+ - *`, the bitwise
operators, unary `+ - ~`, `<<` and `**` with a nonnegative exponent) this gives the same value as
evaluating the whole tree in unbounded integers and truncating once at the end. A negative
exponent breaks this: `int(l ** r)` of a truncated base is not the truncation of the unbounded
power.
-/

namespace RdlExpressions

/-!
# Operators that respect the low bits
-/

section

variable {m : ℤ}

theorem lnot_modEq {a b : ℤ} (h : a ≡ b [ZMOD m]) : Int.lnot a ≡ Int.lnot b [ZMOD m] := by
  simpa only [lnot_eq_neg_sub_one] using h.neg.sub_right 1

end

theorem BinaryIntOp.apply_emod_two_pow {o : BinaryIntOp} (hdiv : o ≠ .div) (hmod : o ≠ .mod)
    (c : ErrCtx) (n : ℕ) (a b : ℤ) :
    (o.apply c (a % 2 ^ n) (b % 2 ^ n)).map (· % 2 ^ n) = (o.apply c a b).map (· % 2 ^ n) := by
  have ha : a % 2 ^ n ≡ a [ZMOD 2 ^ n] := Int.mod_modEq a _
  have hb : b % 2 ^ n ≡ b [ZMOD 2 ^ n] := Int.mod_modEq b _
  have bitwise (f : Bool -> Bool -> Bool) (b' b'' : ℤ) (h : b' ≡ b'' [ZMOD 2 ^ n]) :
      Int.bitwise f (a % 2 ^ n) b' % 2 ^ n = Int.bitwise f a b'' % 2 ^ n :=
    bitwise_emod_two_pow_congr f n ha h
  cases o with
  | add => exact congrArg Except.ok (ha.add hb)
  | sub => exact congrArg Except.ok (ha.sub hb)
  | mult => exact congrArg Except.ok (ha.mul hb)
  | div => exact absurd rfl hdiv
  | mod => exact absurd rfl hmod
  | bitwiseAnd => exact congrArg Except.ok (by simpa only [Int.bitwise_and] using bitwise and _ _ hb)
  | bitwiseOr => exact congrArg Except.ok (by simpa only [Int.bitwise_or] using bitwise or _ _ hb)
  | bitwiseXor => exact congrArg Except.ok (by simpa only [Int.bitwise_xor] using bitwise xor _ _ hb)
  | bitwiseXnor =>
      exact congrArg Except.ok
        (by simpa only [Int.bitwise_xor] using bitwise xor _ _ (lnot_modEq hb))

theorem UnaryIntOp.apply_emod_two_pow (o : UnaryIntOp) (n : ℕ) (a : ℤ) :
    o.apply (a % 2 ^ n) % 2 ^ n = o.apply a % 2 ^ n := by
  have ha : a % 2 ^ n ≡ a [ZMOD 2 ^ n] := Int.mod_modEq a _
  cases o with
  | unaryPlus => exact ha
  | unaryMinus => exact ha.neg
  | bitwiseInvert => exact lnot_modEq ha

theorem intPow_of_nonneg (l : ℤ) {r : ℤ} (hr : 0 ≤ r) : intPow l r = pure (l ^ r.toNat) := by
  simp [intPow, hr]

theorem ExpShiftOp.apply_emod_two_pow {o : ExpShiftOp} (hshr : o ≠ .rShift) (n : ℕ) (a b : ℤ)
    (hexp : o = .exponent -> 0 ≤ b) :
    (o.apply (a % 2 ^ n) b).map (· % 2 ^ n) = (o.apply a b).map (· % 2 ^ n) := by
  have ha : a % 2 ^ n ≡ a [ZMOD 2 ^ n] := Int.mod_modEq a _
  cases o with
  | exponent =>
      simp only [ExpShiftOp.apply, intPow_of_nonneg _ (hexp rfl)]
      exact congrArg Except.ok (ha.pow _)
  | lShift =>
      simp only [ExpShiftOp.apply, shiftLeft]
      split
      · rfl
      · lift b to ℕ using (by omega)
        simp only [Int.shiftLeft_eq_mul_pow]
        exact congrArg Except.ok (ha.mul_right _)
  | rShift => exact absurd rfl hshr

/-!
# The arithmetic fragment and its unbounded value
-/

/-- The trees built from literals that fit their width, the operators that respect the low bits,
`<<` and `**` with any right operand, and casts to a fixed positive width. -/
inductive Fragment : Expr -> Prop where
  | intLiteral (errCtx : ErrCtx) {val width : ℤ} :
      0 ≤ val -> val < 2 ^ width.toNat -> Fragment (.intLiteral errCtx val width)
  | binaryInt {o : BinaryIntOp} (errCtx : ErrCtx) {l r : Expr} :
      o ≠ .div -> o ≠ .mod -> Fragment l -> Fragment r -> Fragment (.binaryInt o errCtx l r)
  | unaryInt (o : UnaryIntOp) (errCtx : ErrCtx) {n : Expr} :
      Fragment n -> Fragment (.unaryInt o errCtx n)
  | expShift {o : ExpShiftOp} (errCtx : ErrCtx) {l : Expr} (r : Expr) :
      o ≠ .rShift -> Fragment l -> Fragment (.expShift o errCtx l r)
  | widthCast (errCtx : ErrCtx) {v : Expr} {wInt : ℤ} :
      1 ≤ wInt -> Fragment v -> Fragment (.widthCast errCtx v wInt)

section

variable (T : ComponentTree)

/-- The value of a fragment tree in unbounded integers; a width cast keeps its low `c` bits, and the
right operand of `<<` and `**` gives its own `get_value()`. -/
def unboundedValue : Expr -> State -> Except Diag Int
  | .intLiteral _ val _, _ => pure val
  | .binaryInt o c l r, s => do
      let a ← unboundedValue l (s.op 0)
      let b ← unboundedValue r (s.op 1)
      o.apply c a b
  | .unaryInt o _ n, s => do
      let a ← unboundedValue n (s.op 0)
      pure (o.apply a)
  | .expShift o _ l r, s => do
      let a ← unboundedValue l (s.op 0)
      let (rv, _) ← getValue T r (s.op 1)
      let b ← rv.toInt
      o.apply a b
  | .widthCast _ v wInt, s => do
      let a ← unboundedValue v (s.op 0)
      pure (a % 2 ^ wInt.toNat)
  | _, _ => .error .typeError

/-- Every `**` of the tree has a right operand whose `get_value()` in the attributes `s` is a
nonnegative integer. -/
def NonnegExponents : Expr -> State -> Prop
  | .binaryInt _ _ l r, s => NonnegExponents l (s.op 0) ∧ NonnegExponents r (s.op 1)
  | .unaryInt _ _ n, s => NonnegExponents n (s.op 0)
  | .expShift o _ l r, s => NonnegExponents l (s.op 0) ∧
      (o = .exponent -> ∀ v s' b, getValue T r (s.op 1) = .ok (v, s') -> v.toInt = .ok b -> 0 ≤ b)
  | .widthCast _ v _, s => NonnegExponents v (s.op 0)
  | _, _ => True

def TruncOf (n : ℕ) (p : Value × State) (z : ℤ) : Prop :=
  p.1 = .int (z % 2 ^ n)

theorem exceptRel_trunc {W : ℤ} (hW : 0 ≤ W) {x y : Except Diag ℤ}
    (h : x.map (· % 2 ^ W.toNat) = y.map (· % 2 ^ W.toNat)) (st : State) :
    ExceptRel (TruncOf W.toNat) (do let v ← x; let v ← trunc (some W) v; pure (.int v, st)) y := by
  cases x <;> cases y <;> simp only [Except.map, Except.ok.injEq, Except.error.injEq,
    reduceCtorEq] at h <;> simp [ExceptRel, TruncOf, trunc_of_nonneg hW, h]

theorem emod_two_pow_emod_of_le (z : ℤ) {k n : ℕ} (h : k ≤ n) : z % 2 ^ k % 2 ^ n = z % 2 ^ k :=
  Int.emod_eq_of_lt (Int.emod_nonneg _ (by positivity))
    (lt_of_lt_of_le (Int.emod_lt_of_pos _ (by positivity)) (pow_le_pow_right₀ (by norm_num) h))

theorem exceptRel_getValue_unboundedValue {t : Expr} (ht : Fragment t) :
    ∀ {s s₁ s' : State} {m W : ℤ}, getMinEvalWidth T t s = .ok (m, s₁) -> max 1 m ≤ W ->
      widthPass T (some W) t s₁ = .ok s' -> NonnegExponents T t s' ->
      ExceptRel (TruncOf W.toNat) (getValue T t s') (unboundedValue T t s') := by
  induction ht with
  | @intLiteral c val width h0 hlt =>
      intro s s₁ s' m W hm hW hp _
      obtain ⟨rfl, rfl⟩ := Prod.mk.inj (Except.ok.inj hm)
      obtain rfl := Except.ok.inj hp
      show Value.int _ = .int _
      have hle : (2 : ℤ) ^ width.toNat ≤ 2 ^ W.toNat :=
        pow_le_pow_right₀ (by norm_num) (Int.toNat_le_toNat (by omega))
      rw [Int.emod_eq_of_lt h0 (by omega)]
  | binaryInt c hdiv hmod _ _ ihl ihr =>
      intro s s₁ s' m W hm hW hp hne
      obtain ⟨⟨wl, sl⟩, hwl, hm⟩ := bind_eq_ok.mp hm
      obtain ⟨⟨wr, sr⟩, hwr, hm⟩ := bind_eq_ok.mp hm
      obtain ⟨rfl, rfl⟩ := Prod.mk.inj (Except.ok.inj hm)
      obtain ⟨sl', hl, sr', hr, rfl⟩ := defaultPropagate_two_eq_ok.mp hp
      refine (ihl hwl (by omega) hl hne.1).bind ?_
      rintro ⟨lv, _⟩ a - (rfl : lv = _)
      refine (ihr hwr (by omega) hr hne.2).bind ?_
      rintro ⟨rv, _⟩ b - (rfl : rv = _)
      exact exceptRel_trunc (by omega) (BinaryIntOp.apply_emod_two_pow hdiv hmod c _ a b) _
  | unaryInt o c _ ih =>
      intro s s₁ s' m W hm hW hp hne
      obtain ⟨⟨wn, sn⟩, hwn, hm⟩ := bind_eq_ok.mp hm
      obtain ⟨rfl, rfl⟩ := Prod.mk.inj (Except.ok.inj hm)
      obtain ⟨sn', hn, rfl⟩ := defaultPropagate_one_eq_ok.mp hp
      refine (ih hwn hW hn hne).bind ?_
      rintro ⟨nv, _⟩ a - (rfl : nv = _)
      exact @exceptRel_trunc W (by omega) (pure (o.apply (a % 2 ^ W.toNat)))
        (pure (o.apply a)) (congrArg Except.ok (o.apply_emod_two_pow _ a)) _
  | expShift c r hshr _ ih =>
      intro s s₁ s' m W hm hW hp hne
      obtain ⟨⟨wl, sl⟩, hwl, hm⟩ := bind_eq_ok.mp hm
      obtain ⟨rfl, rfl⟩ := Prod.mk.inj (Except.ok.inj hm)
      obtain ⟨sl', hl, hp⟩ := bind_eq_ok.mp hp
      obtain ⟨sr', -, hp⟩ := bind_eq_ok.mp hp
      obtain rfl := Except.ok.inj hp
      refine (ih hwl hW hl hne.1).bind ?_
      rintro ⟨lv, _⟩ a - (rfl : lv = _)
      refine (ExceptRel.refl (getValue T r sr')).bind fun ⟨rv, s₂⟩ _ hrv h => ?_
      subst h
      refine (ExceptRel.refl rv.toInt).bind fun b _ hb h => ?_
      subst h
      simp only [Value.toInt, pure_bind]
      exact exceptRel_trunc (by omega) (ExpShiftOp.apply_emod_two_pow hshr _ a b
        fun hexp => hne.2 hexp rv s₂ b hrv hb) _
  | @widthCast c v wInt hc _ ih =>
      intro s s₁ s' m W hm hW hp hne
      obtain ⟨rfl, rfl⟩ := Prod.mk.inj (Except.ok.inj hm)
      obtain ⟨wv, sv, hwv, sv', hv, rfl⟩ := resolveCastValue_eq_ok.mp hp
      refine (ih hwv (by omega) hv hne).bind ?_
      rintro ⟨vv, _⟩ a - (rfl : vv = _)
      have hwc : wInt.toNat ≤ (max wInt wv).toNat := Int.toNat_le_toNat (le_max_left _ _)
      simp only [Value.toInt, castTrunc, trunc_of_nonneg (by omega : (0 : ℤ) ≤ wInt),
        if_neg (by simp; omega : ¬(some wInt = some 0)), pure_bind]
      show Value.int _ = .int _
      rw [Int.emod_emod_of_dvd _ (pow_dvd_pow 2 hwc),
        emod_two_pow_emod_of_le _ (Int.toNat_le_toNat (by omega))]

/-- On the fragment with nonnegative exponents, truncating after each operator is truncating once:
after `propagate_eval_width(W)`, `get_value()` is the unbounded value modulo `2 ^ W`. -/
theorem getValue_eq_unboundedValue_emod {t : Expr} (ht : Fragment t) {s s₁ s' : State}
    {m W : ℤ} (hm : getMinEvalWidth T t s = .ok (m, s₁)) (hW : max 1 m ≤ W)
    (hp : propagateEvalWidth T W t s₁ = .ok s') (hne : NonnegExponents T t s') :
    (getValue T t s').map Prod.fst =
      (unboundedValue T t s').map fun z => .int (z % 2 ^ W.toNat) :=
  exceptRel_iff_map_eq.mp (exceptRel_getValue_unboundedValue T ht hm hW hp hne)

/-- `(4'd15 + 4'd3) ** 2'd2` at width 4: `18 ** 2` truncates to 4, and so does `2 ** 2`. -/
theorem getValue_eq_unboundedValue_emod_square :
    ∃ s₁ s', getMinEvalWidth .leaf (.expShift .exponent 0
        (.binaryInt .add 0 (.intLiteral 0 15 4) (.intLiteral 0 3 4)) (.intLiteral 0 2 2))
        .fresh = .ok (4, s₁) ∧
      propagateEvalWidth .leaf 4 (.expShift .exponent 0
        (.binaryInt .add 0 (.intLiteral 0 15 4) (.intLiteral 0 3 4)) (.intLiteral 0 2 2))
        s₁ = .ok s' ∧
      (getValue .leaf (.expShift .exponent 0
        (.binaryInt .add 0 (.intLiteral 0 15 4) (.intLiteral 0 3 4)) (.intLiteral 0 2 2)) s').map
          Prod.fst =
        (unboundedValue .leaf (.expShift .exponent 0
          (.binaryInt .add 0 (.intLiteral 0 15 4) (.intLiteral 0 3 4)) (.intLiteral 0 2 2))
          s').map fun z => .int (z % 2 ^ (4 : ℤ).toNat) :=
  ⟨_, _, rfl, rfl, @getValue_eq_unboundedValue_emod .leaf _
    (.expShift 0 _ (by decide) (.binaryInt 0 (by decide) (by decide)
      (.intLiteral 0 (by decide) (by decide)) (.intLiteral 0 (by decide) (by decide))))
    .fresh _ _ 4 4 rfl (by decide) rfl
    ⟨⟨trivial, trivial⟩, fun _ v _ b hv hb => by cases hv; cases hb; decide⟩⟩

end

/-- `(4'd15 + 4'd2) ** -1` at width 4 is in the fragment but for its exponent: the base truncates
to 1 and `int(1 ** -1)` is 1, while the unbounded value `int(17 ** -1)` is 0. -/
theorem negative_exponent_truncation_differs :
    Fragment (.expShift .exponent 0 (.binaryInt .add 0 (.intLiteral 0 15 4) (.intLiteral 0 2 4))
      (.intLiteral 0 (-1) 1)) ∧
    (do
      let t : Expr := .expShift .exponent 0
        (.binaryInt .add 0 (.intLiteral 0 15 4) (.intLiteral 0 2 4)) (.intLiteral 0 (-1) 1)
      let (m, s₁) ← getMinEvalWidth .leaf t .fresh
      let s' ← propagateEvalWidth .leaf 4 t s₁
      let v ← (getValue .leaf t s').map Prod.fst
      let z ← unboundedValue .leaf t s'
      pure (m, v, z % 2 ^ 4)) = .ok (4, .int 1, 0) :=
  ⟨.expShift 0 _ (by decide) (.binaryInt 0 (by decide) (by decide)
    (.intLiteral 0 (by decide) (by decide)) (.intLiteral 0 (by decide) (by decide))), rfl⟩

/-!
# Typed trees

A tree that `predict_type` accepts, with nonnegative literals and parameters bound to expressions
of a compatible type, evaluates only to nonnegative values, so every exponent is nonnegative and
truncating after every operator is truncating once with no condition on the exponents.
-/

section

variable (T : ComponentTree)

theorem nonnegExponents_of_typed {t : Expr} (ht : Fragment t) :
    ∀ {τ : RdlType} {s : State}, predictType T t .fresh = .ok τ -> t.All LiteralNonneg ->
      t.All (ParamTyped T) -> s.CastNonneg -> NonnegExponents T t s := by
  induction ht with
  | intLiteral => exact fun _ _ _ _ => trivial
  | binaryInt _ _ _ _ _ ihl ihr =>
      intro τ s h hlit hpar hs
      obtain ⟨_, hl, h⟩ := bind_eq_ok.mp h
      obtain ⟨_, -, h⟩ := bind_eq_ok.mp h
      obtain ⟨_, hr, -⟩ := bind_eq_ok.mp h
      exact ⟨ihl hl hlit.2.1 hpar.2.1 (hs.op 0), ihr hr hlit.2.2 hpar.2.2 (hs.op 1)⟩
  | unaryInt _ _ _ ih | widthCast _ _ _ ih =>
      intro τ s h hlit hpar hs
      obtain ⟨_, hn, -⟩ := bind_eq_ok.mp h
      exact ih hn hlit.2 hpar.2 (hs.op 0)
  | expShift _ r _ _ ih =>
      intro τ s h hlit hpar hs
      obtain ⟨_, hl, h⟩ := bind_eq_ok.mp h
      obtain ⟨_, -, h⟩ := bind_eq_ok.mp h
      obtain ⟨tr, hr, h⟩ := bind_eq_ok.mp h
      obtain ⟨_, htr, -⟩ := bind_eq_ok.mp h
      refine ⟨ih hl hlit.2.1 hpar.2.1 (hs.op 0), fun _ v _ b hv hb => ?_⟩
      obtain ⟨hty, hn, -⟩ := ((terminates_of_typed r hr hlit.2.2 hpar.2.2).value (hs.op 1)).of_ok hv
      exact (Value.toInt_halts hty (requireNumeric_eq_ok.mp htr) hn).of_ok hb

/-- The same on typed fragment trees with nonnegative literals and typed parameters, which need no
condition on exponents. -/
theorem getValue_eq_unboundedValue_emod_of_typed {t : Expr} (ht : Fragment t) {τ : RdlType}
    (hτ : predictType T t .fresh = .ok τ) (hlit : t.All LiteralNonneg) (hpar : t.All (ParamTyped T))
    {s s₁ s' : State} (hs : s.CastNonneg) {m W : ℤ} (hm : getMinEvalWidth T t s = .ok (m, s₁))
    (hW : max 1 m ≤ W) (hp : propagateEvalWidth T W t s₁ = .ok s') :
    (getValue T t s').map Prod.fst =
      (unboundedValue T t s').map fun z => .int (z % 2 ^ W.toNat) := by
  have h := terminates_of_typed t hτ hlit hpar
  have hs' : s'.CastNonneg := (h.pass (some W) ((h.minWidth hs).of_ok hm)).of_ok hp
  exact exceptRel_iff_map_eq.mp (exceptRel_getValue_unboundedValue T ht hm hW hp
    (nonnegExponents_of_typed T ht hτ hlit hpar hs'))

end

/-- `(4'd15 + 4'd3) ** 2'd2 << 2'd1` at width 4, where the exponent and the shift are typed
literals. -/
theorem getValue_eq_unboundedValue_emod_of_typed_shift :
    ∃ s₁ s', getMinEvalWidth .leaf (.expShift .lShift 0 (.expShift .exponent 0
        (.binaryInt .add 0 (.intLiteral 0 15 4) (.intLiteral 0 3 4)) (.intLiteral 0 2 2))
        (.intLiteral 0 1 2)) .fresh = .ok (4, s₁) ∧
      propagateEvalWidth .leaf 4 (.expShift .lShift 0 (.expShift .exponent 0
        (.binaryInt .add 0 (.intLiteral 0 15 4) (.intLiteral 0 3 4)) (.intLiteral 0 2 2))
        (.intLiteral 0 1 2)) s₁ = .ok s' ∧
      (getValue .leaf (.expShift .lShift 0 (.expShift .exponent 0
        (.binaryInt .add 0 (.intLiteral 0 15 4) (.intLiteral 0 3 4)) (.intLiteral 0 2 2))
        (.intLiteral 0 1 2)) s').map Prod.fst =
        (unboundedValue .leaf (.expShift .lShift 0 (.expShift .exponent 0
          (.binaryInt .add 0 (.intLiteral 0 15 4) (.intLiteral 0 3 4)) (.intLiteral 0 2 2))
          (.intLiteral 0 1 2)) s').map fun z => .int (z % 2 ^ (4 : ℤ).toNat) :=
  ⟨_, _, rfl, rfl, getValue_eq_unboundedValue_emod_of_typed .leaf
    (.expShift 0 _ (by decide) (.expShift 0 _ (by decide) (.binaryInt 0 (by decide) (by decide)
      (.intLiteral 0 (by decide) (by decide)) (.intLiteral 0 (by decide) (by decide)))))
    (by rfl) (by simp [Expr.All, LiteralNonneg]) (by simp [Expr.All, ParamTyped])
    State.castNonneg_fresh (by rfl) (by decide) (by rfl)⟩


/-!
# Comparisons

The two operands of a relational operator share one context, of width
`max(1, l.get_min_eval_width(), r.get_min_eval_width())`. On fragment operands a comparison
therefore compares their unbounded values modulo that width: a sum that overflows the context
wraps before it is compared.
-/

section

variable (T : ComponentTree)

/-- After `resolve_expr_width()`, a comparison of typed fragment trees compares their unbounded
values modulo `2 ^ max(1, minw l, minw r)`. -/
theorem getValue_relational_eq_emod {o : RelationalOp} {c : ErrCtx} {l r : Expr}
    (hl : Fragment l) (hr : Fragment r) {τ : RdlType}
    (hτ : predictType T (.relational o c l r) .fresh = .ok τ)
    (hlit : (Expr.relational o c l r).All LiteralNonneg)
    (hpar : (Expr.relational o c l r).All (ParamTyped T)) {s s' : State} (hs : s.CastNonneg)
    {ml mr : ℤ} {sl sr : State} (hml : getMinEvalWidth T l (s.op 0) = .ok (ml, sl))
    (hmr : getMinEvalWidth T r (s.op 1) = .ok (mr, sr))
    (hres : resolveExprWidth T (.relational o c l r) s = .ok s') :
    (getValue T (.relational o c l r) s').map Prod.fst = (do
      let a ← unboundedValue T l (s'.op 0)
      let b ← unboundedValue T r (s'.op 1)
      pure (.bool (o.apply (a % 2 ^ (max (max 1 ml) mr).toNat)
        (b % 2 ^ (max (max 1 ml) mr).toNat)))) := by
  obtain ⟨tl, htl, -, tr, htr, -, -⟩ := requireNumeric_two_eq_ok.mp hτ
  obtain ⟨wa, sa, ha, wb, sb, hb, sa', hpa, sb', hpb, rfl⟩ := defaultResolve_two_eq_ok.mp hres
  obtain ⟨rfl, rfl⟩ := Prod.mk.inj (Except.ok.inj (ha.symm.trans hml))
  obtain ⟨rfl, rfl⟩ := Prod.mk.inj (Except.ok.inj (hb.symm.trans hmr))
  have il := terminates_of_typed l htl hlit.2.1 hpar.2.1
  have ir := terminates_of_typed r htr hlit.2.2 hpar.2.2
  have hsa : sa'.CastNonneg := (il.pass _ ((il.minWidth (hs.op 0)).of_ok ha)).of_ok hpa
  have hsb : sb'.CastNonneg := (ir.pass _ ((ir.minWidth (hs.op 1)).of_ok hb)).of_ok hpb
  refine exceptRel_fst_iff.mp ((exceptRel_getValue_unboundedValue T hl ha (by omega) hpa
    (nonnegExponents_of_typed T hl htl hlit.2.1 hpar.2.1 hsa)).bind ?_)
  rintro ⟨lv, _⟩ a - (rfl : lv = _)
  refine (exceptRel_getValue_unboundedValue T hr hb (by omega) hpb
    (nonnegExponents_of_typed T hr htr hlit.2.2 hpar.2.2 hsb)).bind ?_
  rintro ⟨rv, _⟩ b - (rfl : rv = _)
  rfl

end

/-- `4'd15 + 4'd1 == 4'd0`: in the shared context of width 4 the sum `16` wraps to `0`, and the
comparison is true. -/
theorem getValue_relational_eq_emod_wrap :
    ∃ s', resolveExprWidth .leaf (.relational .eq 0
        (.binaryInt .add 0 (.intLiteral 0 15 4) (.intLiteral 0 1 4)) (.intLiteral 0 0 4)) .fresh =
        .ok s' ∧
      (getValue .leaf (.relational .eq 0
        (.binaryInt .add 0 (.intLiteral 0 15 4) (.intLiteral 0 1 4)) (.intLiteral 0 0 4)) s').map
        Prod.fst = (do
          let a ← unboundedValue .leaf
            (.binaryInt .add 0 (.intLiteral 0 15 4) (.intLiteral 0 1 4)) (s'.op 0)
          let b ← unboundedValue .leaf (.intLiteral 0 0 4) (s'.op 1)
          pure (.bool (RelationalOp.eq.apply (a % 2 ^ (max (max 1 4) 4 : ℤ).toNat)
            (b % 2 ^ (max (max 1 4) 4 : ℤ).toNat)))) ∧
      (getValue .leaf (.relational .eq 0
        (.binaryInt .add 0 (.intLiteral 0 15 4) (.intLiteral 0 1 4)) (.intLiteral 0 0 4)) s').map
        Prod.fst = .ok (.bool true) :=
  ⟨_, rfl, getValue_relational_eq_emod .leaf
    (.binaryInt 0 (by decide) (by decide) (.intLiteral 0 (by decide) (by decide))
      (.intLiteral 0 (by decide) (by decide)))
    (.intLiteral 0 (by decide) (by decide)) (by rfl) (by simp [Expr.All, LiteralNonneg])
    (by simp [Expr.All, ParamTyped]) State.castNonneg_fresh (by rfl) (by rfl) (by rfl), rfl⟩

end RdlExpressions

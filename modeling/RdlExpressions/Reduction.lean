import RdlExpressions.Width
import RdlExpressions.Bits

/-!
# Reduction operators

The reductions fold the bits of their operand into one bit. This module states what each one is
meant to compute (`reductionSpec`), proves that the bit loop of `XorReduce` and `XnorReduce` ends
exactly for nonnegative operands and computes their parity, and compares every reduction's
`get_value` with its meaning: `AndReduce`, `OrReduce`, `NorReduce`, `XorReduce` and `XnorReduce`
agree with it on every operand; `NandReduce` and `BoolNot` do not.
-/

namespace RdlExpressions

/-!
## The parity loop
-/

theorem count_bits_of_ne_zero {m : ℕ} (hm : m ≠ 0) :
    m.bits.count true = (m / 2).bits.count true + m % 2 := by
  rcases Nat.mod_two_eq_zero_or_one m with h | h
  · have hb := Nat.bit0_bits (m / 2) (by omega)
    rw [show 2 * (m / 2) = m by omega] at hb
    simp [hb, h]
  · have hb := Nat.bit1_bits (m / 2)
    rw [show 2 * (m / 2) + 1 = m by omega] at hb
    simp [hb, h]

private theorem natCast_shiftRight_one (m : ℕ) : (m : ℤ) >>> (1 : ℕ) = ((m / 2 : ℕ) : ℤ) := by
  rw [Int.shiftRight_eq_div_pow]
  push_cast
  rfl

private theorem land_natCast_one (m : ℕ) : Int.land (m : ℤ) 1 = ((m % 2 : ℕ) : ℤ) := by
  show ((m &&& 1 : ℕ) : ℤ) = _
  rw [Nat.and_one_is_mod]

theorem parityLoop_natCast (m : ℕ) :
    ∀ fuel v, m ≤ fuel -> parityLoop (fuel + 1) m v = some (v ^^^ m.bits.count true % 2) := by
  induction m using Nat.strong_induction_on with
  | _ m ih =>
      intro fuel v hle
      by_cases hm : m = 0
      · subst hm
        simp [parityLoop]
      obtain ⟨f, rfl⟩ : ∃ f, fuel = f + 1 := ⟨fuel - 1, by omega⟩
      have hcast : (m : ℤ) ≠ 0 := by exact_mod_cast hm
      rw [parityLoop, if_neg hcast, natCast_shiftRight_one, land_natCast_one,
        ih (m / 2) (by omega) f _ (by omega), count_bits_of_ne_zero hm]
      rcases Nat.mod_two_eq_zero_or_one m with h | h <;>
        rcases Nat.mod_two_eq_zero_or_one ((m / 2).bits.count true) with h' | h' <;>
        simp [h, h', Nat.xor_assoc, Nat.add_mod]

theorem parityLoop_neg {n : ℤ} (hn : n < 0) : ∀ fuel v, parityLoop fuel n v = none := by
  intro fuel
  induction fuel generalizing n with
  | zero =>
      intro v
      simp [parityLoop, hn.ne]
  | succ f ih =>
      intro v
      rw [parityLoop, if_neg hn.ne, ih]
      rw [Int.shiftRight_eq_div_pow]
      push_cast
      omega

/-- The `while` loop of `XorReduce` and `XnorReduce` ends, for some number of rounds, exactly
when its operand is nonnegative. -/
theorem parityLoop_halts_iff (n : ℤ) (v : ℕ) :
    (∃ fuel r, parityLoop fuel n v = some r) ↔ 0 ≤ n := by
  constructor
  · rintro ⟨fuel, r, h⟩
    by_contra hn
    rw [parityLoop_neg (not_le.mp hn)] at h
    cases h
  · intro hn
    lift n to ℕ using hn
    exact ⟨n + 1, _, parityLoop_natCast n n v le_rfl⟩

theorem parityOf_of_nonneg {n : ℤ} (hn : 0 ≤ n) (v : ℕ) :
    parityOf n v = pure (.int (v ^^^ n.toNat.bits.count true % 2 : ℕ)) := by
  lift n to ℕ using hn
  simp [parityOf, parityLoop_natCast n n v le_rfl]

theorem parityOf_of_neg {n : ℤ} (hn : n < 0) (v : ℕ) : parityOf n v = .error .diverges := by
  simp [parityOf, parityLoop_neg hn]

/-!
## What the reductions are meant to compute
-/

/-- What each reduction of `n` means at width `w`: all bits below `w` set, `n ≠ 0`, the parity of
the set bits, their complements, and `n = 0` for logical-not. -/
def reductionSpec (w : ℕ) : ReductionOp -> Int -> Value
  | .andReduce, n => .int (if ∀ i < w, n.testBit i then 1 else 0)
  | .nandReduce, n => .int (if ∀ i < w, n.testBit i then 0 else 1)
  | .orReduce, n => .int (if n ≠ 0 then 1 else 0)
  | .norReduce, n => .int (if n ≠ 0 then 0 else 1)
  | .xorReduce, n => .int (n.toNat.bits.count true % 2 : ℕ)
  | .xnorReduce, n => .int (1 - (n.toNat.bits.count true % 2 : ℕ))
  | .boolNot, n => .bool (n = 0)

theorem lnot_emod_two_pow_eq_zero_iff (n : ℤ) (w : ℕ) :
    Int.lnot n % 2 ^ w = 0 ↔ ∀ i < w, n.testBit i := by
  have h0 : (0 : ℤ) = 0 % 2 ^ w := by simp
  have hz : ∀ i, Int.testBit 0 i = false := fun i => Nat.zero_testBit i
  rw [h0, emod_two_pow_eq_iff]
  simp [Int.testBit_lnot, hz]

theorem andReduce_apply {w : ℤ} (hw : 0 ≤ w) (n : ℤ) :
    ReductionOp.andReduce.apply (some w) n = pure (reductionSpec w.toNat .andReduce n) := by
  simp only [ReductionOp.apply, trunc_of_nonneg hw, reductionSpec, pure_bind]
  by_cases h : ∀ i < w.toNat, n.testBit i
  · rw [if_pos h, if_pos ((lnot_emod_two_pow_eq_zero_iff n w.toNat).mpr h)]
  · rw [if_neg h, if_neg (mt (lnot_emod_two_pow_eq_zero_iff n w.toNat).mp h)]

theorem reduction_apply_eq_spec {o : ReductionOp} (hnand : o ≠ .nandReduce)
    (hnot : o ≠ .boolNot) {w : ℤ} (hw : 0 ≤ w) {n : ℤ} (hn : 0 ≤ n) :
    o.apply (some w) n = pure (reductionSpec w.toNat o n) := by
  cases o with
  | andReduce => exact andReduce_apply hw n
  | nandReduce => exact absurd rfl hnand
  | orReduce => rfl
  | norReduce => simp [ReductionOp.apply, reductionSpec]
  | xorReduce => simp [ReductionOp.apply, reductionSpec, parityOf_of_nonneg hn]
  | xnorReduce =>
      simp only [ReductionOp.apply, reductionSpec, parityOf_of_nonneg hn]
      rcases Nat.mod_two_eq_zero_or_one (n.toNat.bits.count true) with h | h <;> simp [h]
  | boolNot => exact absurd rfl hnot

/-- `AndReduce`, `OrReduce`, `NorReduce`, `XorReduce` and `XnorReduce` compute their bit-level
meaning on the operand's value, at the node's resolved width, for every operand. -/
theorem getValue_reduction_eq_spec (T : ComponentTree) {o : ReductionOp}
    (hnand : o ≠ .nandReduce) (hnot : o ≠ .boolNot) (c : ErrCtx) (e : Expr) {s se : State}
    {w n : ℤ} {v : Value} (hw : s.slot.exprEvalWidth = some w) (hw0 : 0 ≤ w)
    (he : getValue T e (s.op 0) = .ok (v, se)) (hv : v.toInt = .ok n) (hn : 0 ≤ n) :
    getValue T (.reduction o c e) s = .ok (reductionSpec w.toNat o n, .mk s.slot [se]) := by
  have happ := reduction_apply_eq_spec hnand hnot hw0 hn
  cases o <;> first
    | exact absurd rfl hnand
    | exact absurd rfl hnot
    | simp only [getValue, he, hv, hw, happ, bind, Except.bind, pure, Except.pure]

/-- `^(4'd5)` at width 4 has the parity of `5`. -/
theorem getValue_xorReduce_five :
    getValue .leaf (.reduction .xorReduce 0 (.intLiteral 0 5 4)) (.mk { exprEvalWidth := some 4 } [])
      = .ok (reductionSpec 4 .xorReduce 5, .mk { exprEvalWidth := some 4 } [.fresh]) :=
  getValue_reduction_eq_spec .leaf (by decide) (by decide) 0 (.intLiteral 0 5 4) rfl (by decide) rfl
    rfl (by decide)

/-- `NandReduce` of `4'd15` gives 1, the body of `OrReduce`; `BoolNot` of `1'd0` gives false, as it
negates the operand node and not its value. -/
theorem nandReduce_boolNot_differ_from_spec (T : ComponentTree) :
    (resolveExprWidth T (.reduction .nandReduce 0 (.intLiteral 0 15 4)) .fresh).map
        (·.slot.exprEvalWidth) = .ok (some 4) ∧
      (resolveExprWidth T (.reduction .nandReduce 0 (.intLiteral 0 15 4)) .fresh >>= fun s =>
        (getValue T (.reduction .nandReduce 0 (.intLiteral 0 15 4)) s).map Prod.fst) =
        .ok (.int 1) ∧
      reductionSpec 4 .nandReduce 15 = .int 0 ∧
      (resolveExprWidth T (.reduction .boolNot 0 (.intLiteral 0 0 1)) .fresh >>= fun s =>
        (getValue T (.reduction .boolNot 0 (.intLiteral 0 0 1)) s).map Prod.fst) =
        .ok (.bool false) ∧
      reductionSpec 1 .boolNot 0 = .bool true :=
  ⟨rfl, rfl, rfl, rfl, rfl⟩

end RdlExpressions

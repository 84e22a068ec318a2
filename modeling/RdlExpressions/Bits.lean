import RdlExpressions.Runtime
import Mathlib.Data.Nat.Bits
import Mathlib.Tactic.Positivity
import Mathlib.Tactic.Ring
import Mathlib.Tactic.Lift

/-!
# Bit-level facts about Python integers

Python's `&`, `|`, `^` and `~` act on the infinite two's-complement expansion of an `int`, which is
what `Int.land`, `Int.lor`, `Int.xor` and `Int.lnot` compute. This module relates that expansion to
truncation: `v & ((1 << w) - 1)` is `v % 2 ^ w`, two integers agree modulo `2 ^ n` exactly when
their low `n` bits agree, and so every bitwise operation respects agreement modulo `2 ^ n`.
-/

namespace RdlExpressions

@[simp] theorem testBit_natCast (m i : ℕ) : Int.testBit (m : ℤ) i = m.testBit i := rfl

theorem testBit_emod_two_pow (a : ℤ) (n i : ℕ) :
    (a % 2 ^ n).testBit i = (decide (i < n) && a.testBit i) := by
  cases a with
  | ofNat m =>
      have h : Int.ofNat m % 2 ^ n = ((m % 2 ^ n : ℕ) : ℤ) := by push_cast; rfl
      rw [h, testBit_natCast, Nat.testBit_mod_two_pow]
      rfl
  | negSucc m =>
      have hlt : m % 2 ^ n < 2 ^ n := Nat.mod_lt _ (Nat.two_pow_pos n)
      have h : Int.negSucc m % 2 ^ n = ((2 ^ n - (m % 2 ^ n + 1) : ℕ) : ℤ) := by
        rw [Int.negSucc_emod m (by positivity)]
        push_cast [Nat.cast_sub (by omega : m % 2 ^ n + 1 ≤ 2 ^ n)]
        ring
      rw [h, testBit_natCast, Nat.testBit_two_pow_sub_succ hlt, Nat.testBit_mod_two_pow]
      cases decide (i < n) <;> rfl

theorem eq_of_testBit_eq_of_nonneg {a b : ℤ} (ha : 0 ≤ a) (hb : 0 ≤ b)
    (h : ∀ i, a.testBit i = b.testBit i) : a = b := by
  lift a to ℕ using ha
  lift b to ℕ using hb
  exact congrArg _ (Nat.eq_of_testBit_eq h)

theorem emod_two_pow_eq_iff {a b : ℤ} (n : ℕ) :
    a % 2 ^ n = b % 2 ^ n ↔ ∀ i < n, a.testBit i = b.testBit i := by
  constructor
  · intro h i hi
    simpa [testBit_emod_two_pow, hi] using congrArg (Int.testBit · i) h
  · intro h
    apply eq_of_testBit_eq_of_nonneg (Int.emod_nonneg _ (by positivity))
      (Int.emod_nonneg _ (by positivity))
    intro i
    by_cases hi : i < n
    · simp [testBit_emod_two_pow, hi, h i hi]
    · simp [testBit_emod_two_pow, hi]

theorem bitwise_emod_two_pow_congr (f : Bool -> Bool -> Bool) (n : ℕ) {a a' b b' : ℤ}
    (ha : a % 2 ^ n = a' % 2 ^ n) (hb : b % 2 ^ n = b' % 2 ^ n) :
    Int.bitwise f a b % 2 ^ n = Int.bitwise f a' b' % 2 ^ n := by
  rw [emod_two_pow_eq_iff] at ha hb ⊢
  intro i hi
  simp [Int.testBit_bitwise, ha i hi, hb i hi]

theorem lnot_eq_neg_sub_one (n : ℤ) : Int.lnot n = -n - 1 := by
  cases n with
  | ofNat m => simp [Int.lnot, Int.negSucc_eq]; ring
  | negSucc m => simp [Int.lnot, Int.negSucc_eq]

theorem land_two_pow_sub_one (v : ℤ) (n : ℕ) : Int.land v (2 ^ n - 1) = v % 2 ^ n := by
  have hcast : (2 : ℤ) ^ n - 1 = ((2 ^ n - 1 : ℕ) : ℤ) := by
    push_cast [Nat.one_le_two_pow]
    ring
  have hnn : 0 ≤ Int.land v ((2 ^ n - 1 : ℕ) : ℤ) := by
    cases v <;> simp [Int.land]
    exact Int.emod_nonneg _ (by positivity)
  rw [hcast]
  apply eq_of_testBit_eq_of_nonneg hnn (Int.emod_nonneg _ (by positivity))
  intro i
  rw [← Int.bitwise_and, Int.testBit_bitwise, testBit_natCast, Nat.testBit_two_pow_sub_one,
    testBit_emod_two_pow, Bool.and_comm]

theorem trunc_of_nonneg {w : ℤ} (hw : 0 ≤ w) (v : ℤ) :
    trunc (some w) v = pure (v % 2 ^ w.toNat) := by
  have h : (1 : ℤ) <<< w = 2 ^ w.toNat := by
    rw [← Int.toNat_of_nonneg hw, Int.one_shiftLeft]
    push_cast
    rfl
  simp [trunc, not_lt.mpr hw, h, land_two_pow_sub_one]

theorem trunc_none (v : ℤ) : trunc none v = .error .typeError := rfl

end RdlExpressions

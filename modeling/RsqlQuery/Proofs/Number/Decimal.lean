import Mathlib.Algebra.Order.Field.Power
import RsqlQuery.Number.Shortest
import RsqlQuery.Proofs.Number.Magnitude

/-!
# Decimals as fractions

A decimal is a natural number times a power of ten. Its digits and the place of its point tell
between which powers of ten it lies; two decimals with few digits are equal or lie well apart.

## Main definitions

* `Decimal.value` — the fraction a decimal denotes.

## Main statements

* `Decimal.tenPow_le_value_iff` — where a decimal lies among the powers of ten.
* `Decimal.eq_of_value_eq` — equal decimals of the same length are the same.
* `Decimal.value_lt_mul_sub` — how far two decimals lie apart.
-/

namespace RsqlQuery.Number

/-! ## Digits of natural numbers -/

theorem decimalLength_pos (n : Nat) : 0 < decimalLength n := Nat.length_toDigits_pos

theorem decimalLength_le_iff {n k : Nat} (hk : 0 < k) : decimalLength n ≤ k ↔ n < 10 ^ k :=
  Nat.length_toDigits_le_iff (by decide) hk

theorem lt_tenPow_decimalLength (n : Nat) : n < 10 ^ decimalLength n :=
  (decimalLength_le_iff (decimalLength_pos n)).mp le_rfl

theorem tenPow_le_of_decimalLength {n : Nat} (hn : 0 < n) : 10 ^ (decimalLength n - 1) ≤ n := by
  obtain one | more : decimalLength n = 1 ∨ 0 < decimalLength n - 1 := by
    have := decimalLength_pos n
    omega
  · simp only [one, Nat.sub_self, pow_zero]
    omega
  · by_contra less
    have := (decimalLength_le_iff more).mpr (Nat.not_le.mp less)
    omega

theorem decimalLength_one : decimalLength 1 = 1 := by decide

/-! ## Decimals as fractions -/

namespace Decimal

/-- The fraction a decimal denotes. -/
def value (d : Decimal) : ℚ := d.significand * 10 ^ d.exponent

variable {d e : Decimal}

theorem num_div_den (d : Decimal) : (d.num / d.den : ℚ) = d.value := by
  have ten : (10 : ℚ) ≠ 0 := by norm_num
  have split : (d.exponent.toNat : Int) - ((-d.exponent).toNat : Int) = d.exponent := by omega
  have power : (10 : ℚ) ^ d.exponent.toNat / 10 ^ (-d.exponent).toNat = 10 ^ d.exponent := by
    rw [← zpow_natCast, ← zpow_natCast, ← zpow_sub₀ ten, split]
  rw [value, ← power, num, den, tenPow_eq, tenPow_eq]
  push_cast
  ring

theorem den_pos (d : Decimal) : 0 < d.den := by
  rw [den, tenPow_eq]
  positivity

theorem value_tenPow (n : Int) : (⟨1, n⟩ : Decimal).value = 10 ^ n := by
  rw [value, Nat.cast_one, one_mul]

theorem value_nonneg (d : Decimal) : 0 ≤ d.value := by
  unfold value
  positivity

theorem value_lt (d : Decimal) : d.value < 10 ^ d.point := by
  have ten : (10 : ℚ) ≠ 0 := by norm_num
  have digits : (d.significand : ℚ) < 10 ^ decimalLength d.significand := by
    exact_mod_cast lt_tenPow_decimalLength d.significand
  rw [value, point, zpow_add₀ ten, zpow_natCast]
  gcongr

theorem le_value (h : 0 < d.significand) : 10 ^ (d.point - 1) ≤ d.value := by
  have ten : (10 : ℚ) ≠ 0 := by norm_num
  have split : d.point - 1 = (decimalLength d.significand - 1 : Nat) + d.exponent := by
    have := decimalLength_pos d.significand
    rw [point]
    omega
  have digits : (10 : ℚ) ^ (decimalLength d.significand - 1) ≤ d.significand := by
    exact_mod_cast tenPow_le_of_decimalLength h
  rw [value, split, zpow_add₀ ten, zpow_natCast]
  gcongr

/-- A decimal lies at or above a power of ten exactly if its point lies beyond that power. -/
theorem tenPow_le_value_iff (h : 0 < d.significand) {n : Int} :
    10 ^ n ≤ d.value ↔ n < d.point := by
  constructor
  · intro le
    exact (zpow_lt_zpow_iff_right₀ (by norm_num : (1 : ℚ) < 10)).mp (le.trans_lt d.value_lt)
  · intro lt
    exact (zpow_le_zpow_right₀ (by norm_num : (1 : ℚ) ≤ 10) (by omega)).trans (le_value h)

/-- A decimal is a whole multiple of each power of ten up to its own. -/
theorem exists_value_eq (d : Decimal) {n : Int} (le : n ≤ d.exponent) :
    ∃ a : Nat, d.value = a * 10 ^ n := by
  refine ⟨d.significand * 10 ^ (d.exponent - n).toNat, ?_⟩
  have split : d.exponent = (d.exponent - n).toNat + n := by omega
  rw [value, split, zpow_add₀ (by norm_num), zpow_natCast]
  push_cast
  rw [← split, mul_assoc]

/-- Decimals with few digits lie apart from each other. -/
theorem value_lt_mul_sub (lt : d.value < e.value) {digits : Nat}
    (lengthD : decimalLength d.significand ≤ digits)
    (lengthE : decimalLength e.significand ≤ digits) :
    d.value < 10 ^ digits * (e.value - d.value) := by
  have short : ∀ c : Decimal, decimalLength c.significand ≤ digits →
      c.value < 10 ^ digits * 10 ^ c.exponent := by
    intro c length
    rw [← zpow_natCast, ← zpow_add₀ (by norm_num)]
    refine c.value_lt.trans_le (zpow_le_zpow_right₀ (by norm_num) ?_)
    unfold point
    omega
  have step : ∀ n, n ≤ d.exponent → n ≤ e.exponent → (10 : ℚ) ^ n ≤ e.value - d.value := by
    intro n hd he
    obtain ⟨a, ha⟩ := d.exists_value_eq hd
    obtain ⟨b, hb⟩ := e.exists_value_eq he
    have power : (0 : ℚ) < 10 ^ n := by positivity
    rw [ha, hb, mul_lt_mul_iff_left₀ power, Nat.cast_lt] at lt
    have : (a + 1 : ℚ) ≤ b := by exact_mod_cast lt
    have := mul_le_mul_of_nonneg_right this power.le
    rw [ha, hb]
    linarith
  obtain le | le := le_total d.exponent e.exponent
  · exact (short d lengthD).trans_le (by gcongr; exact step _ le_rfl le)
  · exact (lt.trans (short e lengthE)).trans_le (by gcongr; exact step _ le le_rfl)

/-- Two equal decimals with equally many digits are the same. -/
theorem eq_of_value_eq (h : 0 < d.significand) (same : d.value = e.value)
    (length : decimalLength d.significand = decimalLength e.significand) : d = e := by
  have positive : 0 < e.significand := by
    by_contra zero
    obtain zero : e.significand = 0 := by omega
    have : 0 < d.value := by
      unfold value
      positivity
    rw [same, value, zero] at this
    simp at this
  have point : d.point = e.point := by
    refine le_antisymm ?_ ?_
    · by_contra less
      have := (tenPow_le_value_iff h).mpr (not_le.mp less)
      rw [same, tenPow_le_value_iff positive] at this
      omega
    · by_contra less
      have := (tenPow_le_value_iff positive).mpr (not_le.mp less)
      rw [← same, tenPow_le_value_iff h] at this
      omega
  have exponent : d.exponent = e.exponent := by
    unfold Decimal.point at point
    omega
  have significand : d.significand = e.significand := by
    unfold value at same
    rw [exponent] at same
    have power : (10 : ℚ) ^ e.exponent ≠ 0 := by positivity
    exact_mod_cast mul_right_cancel₀ power same
  cases d
  cases e
  simp_all

end Decimal

end RsqlQuery.Number

import Mathlib.Algebra.Order.Field.Basic
import Mathlib.Algebra.Order.Ring.Rat
import Mathlib.Order.Monotone.Basic
import Mathlib.Tactic.Linarith
import Mathlib.Tactic.Positivity
import Mathlib.Tactic.Ring
import RsqlQuery.Number.Binary

/-!
# Magnitudes in order

The magnitude bits of a format are its exponent field above its fraction field. Counting one up
goes to the next number of the format, also where the fraction overflows into the exponent, so the
values of magnitudes are in the order of their bits.

## Main definitions

* `BinaryFormat.magnitude` — the bits of a significand and a shift.
* `BinaryFormat.units`, `BinaryFormat.value` — the value of magnitude bits, counted in smallest
  positive numbers and as a fraction.
* `BinaryFormat.IsFinite` — the significands and shifts of finite numbers.

## Main statements

* `BinaryFormat.units_magnitude` — the value of the bits of a significand and a shift.
* `BinaryFormat.units_strictMono` — values are in the order of the bits.
* `BinaryFormat.isFinite_of_datum` — the bits that a finite number is read from.
-/

namespace RsqlQuery.Number

@[simp] theorem twoPow_eq (n : Nat) : twoPow n = 2 ^ n := rfl

@[simp] theorem tenPow_eq (n : Nat) : tenPow n = 10 ^ n := rfl

namespace BinaryFormat

variable (f : BinaryFormat)

/-- The magnitude bits of a significand and a shift; the hidden bit of the significand adds one to
the exponent field. -/
def magnitude (significand shift : Nat) : Nat := shift * 2 ^ f.fractionBits + significand

/-- The value of magnitude bits, counted in smallest positive numbers. -/
def units (bits : Nat) : Nat :=
  if bits / 2 ^ f.fractionBits = 0 then bits
  else (2 ^ f.fractionBits + bits % 2 ^ f.fractionBits) * 2 ^ (bits / 2 ^ f.fractionBits - 1)

/-- The value of magnitude bits. That of infinity is where the next finite number would be. -/
def value (bits : Nat) : ℚ := f.units bits / 2 ^ f.scale

/-- A significand fills its width, unless it has no hidden bit and then no shift either. -/
structure IsNormal (significand shift : Nat) : Prop where
  full : shift = 0 ∨ 2 ^ f.fractionBits ≤ significand
  lt : significand < 2 ^ (f.fractionBits + 1)

/-- The significands and shifts of finite numbers. -/
structure IsFinite (significand shift : Nat) : Prop extends f.IsNormal significand shift where
  finite : f.magnitude significand shift < f.infinityBits

variable {f} {significand shift : Nat}

/-- This holds also for a significand one beyond its width, whose last carry goes into the exponent
field. -/
theorem units_magnitude (full : shift = 0 ∨ 2 ^ f.fractionBits ≤ significand)
    (le : significand ≤ 2 ^ (f.fractionBits + 1)) :
    f.units (f.magnitude significand shift) = significand * 2 ^ shift := by
  have width : 0 < 2 ^ f.fractionBits := Nat.two_pow_pos _
  rw [pow_succ] at le
  unfold units magnitude
  rw [Nat.add_comm, Nat.add_mul_div_right _ _ width, Nat.add_mul_mod_self_right]
  obtain small | carried | hidden : significand < 2 ^ f.fractionBits ∨
      significand = 2 ^ f.fractionBits * 2 ∨
      2 ^ f.fractionBits ≤ significand ∧ significand < 2 ^ f.fractionBits * 2 := by omega
  · obtain rfl : shift = 0 := by omega
    simp [Nat.div_eq_of_lt small]
  · subst carried
    rw [Nat.mul_div_cancel_left _ width, Nat.mul_mod_right, if_neg (by omega),
      show 2 + shift - 1 = shift + 1 by omega, pow_succ]
    ring
  · have field : significand / 2 ^ f.fractionBits = 1 :=
      Nat.div_eq_of_lt_le (by omega) (by omega)
    have fraction : 2 ^ f.fractionBits + significand % 2 ^ f.fractionBits = significand := by
      rw [Nat.mod_eq_sub_mul_div, field]
      omega
    rw [field, fraction, if_neg (by omega), Nat.add_sub_cancel_left]

variable (f) in
/-- Every magnitude is that of a significand and a shift. -/
theorem exists_magnitude (bits : Nat) :
    ∃ significand shift, f.IsNormal significand shift ∧ f.magnitude significand shift = bits := by
  have fraction : bits % 2 ^ f.fractionBits < 2 ^ f.fractionBits :=
    Nat.mod_lt _ (Nat.two_pow_pos _)
  have split := Nat.div_add_mod bits (2 ^ f.fractionBits)
  cases field : bits / 2 ^ f.fractionBits with
  | zero =>
    rw [field] at split
    refine ⟨bits, 0, ⟨.inl rfl, ?_⟩, by simp [magnitude]⟩
    rw [pow_succ]
    omega
  | succ exponent =>
    rw [field] at split
    refine ⟨2 ^ f.fractionBits + bits % 2 ^ f.fractionBits, exponent, ⟨.inr (by omega), ?_⟩, ?_⟩
    · rw [pow_succ]
      omega
    · rw [magnitude]
      linarith [Nat.mul_comm exponent (2 ^ f.fractionBits)]

theorem IsNormal.units (h : f.IsNormal significand shift) :
    f.units (f.magnitude significand shift) = significand * 2 ^ shift :=
  units_magnitude h.full h.lt.le

theorem IsNormal.units_add_one (h : f.IsNormal significand shift) :
    f.units (f.magnitude significand shift + 1) = (significand + 1) * 2 ^ shift :=
  units_magnitude (h.full.imp_right Nat.le_succ_of_le) h.lt

variable (f) in
theorem units_strictMono : StrictMono f.units := by
  refine strictMono_nat_of_lt_succ fun bits => ?_
  obtain ⟨significand, shift, normal, rfl⟩ := f.exists_magnitude bits
  rw [normal.units, normal.units_add_one]
  gcongr
  omega

variable (f) in
theorem value_strictMono : StrictMono f.value := by
  intro a b h
  have ordered := f.units_strictMono h
  unfold value
  gcongr

theorem value_nonneg (f : BinaryFormat) (bits : Nat) : 0 ≤ f.value bits := by
  unfold value
  positivity

theorem IsFinite.full_of_le (h : f.IsFinite significand shift)
    (normal : 2 ^ f.fractionBits ≤ f.magnitude significand shift) :
    2 ^ f.fractionBits ≤ significand := by
  obtain rfl | full := h.full
  · simpa [magnitude] using normal
  · exact full

/-! ## What bits denote -/

/-- A finite number is read from the magnitude bits of its significand and shift. -/
theorem isFinite_of_datum {bits : Nat} {negative : Bool}
    (h : f.datum bits = .finite negative significand shift) :
    f.IsFinite significand shift ∧ f.magnitude significand shift = bits % f.signBit ∧
      negative = decide (f.signBit ≤ bits) := by
  have fraction : bits % f.signBit % 2 ^ f.fractionBits < 2 ^ f.fractionBits :=
    Nat.mod_lt _ (Nat.two_pow_pos _)
  have split := Nat.div_add_mod (bits % f.signBit) (2 ^ f.fractionBits)
  unfold datum at h
  dsimp only at h
  split_ifs at h with above infinite field
  · simp only [Datum.finite.injEq, twoPow_eq] at h field
    obtain ⟨sign, rfl, rfl⟩ := h
    rw [field] at split
    have same : f.magnitude (bits % f.signBit % 2 ^ f.fractionBits) 0 = bits % f.signBit := by
      rw [magnitude]
      omega
    refine ⟨⟨⟨.inl rfl, ?_⟩, by omega⟩, same, sign.symm⟩
    rw [pow_succ]
    omega
  · simp only [Datum.finite.injEq, twoPow_eq] at h field
    obtain ⟨sign, rfl, rfl⟩ := h
    obtain ⟨exponent, succ⟩ : ∃ e, bits % f.signBit / 2 ^ f.fractionBits = e + 1 :=
      Nat.exists_eq_succ_of_ne_zero field
    rw [succ] at split ⊢
    have same : f.magnitude (2 ^ f.fractionBits + bits % f.signBit % 2 ^ f.fractionBits)
        (exponent + 1 - 1) = bits % f.signBit := by
      rw [magnitude, Nat.add_sub_cancel]
      linarith [Nat.mul_comm exponent (2 ^ f.fractionBits)]
    refine ⟨⟨⟨.inr (by omega), ?_⟩, by omega⟩, same, sign.symm⟩
    rw [pow_succ]
    omega

end BinaryFormat

end RsqlQuery.Number

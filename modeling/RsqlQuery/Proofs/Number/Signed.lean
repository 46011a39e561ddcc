import Mathlib.Tactic.SplitIfs
import RsqlQuery.Proofs.Number.Nearest

/-!
# Numbers with a sign

A number of the wide format is its sign and its magnitude bits. The finite ones have the values of
their magnitudes, with that sign, and the order of floating point is the order of the magnitudes
where no sign is set.

## Main definitions

* `Binary64.magnitudeBits` — the bits of a number without its sign.
* `Binary64.IsFinite`, `Binary64.value` — the finite numbers and their values.
* `Binary64.IsNearest` — a finite number is the nearest to a fraction of all finite ones.

## Main statements

* `Binary64.ofMagnitude_magnitudeBits` — a number is made of its sign and its magnitude.
* `Binary64.exists_datum_ofMagnitude` — what a sign and a magnitude make.
* `Binary64.atMost_iff`, `Binary64.below_iff` — the order of numbers without a sign.
* `Binary64.isNearest_ofMagnitude` — rounding the magnitude rounds the number.
* `Binary64.isNearest_ofInt`, `Binary64.value_ofInt_le` — the numbers of integers.
-/

namespace RsqlQuery.Number

namespace BinaryFormat

variable (f : BinaryFormat)

theorem infinityBits_lt_signBit : f.infinityBits < f.signBit := by
  have width : 0 < 2 ^ f.fractionBits := Nat.two_pow_pos _
  have count : 0 < 2 ^ f.exponentBits := Nat.two_pow_pos _
  rw [infinityBits, signBit, twoPow_eq, twoPow_eq, twoPow_eq, Nat.add_comm, pow_add]
  exact Nat.mul_lt_mul_of_pos_right (by omega) width

variable {f} {bits : Nat}

theorem exists_datum {negative : Bool} (h : bits < f.infinityBits) :
    ∃ significand shift, f.IsFinite significand shift ∧ f.magnitude significand shift = bits ∧
      f.datum (if negative then f.signBit + bits else bits) =
        .finite negative significand shift := by
  have below := h.trans f.infinityBits_lt_signBit
  set whole := if negative then f.signBit + bits else bits with hwhole
  have same : whole % f.signBit = bits := by
    rw [hwhole]
    split_ifs
    · rw [Nat.add_mod_left, Nat.mod_eq_of_lt below]
    · exact Nat.mod_eq_of_lt below
  have sign : decide (f.signBit ≤ whole) = negative := by
    cases negative <;> simp [hwhole, below]
  obtain ⟨significand, shift, finite⟩ : ∃ significand shift,
      f.datum whole = .finite negative significand shift := by
    unfold datum
    dsimp only
    rw [same, if_neg (by omega), if_neg (by omega), sign]
    split_ifs
    · exact ⟨_, _, rfl⟩
    · exact ⟨_, _, rfl⟩
  obtain ⟨isFinite, magnitude, -⟩ := isFinite_of_datum finite
  exact ⟨significand, shift, isFinite, magnitude.trans same, finite⟩

end BinaryFormat

namespace Binary64

variable {x y : Binary64} {negative : Bool} {significand shift bits : Nat}

/-- The bits of a number without its sign. -/
def magnitudeBits (x : Binary64) : Nat := x.bits.toNat % binary64.signBit

theorem toNat_ofMagnitude (h : bits < binary64.signBit) :
    (ofMagnitude negative bits).bits.toNat =
      if negative then binary64.signBit + bits else bits := by
  have size : binary64.signBit + binary64.signBit = 2 ^ 64 := rfl
  rw [ofMagnitude, UInt64.toNat_ofNat', Nat.mod_eq_of_lt]
  split_ifs <;> omega

theorem magnitudeBits_ofMagnitude (h : bits < binary64.signBit) :
    (ofMagnitude negative bits).magnitudeBits = bits := by
  rw [magnitudeBits, toNat_ofMagnitude h]
  split_ifs
  · rw [Nat.add_mod_left, Nat.mod_eq_of_lt h]
  · exact Nat.mod_eq_of_lt h

theorem isFinite_of_datum (h : x.datum = .finite negative significand shift) :
    binary64.IsFinite significand shift ∧
      binary64.magnitude significand shift = x.magnitudeBits :=
  have ⟨isFinite, magnitude, _⟩ := BinaryFormat.isFinite_of_datum h
  ⟨isFinite, magnitude⟩

/-- What a sign and a magnitude make. -/
theorem exists_datum_ofMagnitude (negative : Bool) (h : bits < binary64.infinityBits) :
    ∃ significand shift, binary64.IsFinite significand shift ∧
      binary64.magnitude significand shift = bits ∧
      (ofMagnitude negative bits).datum = .finite negative significand shift := by
  rw [datum, toNat_ofMagnitude (h.trans binary64.infinityBits_lt_signBit)]
  exact BinaryFormat.exists_datum h

/-- A number is made of its sign and its magnitude. -/
theorem ofMagnitude_magnitudeBits (h : x.datum = .finite negative significand shift) :
    ofMagnitude negative x.magnitudeBits = x := by
  obtain ⟨-, -, sign⟩ := BinaryFormat.isFinite_of_datum h
  have size : x.bits.toNat < 2 * binary64.signBit := x.bits.toNat_lt
  have whole : (if negative then binary64.signBit + x.magnitudeBits else x.magnitudeBits) =
      x.bits.toNat := by
    rw [magnitudeBits, sign]
    split_ifs with high
    · have high := of_decide_eq_true high
      rw [Nat.mod_eq_sub_mod high, Nat.mod_eq_of_lt (by omega)]
      omega
    · rw [decide_eq_true_eq, not_le] at high
      exact Nat.mod_eq_of_lt high
  rw [ofMagnitude, whole, UInt64.ofNat_toNat]

/-! ## The order of numbers without a sign -/

theorem place?_of_datum (h : x.datum = .finite false significand shift) :
    x.place? = some (binary64.units x.magnitudeBits : Int) := by
  obtain ⟨isFinite, magnitude⟩ := isFinite_of_datum h
  rw [place?, h, ← magnitude, isFinite.toIsNormal.units]
  simp [Datum.place?, Datum.place?.signed]

section Order

variable {a b : Nat} {i j : Nat} (hx : x.datum = .finite false a i)
  (hy : y.datum = .finite false b j)
include hx hy

theorem atMost_iff : x.atMost y = true ↔ x.magnitudeBits ≤ y.magnitudeBits := by
  rw [atMost, place?_of_datum hx, place?_of_datum hy, ← binary64.units_strictMono.le_iff_le]
  simp

theorem below_iff : x.below y = true ↔ x.magnitudeBits < y.magnitudeBits := by
  rw [below, place?_of_datum hx, place?_of_datum hy, ← binary64.units_strictMono.lt_iff_lt]
  simp

end Order

theorem exists_datum_abs (h : x.datum = .finite negative significand shift) :
    ∃ a i, x.abs.datum = .finite false a i ∧ x.abs.magnitudeBits = x.magnitudeBits := by
  obtain ⟨isFinite, magnitude⟩ := isFinite_of_datum h
  have finite : x.magnitudeBits < binary64.infinityBits := magnitude ▸ isFinite.finite
  obtain ⟨a, i, -, -, datum⟩ := exists_datum_ofMagnitude false finite
  exact ⟨a, i, datum, magnitudeBits_ofMagnitude (finite.trans binary64.infinityBits_lt_signBit)⟩

/-! ## Values -/

/-- Neither an infinity nor a NaN. -/
def IsFinite (x : Binary64) : Prop := x.magnitudeBits < binary64.infinityBits

instance (x : Binary64) : Decidable x.IsFinite := inferInstanceAs (Decidable (_ < _))

def value (x : Binary64) : ℚ :=
  if binary64.signBit ≤ x.bits.toNat then -binary64.value x.magnitudeBits
  else binary64.value x.magnitudeBits

theorem value_ofMagnitude (h : bits < binary64.signBit) : (ofMagnitude negative bits).value =
    (if negative then -1 else 1) * binary64.value bits := by
  rw [value, magnitudeBits_ofMagnitude h, toNat_ofMagnitude h]
  cases negative
  · simp [h]
  · simp

theorem abs_value (x : Binary64) : |x.value| = binary64.value x.magnitudeBits := by
  have nonneg := binary64.value_nonneg x.magnitudeBits
  unfold value
  split_ifs
  · rw [abs_neg, abs_of_nonneg nonneg]
  · exact abs_of_nonneg nonneg

/-- No finite number is nearer to a fraction, and one with another value is as near only if the last
bit is even. -/
structure IsNearest (q : ℚ) (x : Binary64) : Prop where
  isFinite : x.IsFinite
  near : ∀ y : Binary64, y.IsFinite → |x.value - q| ≤ |y.value - q|
  even : ∀ y : Binary64, y.IsFinite → y.value ≠ x.value → |y.value - q| = |x.value - q| →
    x.magnitudeBits % 2 = 0

/-- If the magnitude is rounded and the sign kept, the number is rounded. -/
theorem isNearest_ofMagnitude {q : ℚ} (nearest : binary64.IsNearest |q| bits)
    (finite : bits < binary64.infinityBits) (sign : negative = decide (q < 0)) :
    IsNearest q (ofMagnitude negative bits) := by
  have below := finite.trans binary64.infinityBits_lt_signBit
  have own : |(ofMagnitude negative bits).value - q| = |(binary64.value bits - |q|)| := by
    rw [value_ofMagnitude below, sign]
    rcases lt_or_ge q 0 with minus | plus
    · rw [decide_eq_true minus, abs_of_neg minus, ← abs_neg]
      simp only [if_true]
      ring_nf
    · rw [decide_eq_false (not_lt.mpr plus), abs_of_nonneg plus]
      simp
  have other : ∀ y : Binary64, |(binary64.value y.magnitudeBits - |q|)| ≤ |y.value - q| := by
    intro y
    rw [← abs_value]
    exact abs_abs_sub_abs_le _ _
  refine ⟨?_, fun y hy => ?_, fun y hy differs tie => ?_⟩
  · rwa [IsFinite, magnitudeBits_ofMagnitude below]
  · rw [own]
    exact (nearest.near _ (le_of_lt hy)).trans (other y)
  · rw [magnitudeBits_ofMagnitude below]
    rw [own] at tie
    have magnitudes : |(binary64.value y.magnitudeBits - |q|)| = |(binary64.value bits - |q|)| :=
      le_antisymm ((other y).trans tie.le) (nearest.near _ (le_of_lt hy))
    by_cases same : y.magnitudeBits = bits
    · -- The other number is the same one with another sign, so they are as near to zero only.
      have opposite : y.value = -(ofMagnitude negative bits).value := by
        refine (abs_eq_abs.mp ?_).resolve_left differs
        rw [abs_value, abs_value, magnitudeBits_ofMagnitude below, same]
      rw [← own, opposite] at tie
      obtain zero | zero := abs_eq_abs.mp tie
      · exact absurd (by linarith) differs
      · obtain rfl : q = 0 := by linarith
        have start : binary64.value 0 = |(0 : ℚ)| := by
          simp [BinaryFormat.value, BinaryFormat.units]
        rw [← start] at nearest
        rw [nearest.unique (BinaryFormat.isNearest_value (Nat.zero_le _))]
    · exact nearest.even _ (le_of_lt hy) same magnitudes

/-! ## Integers -/

theorem isNearest_roundBits_natAbs (n : Int) :
    binary64.IsNearest |(n : ℚ)| (binary64.roundBits n.natAbs 1) := by
  have nearest := binary64.isNearest_roundBits n.natAbs Nat.one_pos
  rwa [Nat.cast_one, div_one, Nat.cast_natAbs, Int.cast_abs] at nearest

/-- Up to the hundred and twenty-eighth power of two an integer becomes the number nearest to it. -/
theorem isNearest_ofInt {n : Int} (h : n.natAbs ≤ 2 ^ 128) : IsNearest n (ofInt n) := by
  have top := isNearest_roundBits_natAbs (2 ^ 128)
  have finite : binary64.roundBits (2 ^ 128 : Int).natAbs 1 < binary64.infinityBits := by
    decide +kernel
  refine isNearest_ofMagnitude (isNearest_roundBits_natAbs n) (lt_of_le_of_lt ?_ finite) ?_
  · refine (isNearest_roundBits_natAbs n).mono top ?_
    rw [← Int.cast_abs, ← Int.cast_abs, ← Nat.cast_natAbs, ← Nat.cast_natAbs]
    exact_mod_cast h
  · simp

theorem value_ofInt (n : Int) : (ofInt n).value =
    (if n < 0 then -1 else 1) * binary64.value (binary64.roundBits n.natAbs 1) := by
  have bound := (isNearest_roundBits_natAbs n).le_infinityBits
  rw [ofInt, ofFraction, value_ofMagnitude (bound.trans_lt binary64.infinityBits_lt_signBit)]
  simp

theorem value_ofInt_le {m n : Int} (h : m ≤ n) : (ofInt m).value ≤ (ofInt n).value := by
  have grow : ∀ a b : Int, a.natAbs ≤ b.natAbs → binary64.value (binary64.roundBits a.natAbs 1) ≤
      binary64.value (binary64.roundBits b.natAbs 1) := by
    intro a b le
    rw [BinaryFormat.value_le_value]
    refine (isNearest_roundBits_natAbs a).mono (isNearest_roundBits_natAbs b) ?_
    rw [← Int.cast_abs, ← Int.cast_abs, ← Nat.cast_natAbs, ← Nat.cast_natAbs]
    exact_mod_cast le
  rw [value_ofInt, value_ofInt]
  split_ifs with hm hn hn
  · have := grow n m (by omega)
    linarith
  · have := binary64.value_nonneg (binary64.roundBits m.natAbs 1)
    have := binary64.value_nonneg (binary64.roundBits n.natAbs 1)
    linarith
  · omega
  · have := grow m n (by omega)
    linarith

end Binary64

end RsqlQuery.Number

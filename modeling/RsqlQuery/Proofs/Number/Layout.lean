import RsqlQuery.Proofs.Number.Numeral
import RsqlQuery.Proofs.Number.Shortest
import RsqlQuery.Proofs.Number.Signed

/-!
# The layout of numbers

Where the point of the shortest decimal of a number lies decides its layout, though the library asks
for the number itself: whether it is below one millionth, or not below ten to the twenty-first. The
two agree, since a decimal and the power of ten above it round to one number only if the power
itself is the shorter one. The text denotes the shortest decimal in every layout, so the number is
read back from it, and no other number has that text.

## Main definitions

* `Decimal.layout` — the layout of a decimal.

## Main statements

* `Binary64.isScientific_iff` — the point beyond which numbers are written scientifically.
* `Binary64.text_eq_layout` — the text of a number, and what is read from it.
-/

namespace RsqlQuery.Number

/-- The layout of a decimal: digits up to the point with zeros behind them, digits with the point
among them or in front of them, and beyond that a mantissa with a signed exponent. -/
def Decimal.layout (d : Decimal) : List Char :=
  let length : Int := d.digits.length
  if length ≤ d.point ∧ d.point ≤ 21 then
    d.digits ++ List.replicate (d.point - length).toNat '0'
  else if 0 < d.point ∧ d.point < length then
    d.digits.take d.point.toNat ++ '.' :: d.digits.drop d.point.toNat
  else if -6 < d.point ∧ d.point ≤ 0 then
    '0' :: '.' :: (List.replicate (-d.point).toNat '0' ++ d.digits)
  else mantissa d.digits ++ exponentMark :: exponentText (d.point - 1)

/-! ## Signed exponents -/

theorem head?_toDigits_ne (n : Nat) : (Nat.toDigits 10 n).head? ≠ some '-' := by
  intro minus
  have digit := Nat.isDigit_of_mem_toDigits (b := 10) (by decide) (by decide)
    (List.mem_of_mem_head? minus)
  simp at digit

theorem signExponent_append {front : List Char} (h : exponentMark ∉ front) (n : Int) :
    signExponent (front ++ exponentMark :: integerText n) =
      front ++ exponentMark :: exponentText n := by
  have plain : ∀ c ∈ front, decide (c ≠ exponentMark) = true := by
    intro c hc
    exact decide_eq_true fun same => h (same ▸ hc)
  have behind : (front ++ exponentMark :: integerText n).dropWhile (· ≠ exponentMark) =
      exponentMark :: integerText n := by
    rw [List.dropWhile_append_of_pos plain, List.dropWhile_cons_of_neg (by simp)]
  have before : (front ++ exponentMark :: integerText n).takeWhile (· ≠ exponentMark) = front := by
    rw [List.takeWhile_append_of_pos plain, List.takeWhile_cons_of_neg (by simp), List.append_nil]
  rw [signExponent, behind]
  dsimp only
  rw [before]
  unfold integerText exponentText
  by_cases negative : n < 0
  · rw [if_pos negative, if_pos negative, List.head?_cons, if_pos rfl]
  · rw [if_neg negative, if_neg negative, if_neg (head?_toDigits_ne _)]

theorem exponentMark_not_mem_signed {front : List Char} (h : exponentMark ∉ front)
    (negative : Bool) : exponentMark ∉ Datum.signed negative front := by
  cases negative
  · exact h
  · simpa [Datum.signed, exponentMark] using h

theorem exponentMark_not_mem_mantissa (d : Decimal) : exponentMark ∉ mantissa d.digits := by
  have digits : exponentMark ∉ d.digits := by
    intro mark
    have digit := Decimal.isDigit_of_mem_digits mark
    simp [exponentMark] at digit
  unfold mantissa
  split
  · next cut => simp_all [exponentMark]
  · exact digits

theorem signExponent_scientific (negative : Bool) (d : Decimal) :
    signExponent (Datum.signed negative (scientific d.digits d.point)) =
      Datum.signed negative (mantissa d.digits ++ exponentMark :: exponentText (d.point - 1)) := by
  have move : ∀ front rest, Datum.signed negative (front ++ rest) =
      Datum.signed negative front ++ rest := by
    intro front rest
    cases negative <;> rfl
  rw [scientific, move, move]
  exact signExponent_append
    (exponentMark_not_mem_signed (exponentMark_not_mem_mantissa d) negative) _

namespace Decimal

variable {d : Decimal}

/-- With not too many digits there are two layouts. -/
theorem layout_eq (short : d.digits.length ≤ 21) :
    d.layout = if 21 < d.point ∨ d.point ≤ -6 then
      mantissa d.digits ++ exponentMark :: exponentText (d.point - 1)
    else positional d.digits d.point := by
  have positive : 0 < d.digits.length := List.length_pos_iff.mpr d.digits_ne_nil
  have zeros : (d.point - d.digits.length).toNat = d.point.toNat - d.digits.length := by omega
  unfold layout positional
  dsimp only
  split_ifs <;> first | omega | rfl | rw [zeros]

theorem denotes_layout (short : d.digits.length ≤ 21) : Denotes d.layout d := by
  rw [layout_eq short]
  split_ifs
  · exact denotes_mantissa d
  · exact denotes_positional d

end Decimal

/-! ## The bounds of the positional layout -/

namespace BinaryFormat

variable {f : BinaryFormat} {bits : Nat} {d : Decimal} {n : Int}

/-- A number reaches what a power of ten rounds to exactly if its shortest decimal reaches the power
itself, provided that nine tenths of the power round to less. -/
theorem IsShortest.roundDecimal_le_iff (hd : f.IsShortest bits d) (positive : 0 < bits)
    (lt : f.roundDecimal ⟨9, n - 1⟩ < f.roundDecimal ⟨1, n⟩) :
    f.roundDecimal ⟨1, n⟩ ≤ bits ↔ n < d.point := by
  have power := f.isNearest_roundDecimal ⟨1, n⟩
  have less := f.isNearest_roundDecimal ⟨9, n - 1⟩
  generalize f.roundDecimal ⟨1, n⟩ = bound at *
  have reaches := Decimal.tenPow_le_value_iff (significand_pos positive hd.isNearest) (n := n)
  rw [← reaches, ← Decimal.value_tenPow]
  refine ⟨fun le => ?_, fun le => power.mono hd.isNearest le⟩
  by_contra short
  -- The power rounds to the number too, and has one digit.
  obtain rfl : bound = bits := le_antisymm le (hd.isNearest.mono power (not_le.mp short).le)
  have one : decimalLength d.significand = 1 := by
    have := hd.length_le _ power
    have := decimalLength_pos d.significand
    rw [decimalLength_one] at *
    omega
  have digit : (d.significand : ℚ) ≤ 9 := by
    have := lt_tenPow_decimalLength d.significand
    rw [one] at this
    exact_mod_cast Nat.le_of_lt_succ this
  have exponent : d.exponent ≤ n - 1 := by
    rw [Decimal.value_tenPow, reaches, Decimal.point, one] at short
    omega
  have tenth : (10 : ℚ) ^ d.exponent ≤ 10 ^ (n - 1) := zpow_le_zpow_right₀ (by norm_num) exponent
  have ninth : d.value ≤ (⟨9, n - 1⟩ : Decimal).value := by
    rw [Decimal.value, Decimal.value]
    push_cast
    gcongr
  have := hd.isNearest.mono less ninth
  omega

end BinaryFormat

namespace Binary64

variable {x : Binary64} {negative : Bool} {significand shift : Nat} {d : Decimal}

theorem exists_datum_ofDecimal (finite : binary64.roundDecimal d < binary64.infinityBits) :
    ∃ m k, (ofDecimal false d).datum = .finite false m k ∧
      (ofDecimal false d).magnitudeBits = binary64.roundDecimal d := by
  obtain ⟨m, k, -, -, datum⟩ := exists_datum_ofMagnitude false finite
  exact ⟨m, k, datum, magnitudeBits_ofMagnitude (finite.trans binary64.infinityBits_lt_signBit)⟩

/-- A number is written scientifically where the point of its shortest decimal lies far from its
digits. -/
theorem isScientific_iff (hx : x.datum = .finite negative significand shift)
    (positive : 0 < x.magnitudeBits) (hd : binary64.IsShortest x.magnitudeBits d) :
    x.isScientific = true ↔ 21 < d.point ∨ d.point ≤ -6 := by
  obtain ⟨_, _, abs, same⟩ := exists_datum_abs hx
  obtain ⟨_, _, upper, upperBits⟩ := exists_datum_ofDecimal (d := ⟨1, 21⟩) (by decide +kernel)
  obtain ⟨_, _, lower, lowerBits⟩ := exists_datum_ofDecimal (d := ⟨1, -6⟩) (by decide +kernel)
  have from21 := hd.roundDecimal_le_iff positive (n := 21) (by decide +kernel)
  have fromMinus6 := hd.roundDecimal_le_iff positive (n := -6) (by decide +kernel)
  rw [isScientific, Bool.or_eq_true, scientificFrom, scientificBelow, atMost_iff upper abs,
    below_iff abs lower, same, upperBits, lowerBits]
  exact or_congr from21 (by rw [← not_le, fromMinus6, not_lt])

/-! ## The text of a number -/

section Text

variable (hx : x.datum = .finite negative significand shift) (nonzero : significand ≠ 0)
include hx nonzero

theorem magnitudeBits_pos : 0 < x.magnitudeBits := by
  rw [← (isFinite_of_datum hx).2]
  exact BinaryFormat.magnitude_pos _ _ (Nat.pos_of_ne_zero nonzero)

theorem isShortest_shortest :
    binary64.IsShortest x.magnitudeBits (binary64.shortest significand shift) := by
  obtain ⟨isFinite, magnitude⟩ := isFinite_of_datum hx
  rw [← magnitude]
  exact BinaryFormat.isShortest_shortest isFinite (Nat.pos_of_ne_zero nonzero)
    BinaryFormat.closePowers_binary64

/-- No shortest decimal has more than seventeen digits. -/
theorem length_digits_le (hd : binary64.IsShortest x.magnitudeBits d) : d.digits.length ≤ 17 := by
  obtain ⟨isFinite, magnitude⟩ := isFinite_of_datum hx
  rw [← magnitude] at hd
  exact hd.digits_le isFinite (Nat.pos_of_ne_zero nonzero) 16 (by decide)

theorem toList_text : x.text.toList =
    Datum.signed negative (binary64.shortest significand shift).layout := by
  have hd := isShortest_shortest hx nonzero
  have short := length_digits_le hx nonzero hd
  have scientific := isScientific_iff hx (magnitudeBits_pos hx nonzero) hd
  obtain ⟨n, rfl⟩ := Nat.exists_eq_succ_of_ne_zero nonzero
  rw [Decimal.layout_eq (short.trans (by decide)), text, String.toList_ofList, hx]
  change (if x.isScientific = true then signExponent (Datum.signed negative _)
    else Datum.signed negative _) = _
  by_cases far : x.isScientific = true
  · rw [if_pos far, if_pos (scientific.mp far)]
    exact signExponent_scientific negative _
  · rw [if_neg far, if_neg (scientific.not.mp far)]

/-- The number of a text is the number that was written. -/
theorem parse?_toList_text : parse? x.text.toList = some x := by
  have hd := isShortest_shortest hx nonzero
  have short := length_digits_le hx nonzero hd
  obtain ⟨bits, nearest, read⟩ :=
    (Decimal.denotes_layout (short.trans (by decide))).parse?_signed negative
  rw [toList_text hx nonzero, read, nearest.unique hd.isNearest, ofMagnitude_magnitudeBits hx]

/-- A finite number but zero is written in the layout of its shortest decimal, and scientifically
where the point lies far off. The text denotes that decimal, the number read from it is the number
itself, and no other number has that text. -/
theorem text_eq_layout : ∃ d : Decimal,
    binary64.IsShortest x.magnitudeBits d ∧
    x.text.toList = Datum.signed negative d.layout ∧
    (x.isScientific = true ↔ 21 < d.point ∨ d.point ≤ -6) ∧
    (∃ e, readNumeral? x.text.toList = some (negative, e) ∧ e.value = d.value) ∧
    parse? x.text.toList = some x ∧
    ∀ (y : Binary64) (sign : Bool) (m k : Nat), y.datum = .finite sign m k → m ≠ 0 →
      y.text = x.text → y = x := by
  have hd := isShortest_shortest hx nonzero
  have short := length_digits_le hx nonzero hd
  have read := parse?_toList_text hx nonzero
  refine ⟨_, hd, toList_text hx nonzero,
    isScientific_iff hx (magnitudeBits_pos hx nonzero) hd, ?_, read, ?_⟩
  · rw [toList_text hx nonzero]
    exact (Decimal.denotes_layout (short.trans (by decide))).readNumeral?_signed negative
  · intro y sign m k hy other same
    have again := parse?_toList_text hy other
    rw [same, read] at again
    exact (Option.some.inj again).symm

end Text

/-- A small negative number, its text, and what the text denotes. -/
theorem text_eq_layout_negative_small :
    let x : Binary64 := ⟨0xBE8421F5F40D8376⟩
    x.datum = .finite true 5666839779443574 999 ∧ 5666839779443574 ≠ 0 ∧
    x.text = "-1.5e-7" ∧ parse? "-1.5e-7".toList = some x ∧
    ∃ d, binary64.IsShortest x.magnitudeBits d ∧ d.value = (⟨15, -8⟩ : Decimal).value := by
  intro x
  have datum : x.datum = .finite true 5666839779443574 999 := by decide +kernel
  have text : x.text = "-1.5e-7" := by decide +kernel
  have numeral : readNumeral? "-1.5e-7".toList = some (true, ⟨15, -8⟩) := by decide
  obtain ⟨d, shortest, -, -, ⟨e, denoted, same⟩, read, -⟩ := text_eq_layout datum (by decide)
  rw [text, numeral, Option.some.injEq, Prod.mk.injEq] at denoted
  exact ⟨datum, by decide, text, text ▸ read, d, shortest, denoted.2 ▸ same.symm⟩

end Binary64

end RsqlQuery.Number

import RsqlQuery.Number.Numeral
import RsqlQuery.Proofs.Number.Layout

/-!
# Numbers of the narrow format in the wide one

A number of the narrow format becomes the number of the wide format that is nearest to its shortest
decimal. That decimal has at most nine digits, and the wide format tells all such decimals apart, so
it is the shortest decimal of the wide number as well: the number is written as it would have been
in its own format. The range of the narrow format lies inside the normal numbers of the wide one,
where the digits suffice.

## Main statements

* `Binary32.exists_datum_widen` — the wide number is the one nearest to the shortest decimal.
* `Binary32.isShortest_widen` — that decimal is the shortest one of the wide number, too.
* `Binary32.toList_text_widen` — the text of the wide number is the layout of that decimal.
-/

namespace RsqlQuery.Number

/-- What rounds to a positive finite number of the narrow format rounds to a normal one of the wide
format. -/
theorem normal_of_isNearest_narrow {q : ℚ} {b c : Nat} (positive : 0 < b)
    (finite : b < binary32.infinityBits) (hb : binary32.IsNearest q b)
    (hc : binary64.IsNearest q c) : 2 ^ binary64.fractionBits ≤ c ∧ c < binary64.infinityBits := by
  constructor
  · -- Where the narrow format has nothing but zero, the wide one still has normal numbers.
    have narrow := binary32.isNearest_roundBits 1 (Nat.two_pow_pos 200)
    have wide := binary64.isNearest_roundBits 1 (Nat.two_pow_pos 200)
    rw [show binary32.roundBits 1 (2 ^ 200) = 0 by decide +kernel] at narrow
    have above : 2 ^ binary64.fractionBits ≤ binary64.roundBits 1 (2 ^ 200) := by decide +kernel
    refine above.trans (wide.mono hc ?_)
    by_contra below
    have := hb.mono narrow (not_le.mp below).le
    omega
  · -- Where the narrow format overflows, the wide one does not yet.
    have narrow := binary32.isNearest_roundBits (2 ^ 128) Nat.one_pos
    have wide := binary64.isNearest_roundBits (2 ^ 128) Nat.one_pos
    rw [show binary32.roundBits (2 ^ 128) 1 = binary32.infinityBits by decide +kernel] at narrow
    have below : binary64.roundBits (2 ^ 128) 1 < binary64.infinityBits := by decide +kernel
    refine (hc.mono wide ?_).trans_lt below
    by_contra above
    have := narrow.mono hb (not_le.mp above).le
    omega

namespace Binary32

variable {x : Binary32} {negative : Bool} {significand shift : Nat} {d : Decimal}

theorem widen_of_parse? {datum : Datum} (hx : x.datum = datum) {w : Binary64}
    (read : Binary64.parse? (datum.positional binary32) = some w) : x.widen = w := by
  rw [widen, hx, read, Option.getD_some]

section Finite

variable (hx : x.datum = .finite negative significand shift) (nonzero : significand ≠ 0)
include hx nonzero

theorem isShortest_shortest :
    binary32.IsShortest (binary32.magnitude significand shift)
      (binary32.shortest significand shift) :=
  BinaryFormat.isShortest_shortest (BinaryFormat.isFinite_of_datum hx).1
    (Nat.pos_of_ne_zero nonzero) BinaryFormat.closePowers_binary32

omit hx in
theorem positional_finite : (Datum.finite negative significand shift).positional binary32 =
    Datum.signed negative (positional (binary32.shortest significand shift).digits
      (binary32.shortest significand shift).point) := by
  obtain ⟨n, rfl⟩ := Nat.exists_eq_succ_of_ne_zero nonzero
  rfl

/-- The wide number is a finite one that is nearest to the shortest decimal. -/
theorem exists_datum_widen : ∃ m k, x.widen.datum = .finite negative m k ∧
    2 ^ binary64.fractionBits ≤ m ∧
    binary64.IsNearest (binary32.shortest significand shift).value x.widen.magnitudeBits := by
  obtain ⟨isFinite, -, -⟩ := BinaryFormat.isFinite_of_datum hx
  have positive := BinaryFormat.magnitude_pos binary32 shift (Nat.pos_of_ne_zero nonzero)
  obtain ⟨bits, nearest, read⟩ :=
    (denotes_positional (binary32.shortest significand shift)).parse?_signed negative
  obtain ⟨normal, finite⟩ := normal_of_isNearest_narrow positive isFinite.finite
    (isShortest_shortest hx nonzero).isNearest nearest
  have widened : x.widen = .ofMagnitude negative bits :=
    widen_of_parse? hx (positional_finite nonzero ▸ read)
  obtain ⟨m, k, wide, same, datum⟩ := Binary64.exists_datum_ofMagnitude negative finite
  rw [widened, Binary64.magnitudeBits_ofMagnitude (finite.trans binary64.infinityBits_lt_signBit)]
  exact ⟨m, k, datum, wide.full_of_le (same ▸ normal), nearest⟩

/-- The shortest decimal of the narrow number is that of the wide one. -/
theorem isShortest_widen :
    binary64.IsShortest x.widen.magnitudeBits (binary32.shortest significand shift) := by
  obtain ⟨m, k, datum, full, nearest⟩ := exists_datum_widen hx nonzero
  obtain ⟨isFinite, magnitude⟩ := Binary64.isFinite_of_datum datum
  have narrow := isShortest_shortest hx nonzero
  have wide := Binary64.isShortest_shortest datum (by rintro rfl; simp at full)
  set d := binary32.shortest significand shift
  set e := binary64.shortest m k
  have few : decimalLength d.significand ≤ 9 :=
    narrow.digits_le (BinaryFormat.isFinite_of_datum hx).1 (Nat.pos_of_ne_zero nonzero)
      8 (by decide)
  have shorter : decimalLength e.significand ≤ decimalLength d.significand :=
    wide.length_le d nearest
  have same : d.value = e.value := by
    have other := wide.isNearest
    rw [← magnitude] at nearest other
    exact BinaryFormat.value_eq_of_isNearest isFinite full 9 (by decide) nearest other
      few (shorter.trans few)
  have longer : decimalLength d.significand ≤ decimalLength e.significand :=
    narrow.length_le e (same ▸ narrow.isNearest)
  have positive : 0 < d.significand :=
    BinaryFormat.significand_pos (BinaryFormat.magnitude_pos _ _ (Nat.pos_of_ne_zero nonzero))
      narrow.isNearest
  rw [Decimal.eq_of_value_eq positive same (le_antisymm longer shorter)]
  exact wide

theorem toList_text_widen : x.widen.text.toList =
    Datum.signed negative (binary32.shortest significand shift).layout := by
  obtain ⟨m, k, datum, full, -⟩ := exists_datum_widen hx nonzero
  have nonzero' : m ≠ 0 := by rintro rfl; simp at full
  have same : binary64.shortest m k = binary32.shortest significand shift :=
    (Binary64.isShortest_shortest datum nonzero').unique
      (Binary64.magnitudeBits_pos datum nonzero') (isShortest_widen hx nonzero)
  rw [Binary64.toList_text datum nonzero', same]

theorem length_digits_le : (binary32.shortest significand shift).digits.length ≤ 9 :=
  (isShortest_shortest hx nonzero).digits_le (BinaryFormat.isFinite_of_datum hx).1
    (Nat.pos_of_ne_zero nonzero) 8 (by decide)

end Finite

/-! ## Other numbers -/

theorem datum_widen_of_nan (hx : x.datum = .nan) : x.widen.datum = .nan := by
  have read : Binary64.parse? "NaN".toList = some (.ofMagnitude false binary64.nanBits) := by
    decide +kernel
  rw [widen_of_parse? hx read]
  decide +kernel

theorem datum_widen_of_infinity (hx : x.datum = .infinity negative) :
    x.widen.datum = .infinity negative := by
  have read : Binary64.parse? (Datum.signed negative "inf".toList) =
      some (.ofMagnitude negative binary64.infinityBits) := by
    cases negative <;> decide +kernel
  rw [widen_of_parse? hx read]
  cases negative <;> decide +kernel

theorem text_widen_of_zero (hx : x.datum = .finite negative 0 shift) : x.widen.text = "0" := by
  have read : Binary64.parse? (Datum.signed negative "0".toList) =
      some (.ofMagnitude negative 0) := by
    cases negative <;> decide +kernel
  rw [widen_of_parse? hx read]
  cases negative <;> decide +kernel

end Binary32

end RsqlQuery.Number

import RsqlQuery.Proofs.Number.Signed
import RsqlQuery.Proofs.Number.Widening
import RsqlQuery.Value.Conversion

/-!
# The values of numbers

An integer of any type becomes the integer with its value where that fits sixty-four bits, and else
the float nearest to it. Both keep the order, and so does the step from one to the other, since the
bounds of sixty-four bits are floats themselves. A float of the narrow format becomes a float that
is written as it would have been in its own format.

## Main definitions

* `Value.numeric?` — the fraction a finite number denotes.

## Main statements

* `Value.toValue_integer` — the value of an integer, and the order of such values.
* `Value.toValue_binary32` — the value of a float of the narrow format.
-/

namespace RsqlQuery

open Number

/-! ## Integers -/

namespace IntegerType

theorem fits_of_not_isChecked {t : IntegerType} (h : t.isChecked = false) :
    -2 ^ 63 ≤ t.least ∧ t.greatest < 2 ^ 63 := by
  cases t <;> first | exact Bool.noConfusion h | decide

theorem neg_le_least (t : IntegerType) : -2 ^ 128 ≤ t.least := by
  cases t <;> decide

theorem greatest_le (t : IntegerType) : t.greatest ≤ 2 ^ 128 := by
  cases t <;> decide

end IntegerType

namespace Value

/-- The fraction a number denotes, if it is finite. -/
def numeric? : Value → Option ℚ
  | .int n => some n.toInt
  | .float x => if x.IsFinite then some x.value else none
  | _ => none

/-- The integers that fit sixty-four bits. -/
def Fits (n : Int) : Prop := -2 ^ 63 ≤ n ∧ n < 2 ^ 63

instance (n : Int) : Decidable (Fits n) := inferInstanceAs (Decidable (_ ∧ _))

theorem ofChecked_of_fits {n : Int} (h : Fits n) : ofChecked n = .int (Int64.ofInt n) :=
  if_pos ⟨h.1, Int.le_of_lt_add_one h.2⟩

theorem ofChecked_of_not_fits {n : Int} (h : ¬Fits n) : ofChecked n = .float (.ofInt n) :=
  if_neg fun bounds => h ⟨bounds.1, Int.lt_add_one_of_le bounds.2⟩

theorem toInt_ofInt {n : Int} (h : Fits n) : (Int64.ofInt n).toInt = n :=
  Int64.toInt_ofInt_of_le h.1 h.2

/-- The types that are cast without a check have no integers that do not fit. -/
theorem toValue_eq_ofChecked {t : IntegerType} (x : Integer t) : toValue x = ofChecked x.val := by
  have unfolded : toValue x = if t.isChecked then ofChecked x.val else ofCast x.val := rfl
  cases checked : t.isChecked with
  | true => rw [unfolded, checked, if_pos rfl]
  | false =>
    obtain ⟨least, greatest⟩ := IntegerType.fits_of_not_isChecked checked
    have fits : Fits x.val := ⟨least.trans x.least_le, x.le_greatest.trans_lt greatest⟩
    rw [unfolded, checked, if_neg Bool.false_ne_true, ofChecked_of_fits fits, ofCast]

theorem natAbs_val_le {t : IntegerType} (x : Integer t) : x.val.natAbs ≤ 2 ^ 128 := by
  have least := t.neg_le_least.trans x.least_le
  have greatest := x.le_greatest.trans t.greatest_le
  omega

/-! ### Order -/

/-- The bounds of sixty-four bits are floats. -/
theorem value_roundBits_bound : binary64.value (binary64.roundBits (2 ^ 63) 1) = 2 ^ 63 := by
  have units : binary64.units (binary64.roundBits (2 ^ 63) 1) = 2 ^ 63 * 2 ^ binary64.scale := by
    decide +kernel
  rw [BinaryFormat.value, units, Nat.cast_mul, Nat.cast_pow, Nat.cast_pow, Nat.cast_ofNat,
    mul_div_cancel_right₀ _ (by positivity)]

theorem value_ofInt_upper : (Binary64.ofInt (2 ^ 63)).value = 2 ^ 63 := by
  rw [Binary64.value_ofInt, show (2 ^ 63 : Int).natAbs = 2 ^ 63 by decide, value_roundBits_bound,
    if_neg (by decide), one_mul]

theorem value_ofInt_lower : (Binary64.ofInt (-2 ^ 63)).value = -2 ^ 63 := by
  rw [Binary64.value_ofInt, show (-2 ^ 63 : Int).natAbs = 2 ^ 63 by decide, value_roundBits_bound,
    if_pos (by decide), neg_one_mul]

/-- The fraction an integer becomes. -/
def rounded (n : Int) : ℚ := if Fits n then n else (Binary64.ofInt n).value

theorem numeric?_toValue {t : IntegerType} (x : Integer t) :
    numeric? (toValue x) = some (rounded x.val) := by
  rw [toValue_eq_ofChecked]
  unfold rounded
  split_ifs with fits
  · rw [ofChecked_of_fits fits, numeric?, toInt_ofInt fits]
  · have nearest := Binary64.isNearest_ofInt (natAbs_val_le x)
    rw [ofChecked_of_not_fits fits, numeric?, if_pos nearest.isFinite]

theorem rounded_le {a b : Int} (le : a ≤ b) : rounded a ≤ rounded b := by
  unfold rounded
  split_ifs with ha hb hb
  · exact_mod_cast le
  · have above : 2 ^ 63 ≤ b := not_lt.mp fun below => hb ⟨ha.1.trans le, below⟩
    calc (a : ℚ) ≤ 2 ^ 63 := by exact_mod_cast ha.2.le
      _ = (Binary64.ofInt (2 ^ 63)).value := value_ofInt_upper.symm
      _ ≤ (Binary64.ofInt b).value := Binary64.value_ofInt_le above
  · have below : a ≤ -2 ^ 63 := (not_le.mp fun above => ha ⟨above, le.trans_lt hb.2⟩).le
    calc (Binary64.ofInt a).value ≤ (Binary64.ofInt (-2 ^ 63)).value :=
          Binary64.value_ofInt_le below
      _ = -2 ^ 63 := value_ofInt_lower
      _ ≤ b := by exact_mod_cast hb.1
  · exact Binary64.value_ofInt_le le

/-- An integer becomes the integer with its own value exactly if it fits sixty-four bits, and
otherwise the float nearest to it. Integers in order, of whatever types, become numbers in order. -/
theorem toValue_integer {t : IntegerType} (x : Integer t) :
    ((∃ n : Int64, toValue x = .int n ∧ n.toInt = x.val) ↔ -2 ^ 63 ≤ x.val ∧ x.val < 2 ^ 63) ∧
    (¬(-2 ^ 63 ≤ x.val ∧ x.val < 2 ^ 63) →
      ∃ f : Binary64, toValue x = .float f ∧ f.IsNearest x.val) ∧
    ∀ {u : IntegerType} (y : Integer u), x.val ≤ y.val →
      ∃ a b, numeric? (toValue x) = some a ∧ numeric? (toValue y) = some b ∧ a ≤ b := by
  refine ⟨⟨?_, fun fits => ?_⟩, fun outside => ?_, fun y le => ?_⟩
  · rintro ⟨n, same, value⟩
    by_contra outside
    rw [toValue_eq_ofChecked, ofChecked_of_not_fits outside] at same
    cases same
  · exact ⟨_, (toValue_eq_ofChecked x).trans (ofChecked_of_fits fits), toInt_ofInt fits⟩
  · exact ⟨_, (toValue_eq_ofChecked x).trans (ofChecked_of_not_fits outside),
      Binary64.isNearest_ofInt (natAbs_val_le x)⟩
  · exact ⟨_, _, numeric?_toValue x, numeric?_toValue y, rounded_le le⟩

/-! ## Floats of the narrow format -/

/-- A finite float of the narrow format is written in the layout of its own shortest decimal, which
is what its positional form denotes; what is not finite stays as it is. -/
theorem toValue_binary32 (x : Binary32) :
    ∃ w : Binary64, toValue x = .float w ∧
      match x.datum with
      | .nan => w.datum = .nan
      | .infinity negative => w.datum = .infinity negative
      | .finite _ 0 _ => w.text = "0"
      | .finite negative significand shift =>
        ∃ d, binary32.IsShortest (binary32.magnitude significand shift) d ∧
          (∃ e, readNumeral? (x.datum.positional binary32) = some (negative, e) ∧
            e.value = d.value) ∧
          w.text.toList = Datum.signed negative d.layout ∧
          ∃ e, readNumeral? w.text.toList = some (negative, e) ∧ e.value = d.value := by
  refine ⟨x.widen, rfl, ?_⟩
  split
  · next hx => exact Binary32.datum_widen_of_nan hx
  · next negative hx => exact Binary32.datum_widen_of_infinity hx
  · next negative shift hx => exact Binary32.text_widen_of_zero hx
  · next negative significand shift zero hx =>
    have nonzero : significand ≠ 0 := by simpa using zero
    have short := (Binary32.length_digits_le hx nonzero).trans (by decide : 9 ≤ 21)
    have text := Binary32.toList_text_widen hx nonzero
    refine ⟨_, Binary32.isShortest_shortest hx nonzero, ?_, text, ?_⟩
    · rw [hx, Binary32.positional_finite nonzero]
      exact (denotes_positional _).readNumeral?_signed negative
    · rw [text]
      exact (Decimal.denotes_layout short).readNumeral?_signed negative

end Value

end RsqlQuery

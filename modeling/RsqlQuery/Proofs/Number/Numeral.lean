import RsqlQuery.Number.Layout
import RsqlQuery.Number.Numeral
import RsqlQuery.Proofs.Number.Alphabet
import RsqlQuery.Proofs.Number.Decimal
import RsqlQuery.Proofs.Number.Nearest

/-!
# Reading numbers back

Every layout of the digits of a decimal is a numeral of that decimal. With the point among or in
front of the digits, or behind the first one with an exponent, even the digits and the power of ten
come back; zeros that fill the gap up to the point come back as digits. The number read from a
numeral is the one nearest to its decimal.

## Main definitions

* `Denotes` — a text is a numeral without a sign, and of a given decimal.
* `exponentText` — an exponent with its sign.
* `BinaryFormat.roundDecimal` — the magnitude bits a decimal rounds to.

## Main statements

* `denotes_positional`, `denotes_mantissa` — the layouts of a decimal denote it.
* `Denotes.readNumeral?_signed`, `Denotes.parse?_signed` — a sign in front of a numeral.
-/

namespace RsqlQuery.Number

/-! ## The parts of a numeral -/

theorem Decimal.isDigit_of_mem_digits {d : Decimal} {c : Char} (h : c ∈ d.digits) :
    c.isDigit = true :=
  Nat.isDigit_of_mem_toDigits (by decide) (by decide) h

theorem Decimal.digits_ne_nil (d : Decimal) : d.digits ≠ [] := Nat.toDigits_ne_nil

theorem Decimal.ofDigitChars_digits (d : Decimal) :
    Nat.ofDigitChars 10 d.digits 0 = d.significand := Nat.ofDigitChars_ten_toDigits

theorem readDigits?_eq {text : List Char} (ne : text ≠ []) (digits : ∀ c ∈ text, c.isDigit = true) :
    readDigits? text = some (Nat.ofDigitChars 10 text 0) :=
  if_pos ⟨ne, List.all_eq_true.mpr digits⟩

section Parts

variable {whole fraction rest : List Char} (hw : ∀ c ∈ whole, c.isDigit = true)
  (hf : ∀ c ∈ fraction, c.isDigit = true) (hr : ∀ c ∈ rest.head?, c.isDigit = false)
include hw hr

/-- Digits without a point. -/
theorem readDecimal?_whole (ne : whole ≠ []) (point : '.' ∉ rest.head?) :
    readDecimal? (whole ++ rest) =
      (readExponent? rest).map fun exponent => ⟨Nat.ofDigitChars 10 whole 0, exponent⟩ := by
  have noFraction : readFraction rest = ([], rest) := by
    unfold readFraction
    split
    · simp at point
    · rfl
  unfold readDecimal?
  dsimp only
  rw [takeWhile_digits hw hr, dropWhile_digits hw hr, noFraction, List.append_nil,
    readDigits?_eq ne hw]
  cases readExponent? rest <;> simp

include hf in
/-- Digits with a point among them. -/
theorem readDecimal?_point (ne : whole ++ fraction ≠ []) :
    readDecimal? (whole ++ '.' :: (fraction ++ rest)) =
      (readExponent? rest).map fun exponent =>
        ⟨Nat.ofDigitChars 10 (whole ++ fraction) 0, exponent - fraction.length⟩ := by
  have stop : ∀ c ∈ ('.' :: (fraction ++ rest)).head?, c.isDigit = false := by simp
  have digits : ∀ c ∈ whole ++ fraction, c.isDigit = true := by
    intro c hc
    exact (List.mem_append.mp hc).elim (hw c) (hf c)
  unfold readDecimal?
  dsimp only
  rw [takeWhile_digits hw stop, dropWhile_digits hw stop, readFraction, takeWhile_digits hf hr,
    dropWhile_digits hf hr, readDigits?_eq ne digits]
  cases readExponent? rest <;> simp

end Parts

/-- An exponent with its sign. -/
def exponentText (n : Int) : List Char := (if n < 0 then '-' else '+') :: Nat.toDigits 10 n.natAbs

theorem readExponent?_exponentText (n : Int) :
    readExponent? (exponentMark :: exponentText n) = some n := by
  have digits : readDigits? (Nat.toDigits 10 n.natAbs) = some n.natAbs := by
    rw [readDigits?_eq Nat.toDigits_ne_nil
      fun c hc => Nat.isDigit_of_mem_toDigits (by decide) (by decide) hc,
      Nat.ofDigitChars_ten_toDigits]
  rw [readExponent?, if_pos (.inl rfl), exponentText]
  split_ifs with negative
  · simp [readSign, digits, abs_of_neg negative]
  · simp [readSign, digits, abs_of_nonneg (not_lt.mp negative)]

/-! ## What a text denotes -/

/-- A text is a numeral without a sign, and of a decimal with a given value. -/
def Denotes (text : List Char) (d : Decimal) : Prop :=
  ∃ e, readDecimal? text = some e ∧ e.value = d.value

variable {text : List Char} {d : Decimal}

section Denotes

variable {whole fraction rest : List Char} {exponent : Int} (hw : ∀ c ∈ whole, c.isDigit = true)
  (hf : ∀ c ∈ fraction, c.isDigit = true) (hr : ∀ c ∈ rest.head?, c.isDigit = false)
  (he : readExponent? rest = some exponent)
include hw hr he

/-- Digits without a point, to the power that stands behind them. -/
theorem denotes_of_whole (ne : whole ≠ []) (point : '.' ∉ rest.head?)
    (value : Nat.ofDigitChars 10 whole 0 * 10 ^ exponent = d.value) :
    Denotes (whole ++ rest) d := by
  refine ⟨⟨Nat.ofDigitChars 10 whole 0, exponent⟩, ?_, value⟩
  rw [readDecimal?_whole hw hr ne point, he, Option.map_some]

include hf in
/-- The digits of a decimal, with the point where its power and the one behind them put it. -/
theorem denotes_of_point (ne : whole ++ fraction ≠ [])
    (significand : Nat.ofDigitChars 10 (whole ++ fraction) 0 = d.significand)
    (power : d.exponent = exponent - fraction.length) :
    Denotes (whole ++ '.' :: (fraction ++ rest)) d := by
  refine ⟨d, ?_, rfl⟩
  rw [readDecimal?_point hw hf hr ne, he, Option.map_some, significand, ← power]

end Denotes

theorem isDigit_of_mem_append {front back : List Char} (hf : ∀ c ∈ front, c.isDigit = true)
    (hb : ∀ c ∈ back, c.isDigit = true) : ∀ c ∈ front ++ back, c.isDigit = true :=
  fun c hc => (List.mem_append.mp hc).elim (hf c) (hb c)

theorem denotes_positional (d : Decimal) : Denotes (positional d.digits d.point) d := by
  have digits : ∀ c ∈ d.digits, c.isDigit = true := fun _ => Decimal.isDigit_of_mem_digits
  have zeros : ∀ n, ∀ c ∈ List.replicate n '0', c.isDigit = true := by
    intro n c hc
    rw [List.eq_of_mem_replicate hc]
    rfl
  have stop : ∀ c ∈ ([] : List Char).head?, c.isDigit = false := by simp
  have nothing : readExponent? [] = some 0 := rfl
  have length : d.point = d.digits.length + d.exponent := rfl
  unfold positional
  split_ifs with front behind
  · -- Zeros behind the point do not count.
    have fraction := isDigit_of_mem_append (zeros (-d.point).toNat) digits
    have text := denotes_of_point (d := d) (zeros 1) fraction stop nothing (by simp) ?_ ?_
    · simpa using text
    · rw [Nat.ofDigitChars_append, Nat.ofDigitChars_append, Nat.ofDigitChars_replicate_zero,
        Nat.ofDigitChars_replicate_zero, Nat.mul_zero, d.ofDigitChars_digits]
    · rw [List.length_append, List.length_replicate]
      omega
  · -- Zeros up to the point are digits of the number that is read.
    obtain ⟨n, hn⟩ : ∃ n : Nat, d.exponent = n := ⟨d.exponent.toNat, by omega⟩
    have gap : d.point.toNat - d.digits.length = n := by omega
    have text := denotes_of_whole (d := d) (isDigit_of_mem_append digits (zeros n)) stop nothing
      (by simp [d.digits_ne_nil]) (by simp) ?_
    · simpa [gap] using text
    · rw [Nat.ofDigitChars_append, d.ofDigitChars_digits, Nat.ofDigitChars_replicate_zero,
        Decimal.value, hn, zpow_natCast, zpow_zero]
      push_cast
      ring
  · have whole : ∀ c ∈ d.digits.take d.point.toNat, c.isDigit = true :=
      fun c hc => digits c (List.mem_of_mem_take hc)
    have fraction : ∀ c ∈ d.digits.drop d.point.toNat, c.isDigit = true :=
      fun c hc => digits c (List.mem_of_mem_drop hc)
    have text := denotes_of_point (d := d) whole fraction stop nothing ?_ ?_ ?_
    · simpa using text
    · rw [List.take_append_drop]
      exact d.digits_ne_nil
    · rw [List.take_append_drop, d.ofDigitChars_digits]
    · rw [List.length_drop]
      omega

theorem denotes_mantissa (d : Decimal) :
    Denotes (mantissa d.digits ++ exponentMark :: exponentText (d.point - 1)) d := by
  have digits : ∀ c ∈ d.digits, c.isDigit = true := fun _ => Decimal.isDigit_of_mem_digits
  have length : d.point = d.digits.length + d.exponent := rfl
  have value := d.ofDigitChars_digits
  have ne := d.digits_ne_nil
  have stop : ∀ c ∈ (exponentMark :: exponentText (d.point - 1)).head?, c.isDigit = false := by
    simp [exponentMark]
  have exponent := readExponent?_exponentText (d.point - 1)
  unfold mantissa
  split
  · next first second rest cut =>
    rw [cut] at digits value length
    have whole : ∀ c ∈ [first], c.isDigit = true := by
      simpa using digits first List.mem_cons_self
    have fraction : ∀ c ∈ second :: rest, c.isDigit = true :=
      fun c hc => digits c (List.mem_cons_of_mem _ hc)
    refine denotes_of_point whole fraction stop exponent (by simp) value ?_
    simp only [List.length_cons] at length ⊢
    push_cast at length ⊢
    omega
  · next short =>
    have one : d.digits.length = 1 := by
      cases cut : d.digits with
      | nil => exact absurd cut ne
      | cons first rest =>
        cases rest with
        | nil => rfl
        | cons second rest => exact absurd cut (short first second rest)
    refine denotes_of_whole digits stop exponent ne (by simp [exponentMark]) ?_
    rw [value, Decimal.value, show d.point - 1 = d.exponent by omega]

/-! ## Signs -/

theorem le_nine_of_isDigit {c : Char} (h : c.isDigit = true) : c.val ≤ '9'.val := by
  simp only [Char.isDigit, Bool.and_eq_true, decide_eq_true_eq] at h
  exact h.2

/-- What denotes a decimal starts with a digit or a point, and not with a sign or a letter. -/
theorem Denotes.exists_cons (h : Denotes text d) :
    ∃ c rest, text = c :: rest ∧ c ≠ '-' ∧ c ≠ '+' ∧ c.val ≤ '9'.val := by
  obtain ⟨e, read, -⟩ := h
  cases text with
  | nil => simp [readDecimal?, readFraction, readDigits?] at read
  | cons c rest =>
    by_cases digit : c.isDigit = true
    · refine ⟨c, rest, rfl, ?_, ?_, le_nine_of_isDigit digit⟩ <;> rintro rfl <;> simp at digit
    · by_cases point : c = '.'
      · subst point
        exact ⟨_, rest, rfl, by decide⟩
      · have noFraction : readFraction (c :: rest) = ([], c :: rest) := by
          unfold readFraction
          split
          · simp_all
          · rfl
        simp [readDecimal?, digit, noFraction, readDigits?] at read

theorem Denotes.readSign_signed (h : Denotes text d) (negative : Bool) :
    readSign (Datum.signed negative text) = (negative, text) := by
  obtain ⟨c, rest, rfl, minus, plus, -⟩ := h.exists_cons
  cases negative with
  | true => rfl
  | false => simp [Datum.signed, readSign, minus, plus]

theorem Denotes.readNumeral?_signed (h : Denotes text d) (negative : Bool) :
    ∃ e, readNumeral? (Datum.signed negative text) = some (negative, e) ∧ e.value = d.value := by
  obtain ⟨e, read, same⟩ := h
  refine ⟨e, ?_, same⟩
  rw [readNumeral?, Denotes.readSign_signed ⟨e, read, same⟩]
  simp [read]

/-- Such a text is not a name. -/
theorem Denotes.map_toLower_ne (h : Denotes text d) {name : List Char}
    (letter : name.head?.all (fun c => '9'.val < c.val) = true) : text.map Char.toLower ≠ name := by
  obtain ⟨c, rest, rfl, -, -, low⟩ := h.exists_cons
  have upper : ¬(c.val ≥ 'A'.val ∧ c.val ≤ 'Z'.val) := fun upper =>
    absurd (UInt32.le_trans upper.1 low) (by decide)
  have same : c.toLower = c := dif_neg upper
  rintro rfl
  rw [List.map_cons, List.head?_cons, Option.all_some, same, decide_eq_true_eq] at letter
  exact UInt32.not_lt.mpr low letter

/-! ## The number that is read -/

/-- The magnitude bits a decimal rounds to. -/
def BinaryFormat.roundDecimal (f : BinaryFormat) (d : Decimal) : Nat := f.roundBits d.num d.den

theorem BinaryFormat.isNearest_roundDecimal (f : BinaryFormat) (d : Decimal) :
    f.IsNearest d.value (f.roundDecimal d) := by
  rw [← d.num_div_den]
  exact f.isNearest_roundBits d.num d.den_pos

/-- The number read from a numeral is the nearest to its decimal. -/
theorem Denotes.parse?_signed (h : Denotes text d) (negative : Bool) :
    ∃ bits, binary64.IsNearest d.value bits ∧
      Binary64.parse? (Datum.signed negative text) = some (.ofMagnitude negative bits) := by
  obtain ⟨e, read, same⟩ := h.readNumeral?_signed negative
  have nearest := binary64.isNearest_roundDecimal e
  rw [same] at nearest
  refine ⟨_, nearest, ?_⟩
  have nan : text.map Char.toLower ≠ "nan".toList := h.map_toLower_ne (by decide)
  have inf : text.map Char.toLower ≠ "inf".toList := h.map_toLower_ne (by decide)
  have infinity : text.map Char.toLower ≠ "infinity".toList := h.map_toLower_ne (by decide)
  unfold Binary64.parse?
  rw [h.readSign_signed]
  dsimp only
  rw [if_neg nan, if_neg (not_or.mpr ⟨inf, infinity⟩), read]
  rfl

end RsqlQuery.Number

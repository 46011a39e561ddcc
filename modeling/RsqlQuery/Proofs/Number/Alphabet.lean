import Mathlib.Tactic.SplitIfs
import RsqlQuery.Number.Layout

/-!
# The characters of numbers

Numbers are written with letters, digits, signs and points only, whatever their layout. No
separator of a query is among them, and no percent sign, so a number can stand in a query as it is.

## Main definitions

* `isNumeric` — the characters that occur in numbers.

## Main statements

* `isNumeric_of_mem_integerText`, `isNumeric_of_mem_text` — integers and floats consist of them.
* `takeWhile_digits`, `dropWhile_digits` — a run of digits ends at the first other character.
-/

namespace RsqlQuery.Number

/-- Letters, digits, signs and points. -/
def isNumeric (c : Char) : Bool := c.isAlphanum || c == '-' || c == '+' || c == '.'

theorem isNumeric_of_isDigit {c : Char} (h : c.isDigit = true) : isNumeric c = true := by
  simp [isNumeric, Char.isAlphanum, h]

theorem isNumeric_of_mem_toDigits {c : Char} {n : Nat} (h : c ∈ Nat.toDigits 10 n) :
    isNumeric c = true :=
  isNumeric_of_isDigit (Nat.isDigit_of_mem_toDigits (by decide) (by decide) h)

theorem isNumeric_of_mem_integerText {c : Char} {n : Int} (h : c ∈ integerText n) :
    isNumeric c = true := by
  unfold integerText at h
  split_ifs at h
  · obtain rfl | hd := List.mem_cons.mp h
    · rfl
    · exact isNumeric_of_mem_toDigits hd
  · exact isNumeric_of_mem_toDigits h

theorem isNumeric_of_mem_zeros {c : Char} {n : Nat} (h : c ∈ List.replicate n '0') :
    isNumeric c = true := by
  rw [List.eq_of_mem_replicate h]
  rfl

theorem isNumeric_of_mem_positional {digits : List Char} (hd : ∀ c ∈ digits, isNumeric c = true)
    {point : Int} {c : Char} (h : c ∈ positional digits point) : isNumeric c = true := by
  unfold positional at h
  split_ifs at h
  · simp only [List.mem_cons, List.mem_append, List.cons_append] at h
    obtain rfl | rfl | hz | h := h
    · rfl
    · rfl
    · exact isNumeric_of_mem_zeros hz
    · exact hd c h
  · obtain h | hz := List.mem_append.mp h
    · exact hd c h
    · exact isNumeric_of_mem_zeros hz
  · simp only [List.mem_cons, List.mem_append] at h
    obtain h | rfl | h := h
    · exact hd c (List.mem_of_mem_take h)
    · rfl
    · exact hd c (List.mem_of_mem_drop h)

theorem isNumeric_of_mem_mantissa {digits : List Char} (hd : ∀ c ∈ digits, isNumeric c = true)
    {c : Char} (h : c ∈ mantissa digits) : isNumeric c = true := by
  unfold mantissa at h
  split at h
  · simp only [List.mem_cons] at h hd
    obtain rfl | rfl | h := h
    · exact hd _ (.inl rfl)
    · rfl
    · exact hd _ (.inr h)
  · exact hd c h

theorem isNumeric_of_mem_scientific {digits : List Char} (hd : ∀ c ∈ digits, isNumeric c = true)
    {point : Int} {c : Char} (h : c ∈ scientific digits point) : isNumeric c = true := by
  simp only [scientific, List.mem_append, List.mem_cons] at h
  obtain h | rfl | h := h
  · exact isNumeric_of_mem_mantissa hd h
  · rfl
  · exact isNumeric_of_mem_integerText h

/-- Signing an exponent brings in nothing but the exponent's mark and a plus sign. -/
theorem isNumeric_of_mem_signExponent {text : List Char} (ht : ∀ c ∈ text, isNumeric c = true)
    {c : Char} (h : c ∈ signExponent text) : isNumeric c = true := by
  unfold signExponent at h
  split at h
  · exact ht c h
  · next mark exponent behind =>
    split_ifs at h
    · exact ht c h
    · simp only [List.mem_append, List.mem_cons] at h
      obtain h | rfl | rfl | h := h
      · exact ht c ((List.takeWhile_sublist _).mem h)
      · rfl
      · rfl
      · refine ht c ((List.dropWhile_sublist (· ≠ exponentMark)).mem ?_)
        rw [behind]
        exact List.mem_cons_of_mem mark h

theorem isNumeric_of_mem_signed {negative : Bool} {text : List Char}
    (ht : ∀ c ∈ text, isNumeric c = true) {c : Char} (h : c ∈ Datum.signed negative text) :
    isNumeric c = true := by
  cases negative with
  | false => exact ht c h
  | true =>
    obtain rfl | hc := List.mem_cons.mp h
    · rfl
    · exact ht c hc

theorem isNumeric_of_mem_digits {d : Decimal} {c : Char} (h : c ∈ d.digits) : isNumeric c = true :=
  isNumeric_of_mem_toDigits h

/-- Words of letters and digits that stand for what is not written in digits alone. -/
theorem isNumeric_of_mem_name (negative : Bool) {name : List Char}
    (letters : name.all isNumeric = true) {c : Char} (h : c ∈ Datum.signed negative name) :
    isNumeric c = true :=
  isNumeric_of_mem_signed (List.all_eq_true.mp letters) h

theorem Datum.isNumeric_of_mem_positional {f : BinaryFormat} {x : Datum} {c : Char}
    (h : c ∈ x.positional f) : isNumeric c = true := by
  unfold Datum.positional at h
  split at h
  · exact isNumeric_of_mem_name false (by decide) h
  · exact isNumeric_of_mem_name _ (by decide) h
  · exact isNumeric_of_mem_name _ (by decide) h
  · exact isNumeric_of_mem_signed
      (fun _ => Number.isNumeric_of_mem_positional fun _ => isNumeric_of_mem_digits) h

theorem Datum.isNumeric_of_mem_scientific {f : BinaryFormat} {x : Datum} {c : Char}
    (h : c ∈ x.scientific f) : isNumeric c = true := by
  unfold Datum.scientific at h
  split at h
  · exact isNumeric_of_mem_name false (by decide) h
  · exact isNumeric_of_mem_name _ (by decide) h
  · exact isNumeric_of_mem_name _ (by decide) h
  · exact isNumeric_of_mem_signed
      (fun _ => Number.isNumeric_of_mem_scientific fun _ => isNumeric_of_mem_digits) h

theorem isNumeric_of_mem_text {x : Binary64} {c : Char} (h : c ∈ x.text.toList) :
    isNumeric c = true := by
  rw [Binary64.text, String.toList_ofList] at h
  split at h
  · exact isNumeric_of_mem_name false (by decide) h
  · exact isNumeric_of_mem_name _ (by decide) h
  · exact isNumeric_of_mem_name false (by decide) h
  · split_ifs at h
    · exact isNumeric_of_mem_signExponent (fun _ => Datum.isNumeric_of_mem_scientific) h
    · exact Datum.isNumeric_of_mem_positional h

/-! ## Characters that no number holds -/

theorem not_mem_integerText {c : Char} (h : isNumeric c = false) (n : Int) : c ∉ integerText n :=
  fun hc => Bool.false_ne_true (h ▸ isNumeric_of_mem_integerText hc)

theorem not_mem_text {c : Char} (h : isNumeric c = false) (x : Binary64) : c ∉ x.text.toList :=
  fun hc => Bool.false_ne_true (h ▸ isNumeric_of_mem_text hc)

/-! ## Runs of digits -/

section Run

variable {digits rest : List Char} (hd : ∀ c ∈ digits, c.isDigit = true)
  (hr : ∀ c ∈ rest.head?, c.isDigit = false)
include hd hr

/-- Reading stops behind the digits at hand. -/
theorem takeWhile_digits : (digits ++ rest).takeWhile Char.isDigit = digits := by
  rw [List.takeWhile_append_of_pos hd]
  cases rest with
  | nil => simp
  | cons c rest => simp [hr c rfl]

theorem dropWhile_digits : (digits ++ rest).dropWhile Char.isDigit = rest := by
  rw [List.dropWhile_append_of_pos hd]
  cases rest with
  | nil => simp
  | cons c rest => simp [hr c rfl]

end Run

end RsqlQuery.Number

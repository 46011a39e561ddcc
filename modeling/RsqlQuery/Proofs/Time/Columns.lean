import Mathlib.Algebra.Ring.Nat
import Mathlib.Data.Char
import Mathlib.Data.List.Forall2
import Mathlib.Data.List.Lex
import Mathlib.Tactic.SplitIfs
import RsqlQuery.Number.Numeral
import RsqlQuery.Time.Calendar

/-!
# Numbers in columns

Numbers that are filled up with zeros to fixed widths stand in columns, each with a mark behind it.
A number that fits its column is read back from it, and of two texts in the same columns the first
one in the order of texts is the one whose numbers come first: up to the place where the numbers
part, the texts are the same.

## Main definitions

* `Column`, `Column.Fits` — a column, and the numbers that fit in.
* `writeColumns`, `readColumns?` — the two directions.

## Main statements

* `length_writeColumns` — the length is that of the columns.
* `readColumns?_writeColumns` — numbers are read back from their columns.
* `writeColumns_lt_writeColumns` — texts have the order of their numbers.
-/

namespace RsqlQuery.Time

open Number

/-! ## Filling up with zeros -/

section Padded

variable {width m n : Nat}

theorem length_padded (pos : 0 < width) (h : n < 10 ^ width) : (padded width n).length = width := by
  have digits := (Nat.length_toDigits_le_iff (by decide) pos).mpr h
  simp only [padded, List.length_append, List.length_replicate]
  omega

/-- The last digit comes off the end. -/
theorem padded_add_one (pos : 0 < width) (n : Nat) :
    padded (width + 1) n = padded width (n / 10) ++ [(n % 10).digitChar] := by
  rcases Nat.lt_or_ge n 10 with small | large
  · obtain ⟨zeros, rfl⟩ := Nat.exists_eq_add_one.mpr pos
    have tenth : n / 10 = 0 := Nat.div_eq_of_lt small
    simp [padded, tenth, Nat.mod_eq_of_lt small, Nat.toDigits_of_lt_base small, Nat.toDigits_zero,
      List.replicate_succ']
  · simp [padded, Nat.toDigits_of_base_le (by decide) large]

theorem padded_one (h : n < 10) : padded 1 n = [n.digitChar] := by
  simp [padded, Nat.toDigits_of_lt_base h]

theorem isDigit_of_mem_padded {c : Char} (h : c ∈ padded width n) : c.isDigit = true := by
  obtain zero | digit := List.mem_append.mp h
  · rw [List.eq_of_mem_replicate zero]
    rfl
  · exact Nat.isDigit_of_mem_toDigits (by decide) (by decide) digit

theorem ofDigitChars_padded (width n : Nat) : Nat.ofDigitChars 10 (padded width n) 0 = n := by
  have zeros : ∀ k, Nat.ofDigitChars 10 (List.replicate k '0') 0 = 0 := by
    intro k
    induction k with
    | zero => rfl
    | succ k ih => exact ih
  rw [padded, Nat.ofDigitChars, List.foldl_append]
  change Nat.ofDigitChars 10 _ (Nat.ofDigitChars 10 _ 0) = n
  rw [zeros, Nat.ofDigitChars_ten_toDigits]

theorem digitChar_lt_digitChar (h : m < n) (hn : n < 10) : m.digitChar < n.digitChar := by
  change m.digitChar.toNat < n.digitChar.toNat
  rw [Nat.toNat_digitChar_of_lt_ten (h.trans hn), Nat.toNat_digitChar_of_lt_ten hn]
  omega

end Padded

/-! ## The order of lists in two parts -/

section Append

variable {α : Type} [LT α] {s t s' t' : List α}

/-- What follows the place where two lists of one length part does not count. -/
theorem append_lt_append (h : s < t) (same : s.length = t.length) (s' t' : List α) :
    s ++ s' < t ++ t' := by
  induction h with
  | nil => simp at same
  | rel before => exact .rel before
  | cons _ ih => exact .cons (ih (by simpa using same))

theorem append_left_lt (h : t < t') (s : List α) : s ++ t < s ++ t' :=
  List.Lex.append_left (· < ·) h s

theorem lt_or_of_append_lt_append (h : s ++ s' < t ++ t') (same : s.length = t.length) :
    s < t ∨ s = t ∧ s' < t' := by
  induction s generalizing t with
  | nil =>
    obtain rfl := List.length_eq_zero_iff.mp same.symm
    exact .inr ⟨rfl, h⟩
  | cons a s ih =>
    obtain ⟨b, t, rfl⟩ := List.exists_cons_of_length_eq_add_one same.symm
    obtain before | ⟨rfl, rest⟩ := List.cons_lt_cons_iff.mp h
    · exact .inl (.rel before)
    · obtain parted | ⟨rfl, later⟩ := ih rest (by simpa using same)
      · exact .inl (.cons parted)
      · exact .inr ⟨rfl, later⟩

end Append

/-- Digits come in the order of their numbers, so numbers of one width do. -/
theorem padded_lt_padded {width m n : Nat} (h : m < n) (hn : n < 10 ^ width) :
    padded width m < padded width n := by
  induction width generalizing m n with
  | zero => omega
  | succ width ih =>
    rcases Nat.eq_zero_or_pos width with rfl | pos
    · rw [padded_one (by omega), padded_one (by omega)]
      exact .rel (digitChar_lt_digitChar h (by omega))
    · have high : n / 10 < 10 ^ width := by omega
      rw [padded_add_one pos, padded_add_one pos]
      obtain parted | ⟨same, last⟩ : m / 10 < n / 10 ∨ m / 10 = n / 10 ∧ m % 10 < n % 10 := by omega
      · apply append_lt_append (ih parted high)
        rw [length_padded pos (parted.trans high), length_padded pos high]
      · rw [same]
        exact append_left_lt (.rel (digitChar_lt_digitChar last (by omega))) _

/-! ## Columns -/

/-- The width of a number, and the mark behind it. -/
structure Column where
  width : Nat
  mark : Char
  width_pos : 0 < width := by decide

/-- A number has no more digits than its column is wide. -/
def Column.Fits (c : Column) (n : Nat) : Prop := n < 10 ^ c.width

/-- Numbers filled up to their columns. -/
def writeColumns : List Column → List Nat → List Char
  | c :: columns, n :: numbers => padded c.width n ++ c.mark :: writeColumns columns numbers
  | _, _ => []

@[simp] theorem writeColumns_nil : writeColumns [] [] = [] := rfl

@[simp] theorem writeColumns_cons (width : Nat) (mark : Char) (pos : 0 < width)
    (columns : List Column) (n : Nat) (numbers : List Nat) :
    writeColumns (⟨width, mark, pos⟩ :: columns) (n :: numbers) =
      padded width n ++ mark :: writeColumns columns numbers := rfl

/-- The numbers of a text that consists of the columns and of nothing else. -/
def readColumns? : List Column → List Char → Option (List Nat)
  | [], text => if text.isEmpty then some [] else none
  | c :: columns, text =>
    match readDigits? (text.take c.width), text.drop c.width with
    | some n, mark :: rest =>
      if mark = c.mark then (readColumns? columns rest).map fun numbers => n :: numbers else none
    | _, _ => none

variable {columns : List Column} {ms ns : List Nat}

theorem length_writeColumns (h : List.Forall₂ Column.Fits columns ns) :
    (writeColumns columns ns).length = (columns.map fun c => c.width + 1).sum := by
  induction h with
  | nil => rfl
  | @cons c n columns ns fits _ ih =>
    simp only [writeColumns, List.length_append, List.length_cons, length_padded c.width_pos fits,
      ih, List.map_cons, List.sum_cons]
    omega

theorem readColumns?_writeColumns (h : List.Forall₂ Column.Fits columns ns) :
    readColumns? columns (writeColumns columns ns) = some ns := by
  induction h with
  | nil => rfl
  | @cons c n columns ns fits _ ih =>
    have length : (padded c.width n).length = c.width := length_padded c.width_pos fits
    have nonempty : padded c.width n ≠ [] := by
      apply List.ne_nil_of_length_pos
      rw [length]
      exact c.width_pos
    have digits : readDigits? (padded c.width n) = some n := by
      rw [readDigits?, if_pos ⟨nonempty, List.all_eq_true.mpr fun _ => isDigit_of_mem_padded⟩,
        ofDigitChars_padded]
    rw [writeColumns, readColumns?, List.take_left' length, List.drop_left' length, digits]
    simp [ih]

/-- The texts part where the numbers do, and there the smaller number stands first. -/
theorem writeColumns_lt_writeColumns (hm : List.Forall₂ Column.Fits columns ms)
    (hn : List.Forall₂ Column.Fits columns ns) (h : ms < ns) :
    writeColumns columns ms < writeColumns columns ns := by
  induction hm generalizing ns with
  | nil =>
    cases hn
    exact absurd h (lt_irrefl _)
  | @cons c m columns ms fits _ ih =>
    cases hn with
    | @cons _ n _ ns fits' rest' =>
      simp only [writeColumns]
      obtain parted | ⟨rfl, rest⟩ := List.cons_lt_cons_iff.mp h
      · apply append_lt_append (padded_lt_padded parted fits')
        rw [length_padded c.width_pos fits, length_padded c.width_pos fits']
      · exact append_left_lt (.cons (ih rest' rest)) _

end RsqlQuery.Time

import Mathlib.Tactic.SplitIfs
import RsqlQuery.Text.Quoted

/-!
# Where a text between parentheses ends

A reader of such a text walks from the opening parenthesis to the first closing one that is not
protected, be it by a backslash before it or by double quotes around it. Escaped text holds no
unprotected quote, and each of its backslashes protects a backslash or a quote. So escaping protects
no parenthesis: the reader passes escaped text exactly if that holds no closing parenthesis.

## Main definitions

* `Parenthesized.untilClose` — what stands before the first unprotected closing parenthesis, and
  behind it.
* `Parenthesized.inside?` — the inside of a text whose closing parenthesis is its last character.

## Main statements

* `Parenthesized.isSome_inside?_escape_iff` — when the inside of escaped text between parentheses is
  all of it.
-/

namespace RsqlQuery.Text.Parenthesized

/-- Read up to the first closing parenthesis that no backslash and no double quotes protect;
`quoted` tells whether the reader is between double quotes. -/
def untilClose : Bool → List Char → Option (List Char × List Char)
  | _, [] => none
  | quoted, '\\' :: c :: rest => (untilClose quoted rest).map fun r => ('\\' :: c :: r.1, r.2)
  | quoted, '"' :: rest => (untilClose (!quoted) rest).map fun r => ('"' :: r.1, r.2)
  | false, ')' :: rest => some ([], rest)
  | quoted, c :: rest => (untilClose quoted rest).map fun r => (c :: r.1, r.2)

/-- The inside of a text that starts with a parenthesis and whose first unprotected closing
parenthesis is its last character. -/
def inside? : List Char → Option (List Char)
  | '(' :: rest =>
    match untilClose false rest with
    | some (inside, []) => some inside
    | _ => none
  | _ => none

theorem untilClose_protected (c : Char) (rest : List Char) :
    untilClose false ('\\' :: c :: rest) =
      (untilClose false rest).map fun r => ('\\' :: c :: r.1, r.2) := by
  rw [untilClose]

theorem untilClose_cons {c : Char} (hb : c ≠ '\\') (hq : c ≠ '"') (hc : c ≠ ')')
    (rest : List Char) :
    untilClose false (c :: rest) = (untilClose false rest).map fun r => (c :: r.1, r.2) := by
  rw [untilClose.eq_def]
  split <;> simp_all

/-- The reader passes escaped text that holds no closing parenthesis. -/
theorem untilClose_escape {s : List Char} (h : ')' ∉ s) (rest : List Char) :
    untilClose false (Quoted.escape s ++ rest) =
      (untilClose false rest).map fun r => (Quoted.escape s ++ r.1, r.2) := by
  induction s with
  | nil => simp [Quoted.escape, Quoted.protect]
  | cons c s ih =>
    rw [List.mem_cons, not_or] at h
    have tail := ih h.2
    rw [Quoted.escape_cons]
    split_ifs with hc
    · simp [untilClose_protected, tail, Function.comp_def]
    · rw [not_or] at hc
      simp [untilClose_cons hc.1 hc.2 (Ne.symm h.1), tail, Function.comp_def]

/-- The reader stops at the first closing parenthesis of escaped text, and the rest is left. -/
theorem untilClose_escape_of_mem {s : List Char} (h : ')' ∈ s) (rest : List Char) :
    ∃ inside left, untilClose false (Quoted.escape s ++ rest) = some (inside, left ++ rest) := by
  obtain ⟨before, behind, rfl, first⟩ := List.eq_append_cons_of_mem h
  refine ⟨Quoted.escape before, Quoted.escape behind, ?_⟩
  have here : Quoted.escape (')' :: behind) = ')' :: Quoted.escape behind := by
    simp [Quoted.escape_cons]
  rw [Quoted.escape_append, here, List.append_assoc, untilClose_escape first, List.cons_append,
    untilClose, Option.map_some, List.append_nil]

/-- Between parentheses, escaped text ends at the last character exactly if it holds no closing
parenthesis of its own. -/
theorem isSome_inside?_escape_iff (s : List Char) :
    (inside? ('(' :: Quoted.escape s ++ [')'])).isSome = true ↔ ')' ∉ s := by
  constructor
  · intro closes held
    obtain ⟨inside, left, stops⟩ := untilClose_escape_of_mem held [')']
    rw [List.cons_append, inside?, stops] at closes
    cases left <;> simp at closes
  · intro free
    have passes := untilClose_escape free [')']
    rw [List.cons_append, inside?, passes]
    simp [untilClose]

end RsqlQuery.Text.Parenthesized

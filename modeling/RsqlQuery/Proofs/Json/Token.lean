import Mathlib.Tactic.IntervalCases
import RsqlQuery.Proofs.Json.Grammar

/-!
# Scanning tokens

A spelling of a token is scanned as that token. Punctuation, words and strings have an end of their
own, so it does not matter what follows them. A number has none, and is scanned as it is spelled if
what follows does not go on with it.

## Main definitions

* `Scans` — a text takes the scanner from one state to another and completes some tokens.
* `Stops` — texts that do not go on with a number.

## Main statements

* `StringSpelling.scans` — the pieces of a string are scanned one by one.
* `NumberSpelling.isNumberChar` — a number is made of characters that the scanner takes into one.
* `scans_string`, `scanFrom?_number` — strings and numbers are scanned as they are spelled.
-/

namespace RsqlQuery.Json

open Text

/-- From a state, a text takes the scanner to another state and completes some tokens. -/
def Scans (start : ScanState) (s : List Char) (finish : ScanState) (out : List Token) : Prop :=
  ∀ rest, scanFrom? start (s ++ rest) = (scanFrom? finish rest).map (out ++ ·)

/-- The text does not begin with a character that the scanner takes into a number. -/
def Stops (s : List Char) : Prop := ∀ c ∈ s.head?, isNumberChar c = false

/-! ## Runs of the scanner -/

theorem scanFrom?_cons {start finish : ScanState} {c : Char} {out : List Token}
    (h : scanStep? start c = some (finish, out)) (rest : List Char) :
    scanFrom? start (c :: rest) = (scanFrom? finish rest).map (out ++ ·) := by
  rw [scanFrom?, h, Option.map_eq_bind]
  rfl

theorem scans_nil (state : ScanState) : Scans state [] state [] := fun _ => Option.map_id'.symm

theorem Scans.append {a b c : ScanState} {s t : List Char} {out more : List Token}
    (h : Scans a s b out) (k : Scans b t c more) : Scans a (s ++ t) c (out ++ more) := by
  intro rest
  rw [List.append_assoc, h, k, Option.map_map]
  simp [Function.comp_def]

/-- A step that completes nothing, in front of a run. -/
theorem Scans.cons {a b c : ScanState} {x : Char} {s : List Char} {out : List Token}
    (h : scanStep? a x = some (b, [])) (k : Scans b s c out) : Scans a (x :: s) c out :=
  Scans.append (s := [x]) (scanFrom?_cons h) k

theorem scans_of_step {start finish : ScanState} {c : Char} {out : List Token}
    (h : scanStep? start c = some (finish, out)) : Scans start [c] finish out :=
  scanFrom?_cons h

/-! ## Words -/

theorem scans_null : Scans .between Token.null.text .between [.null] :=
  .cons rfl (.cons rfl (.cons rfl (scans_of_step rfl)))

theorem scans_bool (b : Bool) :
    Scans .between (if b then ['t', 'r', 'u', 'e'] else ['f', 'a', 'l', 's', 'e']) .between
      [.bool b] :=
  match b with
  | true => .cons rfl (.cons rfl (.cons rfl (scans_of_step rfl)))
  | false => .cons rfl (.cons rfl (.cons rfl (.cons rfl (scans_of_step rfl))))

/-! ## Strings -/

/-- Each letter behind a backslash is read as what it stands for, and none is that of a code
unit. -/
theorem ofShortEscape?_of_mem {c letter : Char} (h : (c, letter) ∈ ('/', '/') :: shortEscapes) :
    ofShortEscape? letter = some c ∧ letter ≠ 'u' := by
  have all : ∀ e ∈ ('/', '/') :: shortEscapes, ofShortEscape? e.2 = some e.1 ∧ e.2 ≠ 'u' := by
    decide
  exact all (c, letter) h

/-- However a piece is spelled, it is scanned as that piece. -/
theorem Piece.Spelling.scans {p : Piece} {s : List Char} (h : p.Spelling s) (before : List Piece) :
    Scans (.string before) s (.string (p :: before)) [] := by
  have backslash : scanStep? (.string before) '\\' = some (.escape before, []) := rfl
  cases h with
  | plain visible quote protect =>
    exact scans_of_step (by simp [scanStep?, quote, protect, Nat.not_lt.mpr visible])
  | letter escape =>
    obtain ⟨denotes, notUnit⟩ := ofShortEscape?_of_mem escape
    exact .cons backslash (scans_of_step (by simp [scanStep?, denotes, notUnit]))
  | @unit a b c d i j k l first second third fourth =>
    have start : scanStep? (.escape before) 'u' = some (.hex before 0 4, []) := rfl
    have digit (value missing n : Nat) (x : Char) (more : ¬missing ≤ 1)
        (read : hexValue? x = some n) : scanStep? (.hex before value missing) x =
          some (.hex before (value * 16 + n) (missing - 1), []) := by
      simp [scanStep?, read, more]
    have last : scanStep? (.hex before ((i * 16 + j) * 16 + k) 1) d =
        some (.string (pieceOfUnit (((i * 16 + j) * 16 + k) * 16 + l) :: before), []) := by
      simp [scanStep?, fourth]
    have top := digit 0 4 i a (by decide) first
    rw [Nat.zero_mul, Nat.zero_add] at top
    exact .cons backslash (.cons start (.cons top (.cons (digit i 3 j b (by decide) second)
      (.cons (digit _ 2 k c (by decide) third) (scans_of_step last)))))

theorem StringSpelling.scans {pieces : List Piece} {s : List Char} (h : StringSpelling pieces s)
    (before : List Piece) :
    Scans (.string before) s (.string (pieces.reverse ++ before)) [] := by
  induction h generalizing before with
  | nil => exact scans_nil _
  | @cons p _ _ _ spelled _ ih => simpa using (spelled.scans before).append (ih (p :: before))

/-- A string is scanned as the pieces that are spelled between its quotes. -/
theorem scans_string {pieces : List Piece} {s : List Char} (h : StringSpelling pieces s) :
    Scans .between ('"' :: s ++ ['"']) .between [.string pieces] := by
  have opening : scanStep? .between '"' = some (.string [], []) := rfl
  have closing : scanStep? (.string pieces.reverse) '"' = some (.between, [.string pieces]) := by
    simp [scanStep?]
  have inside := h.scans []
  rw [List.append_nil] at inside
  exact .cons opening (inside.append (scans_of_step closing))

/-! ## Numbers -/

theorem isNumberChar_of_isDigit {c : Char} (h : c.isDigit = true) : isNumberChar c = true := by
  simp [isNumberChar, h]

theorem DigitRun.isNumberChar {s : List Char} (h : DigitRun s) :
    ∀ c ∈ s, isNumberChar c = true :=
  fun c hc => isNumberChar_of_isDigit (h.2 c hc)

theorem FractionPart.isNumberChar {s : List Char} (h : FractionPart s) :
    ∀ c ∈ s, isNumberChar c = true := by
  cases h with
  | none => simp
  | digits run => exact List.forall_mem_cons.mpr ⟨rfl, run.isNumberChar⟩

theorem ExponentPart.isNumberChar {s : List Char} (h : ExponentPart s) :
    ∀ c ∈ s, isNumberChar c = true := by
  cases h with
  | none => simp
  | digits letter sign run =>
    rw [List.cons_append, List.forall_mem_cons, List.forall_mem_append]
    refine ⟨?_, ?_, run.isNumberChar⟩
    · obtain rfl | rfl := letter <;> rfl
    · obtain rfl | rfl | rfl := sign
      · exact List.forall_mem_nil _
      · exact List.forall_mem_singleton.mpr rfl
      · exact List.forall_mem_singleton.mpr rfl

/-- A number is made of characters that the scanner takes into one. -/
theorem NumberSpelling.isNumberChar {s : List Char} (h : NumberSpelling s) :
    ∀ c ∈ s, isNumberChar c = true := by
  obtain ⟨sign, whole, fraction, exponent⟩ := h
  simp only [List.forall_mem_append]
  refine ⟨⟨⟨?_, whole.digitRun.isNumberChar⟩, fraction.isNumberChar⟩, exponent.isNumberChar⟩
  obtain rfl | rfl := sign
  · exact List.forall_mem_nil _
  · exact List.forall_mem_singleton.mpr rfl

theorem NumberSpelling.exists_cons {s : List Char} (h : NumberSpelling s) :
    ∃ c rest, s = c :: rest ∧ (c = '-' ∨ c.isDigit = true) := by
  obtain ⟨sign, whole, -, -⟩ := h
  obtain ⟨c, rest, rfl, digit⟩ := whole.digitRun.exists_cons
  obtain rfl | rfl := sign
  · exact ⟨c, _, rfl, .inr digit⟩
  · exact ⟨'-', _, rfl, .inl rfl⟩

/-- Between two tokens, a sign or a digit begins a number. -/
theorem scanStart?_number {c : Char} (h : c = '-' ∨ c.isDigit = true) :
    scanStart? c = some (.number [c], []) := by
  obtain rfl | digit := h
  · rfl
  · have all : ∀ n < 10, scanStart? (Char.ofNat (n + 48)) =
        some (.number [Char.ofNat (n + 48)], []) := by
      intro n hn
      interval_cases n <;> rfl
    have bounds : 48 ≤ c.toNat ∧ c.toNat ≤ 57 := by
      simpa [Char.isDigit, UInt32.le_iff_toNat_le] using digit
    have found := all (c.toNat - 48) (by omega)
    rwa [Nat.sub_add_cancel bounds.1, Char.ofNat_toNat] at found

theorem scans_number (before : List Char) {s : List Char} (h : ∀ c ∈ s, isNumberChar c = true) :
    Scans (.number before) s (.number (s.reverse ++ before)) [] := by
  induction s generalizing before with
  | nil => exact scans_nil _
  | cons c s ih =>
    have step : scanStep? (.number before) c = some (.number (c :: before), []) := by
      simp [scanStep?, h c List.mem_cons_self]
    have others := ih (c :: before) fun d hd => h d (List.mem_cons_of_mem c hd)
    simpa using Scans.cons step others

/-- A number is complete at the end of the text or where it cannot go on. -/
theorem scanFrom?_of_stops {spelling rest : List Char} (h : NumberSpelling spelling)
    (stops : Stops rest) : scanFrom? (.number spelling.reverse) rest =
      (scanFrom? .between rest).map (.number spelling :: ·) := by
  have number : isNumber spelling = true := isNumber_iff.mpr h
  cases rest with
  | nil => simp [scanFrom?, scanEnd?, number]
  | cons c rest =>
    have ends : isNumberChar c = false := stops c rfl
    simp only [scanFrom?, scanStep?, ends, List.reverse_reverse, number]
    cases scanStart? c with
    | none => rfl
    | some scanned => cases h : scanFrom? scanned.1 rest <;> simp [h]

/-- A number is scanned as it is spelled if what follows does not go on with it. -/
theorem scanFrom?_number {spelling rest : List Char} (h : NumberSpelling spelling)
    (stops : Stops rest) : scanFrom? .between (spelling ++ rest) =
      (scanFrom? .between rest).map (.number spelling :: ·) := by
  obtain ⟨c, digits, rfl, first⟩ := h.exists_cons
  have inside := scans_number [c] fun d hd => h.isNumberChar d (List.mem_cons_of_mem c hd)
  have start : scanStep? .between c = some (.number [c], []) := scanStart?_number first
  have pending := scanFrom?_of_stops h stops
  rw [List.reverse_cons] at pending
  rw [Scans.cons start inside rest, pending]
  simp [Function.comp_def]

end RsqlQuery.Json

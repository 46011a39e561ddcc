import Mathlib.Data.List.TakeWhile
import Mathlib.Tactic.SplitIfs
import RsqlQuery.Json.Tree
import RsqlQuery.Proofs.Number.Alphabet

/-!
# The grammar of JSON

The texts that spell a value, told by how they are put together and not by how they are read. White
space may stand around every value, every key and all punctuation. A character of a string may stand
for itself or be escaped in several ways, and the digits of an escape may be of either case. The
compact text of a value is one of its spellings.

## Main definitions

* `NumberSpelling` — texts of a sign, digits, a point and an exponent.
* `Piece.Spelling`, `StringSpelling` — texts of what a string holds.
* `Tree.Spelling` — texts of a value.
* `Piece.Valid`, `Tree.WellFormed` — pieces and values that have a spelling.

## Main statements

* `isNumber_iff` — the test for numbers is exact.
* `Tree.WellFormed.spelling` — the compact text of a value is a spelling of it.
-/

namespace RsqlQuery.Json

open Number Text

/-! ## Numbers -/

/-- Digits, and at least one of them. -/
def DigitRun (s : List Char) : Prop := s ≠ [] ∧ ∀ c ∈ s, c.isDigit = true

/-- The part of a number before the point; no zero stands in front of other digits. -/
inductive WholePart : List Char → Prop
  | zero : WholePart ['0']
  | digits {first : Char} {rest : List Char} :
      first ≠ '0' → DigitRun (first :: rest) → WholePart (first :: rest)

inductive FractionPart : List Char → Prop
  | none : FractionPart []
  | digits {s : List Char} : DigitRun s → FractionPart ('.' :: s)

inductive ExponentPart : List Char → Prop
  | none : ExponentPart []
  | digits {mark : Char} {sign s : List Char} : mark = 'e' ∨ mark = 'E' →
      sign = [] ∨ sign = ['+'] ∨ sign = ['-'] → DigitRun s → ExponentPart (mark :: sign ++ s)

/-- A number: a sign, digits, a fraction and an exponent, of which only the digits are a must. -/
inductive NumberSpelling : List Char → Prop
  | mk {sign whole fraction exponent : List Char} : sign = [] ∨ sign = ['-'] →
      WholePart whole → FractionPart fraction → ExponentPart exponent →
      NumberSpelling (sign ++ whole ++ fraction ++ exponent)

/-! ### The test for numbers -/

theorem DigitRun.exists_cons {s : List Char} (h : DigitRun s) :
    ∃ c rest, s = c :: rest ∧ c.isDigit = true := by
  obtain ⟨c, rest, rfl⟩ := List.exists_cons_of_ne_nil h.1
  exact ⟨c, rest, rfl, h.2 c List.mem_cons_self⟩

theorem ne_of_isDigit {c d : Char} (h : c.isDigit = true) (other : d.isDigit = false) : c ≠ d := by
  rintro rfl
  exact Bool.false_ne_true (other.symm.trans h)

theorem WholePart.digitRun {s : List Char} (h : WholePart s) : DigitRun s := by
  cases h with
  | zero => exact ⟨by simp, List.forall_mem_singleton.mpr rfl⟩
  | digits _ run => exact run

theorem isWhole_iff {s : List Char} (digits : ∀ c ∈ s, c.isDigit = true) :
    isWhole s = true ↔ WholePart s := by
  constructor
  · intro h
    unfold isWhole at h
    split at h
    · exact absurd h Bool.false_ne_true
    · obtain rfl := List.isEmpty_iff.mp h
      exact .zero
    · next notNil notZero =>
      obtain ⟨c, rest, rfl⟩ := List.exists_cons_of_ne_nil (notNil ·)
      exact .digits (fun zero => notZero rest (by rw [zero])) ⟨by simp, digits⟩
  · intro h
    cases h with
    | zero => rfl
    | digits notZero _ => simp [isWhole, notZero]

theorem isExponent_iff {s : List Char} : isExponent s = true ↔ ExponentPart s := by
  constructor
  · intro h
    match s with
    | [] => exact .none
    | mark :: rest =>
      simp only [isExponent, Bool.and_eq_true, Bool.or_eq_true, beq_iff_eq, Bool.not_eq_true',
        List.isEmpty_eq_false_iff, List.all_eq_true, and_assoc] at h
      obtain ⟨letter, run⟩ := h
      split at run
      · exact @ExponentPart.digits mark ['+'] _ letter (.inr (.inl rfl)) run
      · exact @ExponentPart.digits mark ['-'] _ letter (.inr (.inr rfl)) run
      · exact @ExponentPart.digits mark [] _ letter (.inl rfl) run
  · intro h
    cases h with
    | none => rfl
    | digits letter sign run =>
      obtain ⟨c, rest, rfl, digit⟩ := run.exists_cons
      have plus : c ≠ '+' := ne_of_isDigit digit rfl
      have minus : c ≠ '-' := ne_of_isDigit digit rfl
      have all : (c :: rest).all Char.isDigit = true := List.all_eq_true.mpr run.2
      obtain rfl | rfl | rfl := sign <;> simp_all [isExponent]

/-- An exponent does not go on with the digits before it, nor is it a fraction. -/
theorem ExponentPart.head {s : List Char} (h : ExponentPart s) :
    ∀ c ∈ s.head?, c.isDigit = false ∧ c ≠ '.' := by
  cases h with
  | none => simp
  | digits mark _ _ => obtain rfl | rfl := mark <;> simp +decide

theorem isFraction_iff {s : List Char} : isFraction s = true ↔
    ∃ fraction exponent, s = fraction ++ exponent ∧ FractionPart fraction ∧
      ExponentPart exponent := by
  constructor
  · intro h
    unfold isFraction at h
    split at h
    · next rest =>
      simp only [Bool.and_eq_true, Bool.not_eq_true', List.isEmpty_eq_false_iff] at h
      refine ⟨'.' :: rest.takeWhile Char.isDigit, rest.dropWhile Char.isDigit, ?_, ?_, ?_⟩
      · rw [List.cons_append, List.takeWhile_append_dropWhile]
      · exact .digits ⟨h.1, fun c hc => List.mem_takeWhile_imp hc⟩
      · exact isExponent_iff.mp h.2
    · exact ⟨[], s, rfl, .none, isExponent_iff.mp h⟩
  · rintro ⟨fraction, exponent, rfl, before, after⟩
    cases before with
    | none =>
      rw [List.nil_append]
      unfold isFraction
      split
      · next => exact absurd rfl (after.head '.' rfl).2
      · exact isExponent_iff.mpr after
    | digits run =>
      have stops : ∀ c ∈ exponent.head?, c.isDigit = false := fun c hc => (after.head c hc).1
      simp only [List.cons_append, isFraction, takeWhile_digits run.2 stops,
        dropWhile_digits run.2 stops, Bool.and_eq_true, Bool.not_eq_true',
        List.isEmpty_eq_false_iff]
      exact ⟨run.1, isExponent_iff.mpr after⟩

/-- The parts behind the point and the exponent do not go on with the digits before them. -/
theorem FractionPart.head {fraction exponent : List Char} (h : FractionPart fraction)
    (k : ExponentPart exponent) : ∀ c ∈ (fraction ++ exponent).head?, c.isDigit = false := by
  cases h with
  | none => exact fun c hc => (k.head c hc).1
  | digits _ => simp +decide

/-- The test for numbers without a sign. -/
theorem isUnsigned_iff {s : List Char} :
    (isWhole (s.takeWhile Char.isDigit) && isFraction (s.dropWhile Char.isDigit)) = true ↔
      ∃ whole fraction exponent, s = whole ++ fraction ++ exponent ∧ WholePart whole ∧
        FractionPart fraction ∧ ExponentPart exponent := by
  have digits : ∀ c ∈ s.takeWhile Char.isDigit, c.isDigit = true :=
    fun c hc => List.mem_takeWhile_imp hc
  rw [Bool.and_eq_true, isWhole_iff digits, isFraction_iff]
  constructor
  · rintro ⟨whole, fraction, exponent, split, before, after⟩
    refine ⟨s.takeWhile Char.isDigit, fraction, exponent, ?_, whole, before, after⟩
    rw [List.append_assoc, ← split, List.takeWhile_append_dropWhile]
  · rintro ⟨whole, fraction, exponent, rfl, run, before, after⟩
    have stops := before.head after
    rw [List.append_assoc, takeWhile_digits run.digitRun.2 stops,
      dropWhile_digits run.digitRun.2 stops]
    exact ⟨run, fraction, exponent, rfl, before, after⟩

/-- The test for numbers is exact. -/
theorem isNumber_iff {s : List Char} : isNumber s = true ↔ NumberSpelling s := by
  unfold isNumber
  constructor
  · intro h
    dsimp only at h
    split at h
    · obtain ⟨_, _, _, rfl, whole, fraction, exponent⟩ := isUnsigned_iff.mp h
      exact @NumberSpelling.mk ['-'] _ _ _ (.inr rfl) whole fraction exponent
    · obtain ⟨_, _, _, rfl, whole, fraction, exponent⟩ := isUnsigned_iff.mp h
      exact @NumberSpelling.mk [] _ _ _ (.inl rfl) whole fraction exponent
  · rintro ⟨sign, whole, before, after⟩
    have unsigned := isUnsigned_iff.mpr ⟨_, _, _, rfl, whole, before, after⟩
    obtain rfl | rfl := sign
    · obtain ⟨c, rest, rfl, digit⟩ := whole.digitRun.exists_cons
      have minus : c ≠ '-' := ne_of_isDigit digit rfl
      dsimp only
      split
      · next same => exact absurd (List.cons.inj same).1 minus
      · exact unsigned
    · exact unsigned

/-! ## Strings -/

/-- A character, or half of a surrogate pair with the value of one. -/
def Piece.Valid : Piece → Prop
  | .char _ => True
  | .half unit => 0xD800 ≤ unit ∧ unit < 0xE000

/-- The ways to write a character of a string, or half of a surrogate pair: as it is, with the
letter that stands for it behind a backslash, or with the four digits of its code unit. -/
inductive Piece.Spelling : Piece → List Char → Prop
  | plain {c : Char} : 0x20 ≤ c.toNat → c ≠ '"' → c ≠ '\\' → Spelling (.char c) [c]
  | letter {c letter : Char} :
      (c, letter) ∈ ('/', '/') :: shortEscapes → Spelling (.char c) ['\\', letter]
  | unit {a b c d : Char} {i j k l : Nat} :
      hexValue? a = some i → hexValue? b = some j → hexValue? c = some k → hexValue? d = some l →
      Spelling (pieceOfUnit (((i * 16 + j) * 16 + k) * 16 + l)) ['\\', 'u', a, b, c, d]

/-- Texts of the pieces of a string, one after the other. -/
inductive StringSpelling : List Piece → List Char → Prop
  | nil : StringSpelling [] []
  | cons {p : Piece} {pieces : List Piece} {s t : List Char} :
      p.Spelling s → StringSpelling pieces t → StringSpelling (p :: pieces) (s ++ t)

theorem valid_pieceOfUnit (unit : Nat) : (pieceOfUnit unit).Valid := by
  unfold pieceOfUnit
  split_ifs with surrogate
  · exact surrogate
  · trivial

/-- A code unit below the surrogates denotes a character. -/
theorem pieceOfUnit_toNat {c : Char} (h : c.toNat < 0xD800) : pieceOfUnit c.toNat = .char c := by
  rw [pieceOfUnit, if_neg (by omega), Char.ofNat_toNat]

theorem pieceOfUnit_half {unit : Nat} (h : (Piece.half unit).Valid) :
    pieceOfUnit unit = .half unit :=
  if_pos h

/-- What has no escape of its own is neither a quote nor a backslash. -/
theorem ne_of_lookup_eq_none {c : Char} (h : shortEscapes.lookup c = none) :
    c ≠ '"' ∧ c ≠ '\\' := by
  constructor
  · rintro rfl
    simp [shortEscapes] at h
  · rintro rfl
    simp [shortEscapes] at h

theorem Piece.Spelling.valid {p : Piece} {s : List Char} (h : p.Spelling s) : p.Valid := by
  cases h with
  | plain _ _ _ => trivial
  | letter _ => trivial
  | unit _ _ _ _ => exact valid_pieceOfUnit _

theorem spelling_unicodeEscape {unit : Nat} (h : unit < 0x10000) :
    (pieceOfUnit unit).Spelling (unicodeEscape unit) := by
  have digit (n : Nat) : hexValue? (lowerHex (n % 16)) = some (n % 16) :=
    hexValue?_lowerHex (Nat.mod_lt n (by decide))
  have whole : ((unit / 4096 % 16 * 16 + unit / 256 % 16) * 16 + unit / 16 % 16) * 16
      + unit % 16 = unit := by omega
  have spelled := Piece.Spelling.unit (digit (unit / 4096)) (digit (unit / 256)) (digit (unit / 16))
    (digit unit)
  rwa [whole] at spelled

/-- The written form of a piece is a spelling of it. -/
theorem Piece.Valid.spelling {p : Piece} (h : p.Valid) : p.Spelling p.text := by
  cases p with
  | char c =>
    rw [Piece.text, charText]
    split
    · next letter found =>
      obtain ⟨before, after, split, -⟩ := List.lookup_eq_some_iff.mp found
      exact .letter (by simp [split])
    · next none =>
      obtain ⟨quote, backslash⟩ := ne_of_lookup_eq_none none
      split_ifs with control
      · have small : c.toNat < 0x10000 := by omega
        have spelled := spelling_unicodeEscape small
        rwa [pieceOfUnit_toNat (by omega)] at spelled
      · exact .plain (by omega) quote backslash
  | half unit =>
    have small : unit < 0x10000 := h.2.trans (by decide)
    have spelled := spelling_unicodeEscape small
    rwa [pieceOfUnit_half h] at spelled

theorem StringSpelling.valid {pieces : List Piece} {s : List Char} (h : StringSpelling pieces s) :
    ∀ p ∈ pieces, p.Valid := by
  induction h with
  | nil => simp
  | cons spelled _ ih => exact List.forall_mem_cons.mpr ⟨spelled.valid, ih⟩

theorem stringSpelling_text {pieces : List Piece} (h : ∀ p ∈ pieces, p.Valid) :
    StringSpelling pieces (pieces.flatMap Piece.text) := by
  induction pieces with
  | nil => exact .nil
  | cons p pieces ih =>
    rw [List.forall_mem_cons] at h
    exact .cons h.1.spelling (ih h.2)

/-! ## Values -/

/-- White space, as it may stand around values and punctuation. -/
def Spacing (s : List Char) : Prop := ∀ c ∈ s, c = ' ' ∨ c = '\t' ∨ c = '\n' ∨ c = '\r'

/-- A member of an object, with texts of its key and its value. -/
structure MemberText where
  key : List Piece
  keyText : List Char
  value : Tree
  valueText : List Char

namespace MemberText

def member (m : MemberText) : List Piece × Tree := (m.key, m.value)

def text (m : MemberText) : List Char := m.keyText ++ ':' :: m.valueText

end MemberText

namespace Tree

/-- Texts of a value. Items and members stand between brackets with commas between them, and a key
is written like the value that is its string. -/
inductive Spelling : Tree → List Char → Prop
  | null : Spelling .null ['n', 'u', 'l', 'l']
  | bool (b : Bool) :
      Spelling (.bool b) (if b then ['t', 'r', 'u', 'e'] else ['f', 'a', 'l', 's', 'e'])
  | number {s : List Char} : NumberSpelling s → Spelling (.number s) s
  | string {pieces : List Piece} {s : List Char} :
      StringSpelling pieces s → Spelling (.string pieces) ('"' :: s ++ ['"'])
  | array {space : List Char} {items : List (Tree × List Char)} :
      Spacing space → (∀ i ∈ items, Spelling i.1 i.2) →
      Spelling (.array (items.map Prod.fst))
        ('[' :: space ++ [','].intercalate (items.map Prod.snd) ++ [']'])
  | object {space : List Char} {members : List MemberText} :
      Spacing space → (∀ m ∈ members, Spelling (.string m.key) m.keyText) →
      (∀ m ∈ members, Spelling m.value m.valueText) →
      Spelling (.object (members.map MemberText.member))
        ('{' :: space ++ [','].intercalate (members.map MemberText.text) ++ ['}'])
  | spaced {t : Tree} {before s after : List Char} :
      Spacing before → Spelling t s → Spacing after → Spelling t (before ++ s ++ after)

/-- Every number is spelled as one, and the pieces of every string and key are valid. -/
inductive WellFormed : Tree → Prop
  | null : WellFormed .null
  | bool (b : Bool) : WellFormed (.bool b)
  | number {spelling : List Char} : isNumber spelling = true → WellFormed (.number spelling)
  | string {pieces : List Piece} : (∀ p ∈ pieces, p.Valid) → WellFormed (.string pieces)
  | array {items : List Tree} : (∀ t ∈ items, WellFormed t) → WellFormed (.array items)
  | object {members : List (List Piece × Tree)} : (∀ m ∈ members, ∀ p ∈ m.1, p.Valid) →
      (∀ m ∈ members, WellFormed m.2) → WellFormed (.object members)

/-- What has a spelling is well formed. -/
theorem Spelling.wellFormed {t : Tree} {s : List Char} (h : t.Spelling s) : t.WellFormed := by
  induction h with
  | null => exact .null
  | bool b => exact .bool b
  | number spelled => exact .number (isNumber_iff.mpr spelled)
  | string spelled => exact .string spelled.valid
  | array _ _ ih => exact .array (List.forall_mem_map.mpr ih)
  | object _ _ _ keys ih =>
    refine .object (List.forall_mem_map.mpr fun m hm => ?_) (List.forall_mem_map.mpr ih)
    cases keys m hm with
    | string valid => exact valid
  | spaced _ _ _ ih => exact ih

/-! ### The compact text -/

def memberPart (m : List Piece × Tree) : List Token := .string m.1 :: .colon :: m.2.tokens

theorem itemTokens_eq (items : List Tree) : itemTokens items = items.map tokens := by
  induction items with
  | nil => rfl
  | cons t items ih => rw [itemTokens, ih, List.map_cons]

theorem memberTokens_eq (members : List (List Piece × Tree)) :
    memberTokens members = members.map memberPart := by
  induction members with
  | nil => rfl
  | cons m members ih => rw [memberTokens, ih, List.map_cons, memberPart]

/-- The text of items between commas is that of the items, between commas. -/
theorem flatMap_text_intercalate (parts : List (List Token)) :
    ([Token.comma].intercalate parts).flatMap Token.text =
      [','].intercalate (parts.map fun p => p.flatMap Token.text) := by
  induction parts with
  | nil => rfl
  | cons first parts ih =>
    cases parts with
    | nil => simp
    | cons next parts =>
      simp only [List.intercalate_cons_cons, List.map_cons, List.flatMap_append] at ih ⊢
      rw [ih]
      rfl

/-- The compact text of a well-formed value is a spelling of it. -/
theorem WellFormed.spelling {t : Tree} (h : t.WellFormed) :
    t.Spelling (t.tokens.flatMap Token.text) := by
  have none : Spacing [] := by simp [Spacing]
  induction h with
  | null => exact .null
  | bool b => cases b <;> exact .bool _
  | @number spelling number =>
    simpa [tokens, Token.text] using Spelling.number (isNumber_iff.mp number)
  | @string pieces valid =>
    simpa [tokens, Token.text] using Spelling.string (stringSpelling_text valid)
  | @array items _ ih =>
    have spelled := @Spelling.array [] (items.map fun t => (t, t.tokens.flatMap Token.text)) none
      (List.forall_mem_map.mpr ih)
    rw [tokens, itemTokens_eq]
    simpa [flatMap_text_intercalate, Token.text, Function.comp_def] using spelled
  | @object members keys _ ih =>
    have spelled := @Spelling.object [] (members.map fun m =>
        ⟨m.1, (Token.string m.1).text, m.2, m.2.tokens.flatMap Token.text⟩) none
      (List.forall_mem_map.mpr fun m hm => .string (stringSpelling_text (keys m hm)))
      (List.forall_mem_map.mpr ih)
    rw [tokens, memberTokens_eq]
    simpa [flatMap_text_intercalate, memberPart, MemberText.text, MemberText.member, Token.text,
      Function.comp_def] using spelled

end Tree

end RsqlQuery.Json

import Mathlib.Data.List.Forall2
import RsqlQuery.Proofs.Text.Foreign
import RsqlQuery.Proofs.Text.Quoted
import RsqlQuery.Proofs.Value.Sequence

/-!
# Sequences inside sequences

A sequence inside a sequence is one item of it, and that item is percent-encoded from its plain
text. So each inner sequence of texts gives one piece of the literal, and the piece decodes to the
texts as they are, with commas between them. Nothing is escaped on the way, so nothing is to be
unescaped: a reader who does so changes every piece with a backslash in it.

## Main definitions

* `Value.ofTexts`, `Value.ofTextLists` — sequences of texts, and sequences of those.

## Main statements

* `Value.pieces_literal_ofTextLists` — the pieces of a sequence of sequences of texts.
* `Value.unescape_piece_ofTextLists` — a piece that unescaping changes.
-/

namespace RsqlQuery.Value

open Text Time

def ofTexts (texts : List String) : Value := .array (texts.map .string)

def ofTextLists (lists : List (List String)) : Value := .array (lists.map ofTexts)

variable (z : TimeZone) (o : RenderOptions)

theorem plainText_ofTexts (texts : List String) :
    plainText z o (ofTexts texts) = itemSeparator.intercalate texts := by
  have visible : present (texts.map .string) = texts.map .string := by
    simp [present, isAbsent]
  rw [ofTexts, plainText, plainTexts_eq, visible, List.map_map]
  simp [plainText, Function.comp_def]

theorem percentDecode_piece_ofTexts (texts : List String) :
    percentDecode (piece z o (ofTexts texts)) = itemSeparator.intercalate texts := by
  have encoded : piece z o (ofTexts texts) = percentEncode (plainText z o (ofTexts texts)) := rfl
  rw [encoded, percentDecode_percentEncode, plainText_ofTexts]

theorem pieces_ofTextLists {lists : List (List String)} (nonempty : lists ≠ []) :
    pieces (literal z o (ofTextLists lists)).text = lists.map fun texts => piece z o (ofTexts texts)
    := by
  have visible : present (lists.map ofTexts) = lists.map ofTexts := by
    simp [present, isAbsent, ofTexts]
  rw [ofTextLists, literal, visible, List.map_map]
  refine pieces_intercalate (by simpa using nonempty) ?_
  intro p hp
  obtain ⟨texts, -, rfl⟩ := List.mem_map.mp hp
  exact comma_not_mem_piece z o _

/-- The literal of a sequence of sequences of texts has one piece for each of them, in order, and
the piece decodes to its texts as they are, with commas between them. So unescaping what it decodes
to changes nothing exactly if none of its texts holds a backslash. -/
theorem pieces_literal_ofTextLists (lists : List (List String)) (nonempty : lists ≠ []) :
    List.Forall₂
      (fun piece texts =>
        percentDecode piece = ",".intercalate texts ∧
        (unescape (percentDecode piece) = ",".intercalate texts ↔
          ∀ s ∈ texts, '\\' ∉ s.toList))
      (pieces (literal z o (ofTextLists lists)).text) lists := by
  rw [pieces_ofTextLists z o nonempty, List.forall₂_map_left_iff, List.forall₂_same]
  intro texts _
  have decoded : percentDecode (piece z o (ofTexts texts)) = ",".intercalate texts :=
    percentDecode_piece_ofTexts z o texts
  refine ⟨decoded, ?_⟩
  rw [decoded, unescape_eq_self_iff, mem_intercalate_iff (by decide)]
  simp

/-- Of two inner sequences the second holds a backslash, and unescaping changes its piece only. -/
theorem pieces_literal_ofTextLists_backslash :
    [["a,b", "\"c\""], ["d\\"]] ≠ [] ∧
    ∃ first second,
      pieces (literal .utc {} (ofTextLists [["a,b", "\"c\""], ["d\\"]])).text = [first, second] ∧
      unescape (percentDecode first) = "a,b,\"c\"" ∧
      percentDecode second = "d\\" ∧ unescape (percentDecode second) ≠ "d\\" := by
  have held : [["a,b", "\"c\""], ["d\\"]] ≠ [] := by simp
  have both := pieces_literal_ofTextLists .utc {} _ held
  obtain ⟨first, rest, ⟨-, same⟩, more, cut⟩ := List.forall₂_cons_right_iff.mp both
  obtain ⟨second, last, ⟨decoded, changed⟩, none, rfl⟩ := List.forall₂_cons_right_iff.mp more
  rw [List.forall₂_nil_right_iff.mp none] at cut
  refine ⟨held, first, second, cut, same.mpr (by decide), decoded, fun h => ?_⟩
  exact absurd (changed.mp h) (by decide)

/-- A lone backslash inside two sequences is written without an escape, so unescaping drops it; and
a sequence of no sequences is the empty text, which is still one piece. -/
theorem unescape_piece_ofTextLists :
    pieces (literal .utc {} (ofTextLists [["\\"]])).text = ["%5C"] ∧
    unescape (percentDecode "%5C") = "" ∧ ",".intercalate ["\\"] ≠ "" ∧
    pieces (literal .utc {} (ofTextLists [])).text = [""] := by
  decide

end RsqlQuery.Value

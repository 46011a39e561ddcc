import RsqlQuery.Proofs.Number.Alphabet
import RsqlQuery.Proofs.Text.Percent
import RsqlQuery.Proofs.Text.Quoted
import RsqlQuery.Value.Literal

/-!
# The items of a sequence

The literal of a sequence is cut back into its items at the commas. No item brings a comma of its
own: numbers are written without one, and what else an item holds is percent-encoded. So there is
one piece for each item that is not absent, each piece is the same wherever its item stands, and it
decodes to the literal of the item.

## Main definitions

* `Value.pieces` — a text cut at its commas.

## Main statements

* `Value.pieces_literal_array` — the pieces of the literal of a sequence.
-/

namespace RsqlQuery.Value

open Number Text Time

/-- The parts of a text between its commas. -/
def pieces (text : String) : List String := (text.toList.splitOn ',').map String.ofList

variable (z : TimeZone) (o : RenderOptions)

/-- An item of a sequence is a number or percent-encoded. -/
theorem not_mem_piece {x : Char} (number : isNumeric x = false) (special : Percent.keeps x = false)
    (percent : x ≠ '%') (v : Value) : x ∉ (piece z o v).toList := by
  have encoded : ∀ s, x ∉ (percentEncode s).toList := by
    intro s
    rw [toList_percentEncode]
    exact Percent.not_mem_encode special percent s.toList
  cases v with
  | int n =>
    rw [piece, plainText, String.toList_ofList]
    exact not_mem_integerText number n.toInt
  | float f => exact not_mem_text number f
  | _ => exact encoded _

theorem comma_not_mem_piece (v : Value) : ',' ∉ (piece z o v).toList :=
  not_mem_piece z o (by decide) (by decide) (by decide) v

/-- Cutting at the commas undoes joining with them, as long as there is anything to join. -/
theorem pieces_intercalate {ps : List String} (nonempty : ps ≠ [])
    (h : ∀ p ∈ ps, ',' ∉ p.toList) : pieces (itemSeparator.intercalate ps) = ps := by
  have separator : itemSeparator.toList = [','] := rfl
  have cut : (List.intercalate [','] (ps.map String.toList)).splitOn ',' =
      ps.map String.toList := by
    refine List.splitOn_intercalate ',' ?_ (by simpa using nonempty)
    rintro _ hl
    obtain ⟨p, hp, rfl⟩ := List.mem_map.mp hl
    exact h p hp
  rw [pieces, String.toList_intercalate, separator, cut, List.map_map]
  simp [Function.comp_def]

theorem present_ne_nil {items : List Value} (h : ∃ v ∈ items, v.isAbsent = false) :
    present items ≠ [] := by
  obtain ⟨v, hv, visible⟩ := h
  exact List.ne_nil_of_mem (List.mem_filter.mpr ⟨hv, by simp [visible]⟩)

theorem literal_singleton {v : Value} (h : v.isAbsent = false) :
    (literal z o (.array [v])).text = piece z o v := by
  simp [literal, present, h]

/-- What a piece of a sequence decodes to is the literal of the item, if that is no sequence. -/
theorem percentDecode_piece {v : Value} (h : v.isArray = false) :
    percentDecode (piece z o v) = (literal z o v).text := by
  cases v with
  | int n =>
    refine percentDecode_of_not_mem ?_
    rw [piece, plainText, String.toList_ofList]
    exact not_mem_integerText (by decide) n.toInt
  | float x => exact percentDecode_of_not_mem (not_mem_text (by decide) x)
  | array items => simp [isArray] at h
  | _ => simp [piece, literal]

/-- The literal of a sequence with an item that is not absent has one piece for each of those
items, in order. The piece of an item is what the sequence of that item alone renders; it decodes to
the literal of the item unless that is a sequence itself, and for a text it reads back as the
text. -/
theorem pieces_literal_array (items : List Value) (h : ∃ v ∈ items, v.isAbsent = false) :
    pieces (literal z o (.array items)).text =
      (items.filter fun v => !v.isAbsent).map (fun v => (literal z o (.array [v])).text) ∧
    (∀ v ∈ items, v.isAbsent = false → v.isArray = false →
      percentDecode (literal z o (.array [v])).text = (literal z o v).text) ∧
    ∀ s, .string s ∈ items →
      unescape (percentDecode (literal z o (.array [.string s])).text) = s := by
  have item : ∀ v ∈ present items, piece z o v = (literal z o (.array [v])).text := by
    intro v hv
    have visible : v.isAbsent = false := by simpa using (List.mem_filter.mp hv).2
    exact (literal_singleton z o visible).symm
  refine ⟨?_, ?_, ?_⟩
  · rw [literal, pieces_intercalate]
    · exact List.map_congr_left item
    · simpa using present_ne_nil h
    · rintro _ hp
      obtain ⟨v, -, rfl⟩ := List.mem_map.mp hp
      exact comma_not_mem_piece z o v
  · intro v _ visible single
    rw [literal_singleton z o visible, percentDecode_piece z o single]
  · intro s _
    rw [literal_singleton z o rfl, percentDecode_piece z o rfl, literal, unescape_escape]

/-- A sequence of nothing, a text with a comma, and null has two pieces. -/
theorem pieces_literal_array_mixed :
    (∃ v ∈ [absent, string "a,b", null], v.isAbsent = false) ∧
    pieces (literal .utc {} (.array [absent, string "a,b", null])).text =
      [(literal .utc {} (.array [string "a,b"])).text, (literal .utc {} (.array [null])).text] ∧
    unescape (percentDecode (literal .utc {} (.array [string "a,b"])).text) = "a,b" := by
  have held : ∃ v ∈ [absent, string "a,b", null], v.isAbsent = false := ⟨null, by simp, rfl⟩
  obtain ⟨cut, -, back⟩ := pieces_literal_array .utc {} _ held
  exact ⟨held, cut, back "a,b" (by simp)⟩

end RsqlQuery.Value

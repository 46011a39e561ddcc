import Mathlib.Tactic.SplitIfs
import RsqlQuery.Proofs.Text.Foreign
import RsqlQuery.Proofs.Value.Sequence

/-!
# Foreign characters of literals

The literal of a text is the text itself with its escapes, so what is foreign in the text is in its
literal. No other literal holds a foreign character: numbers have characters of their own, dates and
timestamps are written with these and with colons, whatever the time zone, words are made of
letters, and the items of a sequence are numbers or percent-encoded, whatever they hold and however
deep that lies.

## Main statements

* `Time.isNumeric_or_colon_of_mem_text` — what occurs in the text of an instant.
* `Value.mem_literal_iff` — a foreign character in a literal comes from a text.
-/

namespace RsqlQuery

open Number Text Time

/-! ## Dates -/

namespace Time

theorem isNumeric_of_mem_padded {c : Char} {width n : Nat} (h : c ∈ padded width n) :
    isNumeric c = true := by
  obtain zero | digit := List.mem_append.mp h
  · rw [List.eq_of_mem_replicate zero]
    rfl
  · exact isNumeric_of_mem_toDigits digit

theorem isNumeric_of_mem_yearText {c : Char} {year : Int} (h : c ∈ yearText year) :
    isNumeric c = true := by
  simp only [yearText] at h
  split_ifs at h
  · exact isNumeric_of_mem_padded h
  · obtain rfl | digit := List.mem_cons.mp h
    · rfl
    · exact isNumeric_of_mem_padded digit
  · obtain rfl | digit := List.mem_cons.mp h
    · rfl
    · exact isNumeric_of_mem_padded digit

theorem isNumeric_of_mem_civilDate {c : Char} {d : CivilDate} (h : c ∈ d.text) :
    isNumeric c = true := by
  simp only [CivilDate.text, List.mem_append, List.mem_cons] at h
  obtain (year | rfl | month) | rfl | day := h
  · exact isNumeric_of_mem_yearText year
  · rfl
  · exact isNumeric_of_mem_padded month
  · rfl
  · exact isNumeric_of_mem_padded day

theorem isNumeric_or_colon_of_mem_timestamp {c : Char} {t : Instant} (h : c ∈ t.timestamp) :
    isNumeric c = true ∨ c = ':' := by
  have digits : ∀ {width n : Nat}, c ∈ padded width n → isNumeric c = true ∨ c = ':' :=
    fun hp => .inl (isNumeric_of_mem_padded hp)
  simp only [Instant.timestamp, List.mem_append, List.mem_cons, List.not_mem_nil, or_false] at h
  obtain ((((date | rfl | hour) | rfl | minute) | rfl | second) | rfl | milli) | rfl := h
  · exact .inl (isNumeric_of_mem_civilDate date)
  · exact .inl rfl
  · exact digits hour
  · exact .inr rfl
  · exact digits minute
  · exact .inr rfl
  · exact digits second
  · exact .inl rfl
  · exact digits milli
  · exact .inl rfl

/-- The text of an instant holds the characters of numbers, and colons if it is a timestamp. -/
theorem isNumeric_or_colon_of_mem_text {c : Char} {z : TimeZone} {includeTimestamp : Bool}
    {t : Instant} (h : c ∈ t.text z includeTimestamp) : isNumeric c = true ∨ c = ':' := by
  rw [Instant.text] at h
  split_ifs at h
  · exact isNumeric_or_colon_of_mem_timestamp h
  · exact .inl (isNumeric_of_mem_civilDate h)

end Time

/-! ## Literals -/

namespace Value

variable (z : TimeZone) (o : RenderOptions) {x : Char}

theorem not_mem_integerLiteral (h : isForeign x = true) (n : Int64) :
    x ∉ (plainText z o (.int n)).toList := by
  rw [plainText, String.toList_ofList]
  exact not_mem_integerText (isNumeric_of_isForeign h) n.toInt

theorem not_mem_floatLiteral (h : isForeign x = true) (f : Binary64) :
    x ∉ (plainText z o (.float f)).toList :=
  not_mem_text (isNumeric_of_isForeign h) f

theorem not_mem_dateLiteral (h : isForeign x = true) (t : Instant) :
    x ∉ (plainText z o (.date t)).toList := by
  rw [plainText, String.toList_ofList]
  intro held
  obtain numeric | rfl := isNumeric_or_colon_of_mem_text held
  · simp [isNumeric_of_isForeign h] at numeric
  · exact absurd h (by decide)

theorem not_mem_arrayLiteral (h : isForeign x = true) (items : List Value) :
    x ∉ (literal z o (.array items)).text.toList := by
  rw [literal, mem_intercalate_iff (not_mem_of_all (by decide) h)]
  rintro ⟨_, hp, held⟩
  obtain ⟨v, -, rfl⟩ := List.mem_map.mp hp
  exact not_mem_piece z o (isNumeric_of_isForeign h) (keeps_of_isForeign h)
    (ne_of_isForeign h (by decide)) v held

/-- A foreign character in a literal comes from a text that is the value itself. -/
theorem mem_literal_iff (h : isForeign x = true) (v : Value) :
    x ∈ (literal z o v).text.toList ↔ ∃ s, v = .string s ∧ x ∈ s.toList := by
  cases v with
  | string s =>
    simpa [literal] using mem_escape_iff (ne_of_isForeign h (by decide)) s
  | absent => simp [literal, plainText]
  | null => simpa [literal, plainText] using not_mem_of_all (s := nullText.toList) (by decide) h
  | bool b =>
    simpa [literal, plainText] using
      not_mem_of_all (s := (boolText b).toList) (by cases b <;> decide) h
  | int n => simpa [literal] using not_mem_integerLiteral z o h n
  | float f => simpa [literal] using not_mem_floatLiteral z o h f
  | date t => simpa [literal] using not_mem_dateLiteral z o h t
  | array items => simpa using not_mem_arrayLiteral z o h items

end Value

end RsqlQuery

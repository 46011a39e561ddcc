import RsqlQuery.Proofs.Filter.TextComparison
import RsqlQuery.Proofs.Value.Decoded

/-!
# What comparisons decode to

Decoding undoes one percent-encoding. The seven textual operators encode the literal of their value
as a whole, and so they encode a second time what is encoded in it already, the items of a sequence.
All other operators write the literal as it is, or not at all. So where neither the field nor a text
in the value holds a percent sign, one is left behind by decoding exactly if a textual operator is
given a sequence with an item that percent-encoding changes.

## Main definitions

* `BuiltIn.decodedSuffix` — what an operator and its value decode to.

## Main statements

* `Comparison.percentDecode_render` — what a comparison decodes to.
* `Comparison.percent_mem_decoded_iff` — when decoding leaves a percent sign behind.
* `Comparison.decoded_equal_array` — a sequence that is encoded twice.
-/

namespace RsqlQuery

open Text Time

/-! ## Operators -/

namespace BuiltIn

/-- What an operator writes behind the field, decoded, given what the literal itself decodes to. -/
def decodedSuffix (op : BuiltIn) (l : Literal) (decoded : String) : String :=
  match op.form with
  | .literal => op.token ++ if l.quoted then quote l.text else l.text
  | .pattern before after => op.token ++ quote (wildcard before ++ l.text ++ wildcard after)
  | .verbatim => op.token ++ decoded
  | .membership => op.token ++ "(" ++ decoded ++ ")"
  | .emptyText => op.token ++ quote ""
  | .nullWord => op.token ++ Value.nullText

theorem isTextual_iff (op : BuiltIn) :
    op.isTextual = true ↔ op.form = .literal ∨ ∃ before after, op.form = .pattern before after := by
  cases op <;> simp [isTextual, form]

theorem percent_not_mem_token (op : BuiltIn) : '%' ∉ op.token.toList := by
  cases op <;> decide

theorem reads_suffix (op : BuiltIn) {l : Literal} {decoded : String}
    (h : Percent.Reads l.text.toList decoded.toList) :
    Percent.Reads (op.suffix l).toList (op.decodedSuffix l decoded).toList := by
  have token := Percent.reads_of_not_mem (percent_not_mem_token op)
  have opening : Percent.Reads ("(").toList ("(").toList := Percent.reads_of_not_mem (by decide)
  have closing : Percent.Reads (")").toList (")").toList := Percent.reads_of_not_mem (by decide)
  have null : Percent.Reads Value.nullText.toList Value.nullText.toList :=
    Percent.reads_of_not_mem (by decide)
  have encoded : ∀ s : String, Percent.Reads (percentEncode s).toList s.toList := by
    intro s
    rw [toList_percentEncode]
    exact Percent.reads_encode s.toList
  rw [suffix, decodedSuffix]
  cases op.form with
  | literal => simpa only [String.toList_append] using token.append (encoded _)
  | pattern before after => simpa only [String.toList_append] using token.append (encoded _)
  | verbatim => simpa only [String.toList_append] using (encoded _).append h
  | membership =>
    simpa only [String.toList_append] using ((token.append opening).append h).append closing
  | emptyText => simpa only [String.toList_append] using token.append (encoded _)
  | nullWord => simpa only [String.toList_append] using token.append null

/-- A percent sign is left behind if the literal holds one and the operator encodes it again. -/
theorem percent_mem_decodedSuffix_iff (op : BuiltIn) (l : Literal) {decoded : String}
    (free : '%' ∉ decoded.toList) :
    '%' ∈ (op.decodedSuffix l decoded).toList ↔ op.isTextual = true ∧ '%' ∈ l.text.toList := by
  have token := percent_not_mem_token op
  have wildcards : ∀ wanted, '%' ∉ (wildcard wanted).toList := by decide
  have null : '%' ∉ Value.nullText.toList := by decide
  rw [isTextual_iff, decodedSuffix]
  cases op.form with
  | literal => cases l.quoted <;> simp [token]
  | pattern before after => simp [token, wildcards]
  | verbatim => simp [token, free]
  | membership => simp [token, free]
  | emptyText => simp [token]
  | nullWord => simp [token, null]

end BuiltIn

/-! ## Comparisons -/

namespace Comparison

/-- A comparison decodes to the field and what the operator and the value decode to. -/
theorem percentDecode_render (z : TimeZone) {field : String} (op : BuiltIn) {v : Value}
    (o : RenderOptions) (hf : '%' ∉ field.toList) (hv : ∀ s ∈ v.texts, '%' ∉ s.toList) :
    percentDecode (({ field, operator := op, value := v, options := o } : Comparison).render z) =
      field ++ op.decodedSuffix (v.literal z o) (v.decodedLiteral z o) := by
  have suffix := BuiltIn.reads_suffix op (Value.reads_literal z o hv).1
  have whole := ((Percent.reads_of_not_mem hf).append suffix).decode_eq
  simp only [← String.toList_append] at whole
  rw [percentDecode, render, Operator.suffix, whole, String.ofList_toList]

/-- Where neither the field nor a text in the value holds a percent sign, the decoded comparison
holds one exactly if the operator is one of the seven textual ones and its value is a sequence with
an item that is not a number and whose text, escaped if that is all it is, has a character that does
not stand for itself. -/
theorem percent_mem_decoded_iff (z : TimeZone) (field : String) (op : BuiltIn) (v : Value)
    (o : RenderOptions) (hf : '%' ∉ field.toList) (hv : ∀ s ∈ v.texts, '%' ∉ s.toList) :
    '%' ∈ (percentDecode
        (({ field, operator := op, value := v, options := o } : Comparison).render z)).toList ↔
      op.isTextual = true ∧
        ∃ items, v = .array items ∧ ∃ w ∈ items, w.isAbsent = false ∧ w.isNumber = false ∧
          ∃ c ∈ (w.itemText z o).toList, Percent.keeps c = false := by
  have free := (Value.reads_literal z o hv).2
  rw [percentDecode_render z op o hf hv, String.toList_append, List.mem_append,
    BuiltIn.percent_mem_decodedSuffix_iff op _ free, Value.percent_mem_literal_iff z o hv]
  simp only [hf, false_or]

/-- Two items of three are numbers or stand for themselves, and a space is in the third. -/
theorem percent_mem_decoded_iff_spaced :
    '%' ∉ ("tags").toList ∧
    (∀ s ∈ (Value.array [.int 3, .string "a", .string "b c"]).texts, '%' ∉ s.toList) ∧
    '%' ∈ (percentDecode
      (({ field := "tags", operator := BuiltIn.notEqual,
          value := .array [.int 3, .string "a", .string "b c"] } : Comparison).render
        .utc)).toList := by
  have hf : '%' ∉ ("tags").toList := by decide
  have hv : ∀ s ∈ (Value.array [.int 3, .string "a", .string "b c"]).texts, '%' ∉ s.toList := by
    decide
  refine ⟨hf, hv, (percent_mem_decoded_iff .utc "tags" .notEqual _ {} hf hv).mpr ?_⟩
  exact ⟨rfl, _, rfl, .string "b c", by simp, rfl, rfl, ' ', by decide, by decide⟩

/-- A text with a space, alone in a sequence, is encoded once as an item and once more behind the
operator. -/
theorem decoded_equal_array :
    (∀ s ∈ (Value.array [.string "a b"]).texts, '%' ∉ s.toList) ∧
    ({ field := "tags", operator := BuiltIn.equal, value := .array [.string "a b"] }
      : Comparison).render .utc = "tags=in=a%2520b" ∧
    percentDecode (({ field := "tags", operator := BuiltIn.equal, value := .array [.string "a b"] }
      : Comparison).render .utc) = "tags=in=a%20b" := by
  decide

end Comparison

end RsqlQuery

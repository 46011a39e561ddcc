import RsqlQuery.Proofs.Query.Sections

/-!
# Reading the ordering back

The section of the ordering is percent-encoded as a whole, so it decodes to the texts of the sort
keys with a comma and a space between them. If no field holds a comma, the commas are those between
the keys, whatever else the fields hold. The word for a direction holds no space, so the last space
of a key is the one behind its field, even where the field is empty or ends in such a word itself.

## Main definitions

* `cutKeys` — the parts of a text between its separators.
* `SortKey.ofText?`, `readOrdering?` — the sort key of a text, and those of a whole ordering.

## Main statements

* `SortKey.ofText?_toList_text` — a sort key is read back from its text.
* `Query.readOrdering?_ordering` — the ordering is read back from its section.
-/

namespace RsqlQuery

open Text Time

/-- The parts of a text between its separators, each of which is a comma and a space. -/
def cutKeys : List Char → List (List Char)
  | ',' :: ' ' :: rest => [] :: cutKeys rest
  | c :: rest => (cutKeys rest).modifyHead fun part => c :: part
  | [] => [[]]

/-- The sort key of a text: its field ends at the last space. -/
def SortKey.ofText? (text : List Char) : Option SortKey :=
  let word := (text.reverse.takeWhile (· != ' ')).reverse
  match text.reverse.dropWhile (· != ' ') with
  | [] => none
  | _ :: field =>
    (Direction.ofWord? (String.ofList word)).map fun direction =>
      { field := String.ofList field.reverse, direction }

/-- The sort keys of an ordering, if every part of it is one. -/
def readOrdering? (text : String) : Option (List SortKey) :=
  (cutKeys text.toList).mapM SortKey.ofText?

/-! ## Cutting -/

theorem cutKeys_cons {c : Char} (h : c ≠ ',') (rest : List Char) :
    cutKeys (c :: rest) = (cutKeys rest).modifyHead fun part => c :: part := by
  rw [cutKeys.eq_def]
  split <;> simp_all

theorem cutKeys_of_not_mem {part : List Char} (h : ',' ∉ part) : cutKeys part = [part] := by
  induction part with
  | nil => rfl
  | cons c part ih =>
    rw [List.mem_cons, not_or] at h
    rw [cutKeys_cons (Ne.symm h.1), ih h.2, List.modifyHead_cons]

theorem cutKeys_append {part : List Char} (h : ',' ∉ part) (rest : List Char) :
    cutKeys (part ++ ',' :: ' ' :: rest) = part :: cutKeys rest := by
  induction part with
  | nil => rfl
  | cons c part ih =>
    rw [List.mem_cons, not_or] at h
    rw [List.cons_append, cutKeys_cons (Ne.symm h.1), ih h.2, List.modifyHead_cons]

/-- Cutting undoes joining, as long as there is anything to join. -/
theorem cutKeys_intercalate {parts : List (List Char)} (nonempty : parts ≠ [])
    (h : ∀ part ∈ parts, ',' ∉ part) : cutKeys (List.intercalate [',', ' '] parts) = parts := by
  induction parts with
  | nil => exact absurd rfl nonempty
  | cons part parts ih =>
    have first := h part List.mem_cons_self
    cases parts with
    | nil =>
      rw [List.intercalate_singleton]
      exact cutKeys_of_not_mem first
    | cons next parts =>
      have rest := ih (by simp) fun p hp => h p (List.mem_cons_of_mem part hp)
      rw [List.intercalate_cons_cons, List.append_assoc, List.cons_append, List.singleton_append,
        cutKeys_append first, rest]

/-! ## Sort keys -/

namespace SortKey

theorem toList_text (k : SortKey) :
    k.text.toList = k.field.toList ++ ' ' :: k.direction.word.toList := by
  simp [text]

theorem ofText?_toList_text (k : SortKey) : ofText? k.text.toList = some k := by
  have spaceless : ∀ c ∈ k.direction.word.toList.reverse, (c != ' ') = true := by
    cases k.direction <;> simp [Direction.word]
  have reversed : k.text.toList.reverse =
      k.direction.word.toList.reverse ++ ' ' :: k.field.toList.reverse := by
    simp [toList_text]
  unfold ofText?
  rw [reversed, List.takeWhile_append_of_pos spaceless, List.dropWhile_append_of_pos spaceless]
  simp

/-- A sort key has a comma only in its field. -/
theorem comma_not_mem_text {k : SortKey} (h : ',' ∉ k.field.toList) : ',' ∉ k.text.toList := by
  have word : ',' ∉ k.direction.word.toList := by cases k.direction <;> decide
  simp [toList_text, h, word]

end SortKey

theorem readOrdering?_intercalate {keys : List SortKey} (nonempty : keys ≠ [])
    (h : ∀ k ∈ keys, ',' ∉ k.field.toList) :
    readOrdering? (", ".intercalate (keys.map SortKey.text)) = some keys := by
  have separator : (", ").toList = [',', ' '] := rfl
  have cut : cutKeys (List.intercalate [',', ' '] (keys.map fun k => k.text.toList)) =
      keys.map fun k => k.text.toList := by
    refine cutKeys_intercalate (by simpa using nonempty) ?_
    intro part hp
    obtain ⟨k, hk, rfl⟩ := List.mem_map.mp hp
    exact SortKey.comma_not_mem_text (h k hk)
  rw [readOrdering?, String.toList_intercalate, separator, List.map_map]
  simp only [Function.comp_def, cut]
  have back : SortKey.ofText? ∘ (fun k => k.text.toList) = pure :=
    funext SortKey.ofText?_toList_text
  rw [List.mapM_map, back]
  simpa using List.mapM_pure (m := Option) (f := id) (l := keys)

/-! ## The section of the ordering -/

namespace Query

theorem lookup_ordering (z : TimeZone) {q : Query} (nonempty : q.ordering ≠ []) :
    (q.contents z).lookup .ordering = some (orderingText q.ordering) := by
  have filters : (q.filterContent z).lookup .ordering = none := by
    simp only [filterContent]
    split_ifs <;> rfl
  simp [contents, List.lookup_append, filters, orderingContent, nonempty]

/-- If no field holds a comma, the section of the ordering decodes to a text that reads as the
ordering itself. It is also what is found under the label of the ordering where a query string can
be cut back into its sections. -/
theorem readOrdering?_ordering (z : TimeZone) (q : Query) (nonempty : q.ordering ≠ [])
    (commaFree : ∀ k ∈ q.ordering, ',' ∉ k.field.toList) :
    ∃ text, (q.contents z).lookup .ordering = some text ∧
      readOrdering? (percentDecode text) = some q.ordering ∧
      (q.labels.Plain → '&' ∉ (q.filters.render z).toList →
        (q.labels.ordering, text) ∈ readSections (q.render z)) := by
  refine ⟨orderingText q.ordering, lookup_ordering z nonempty, ?_, ?_⟩
  · rw [orderingText, percentDecode_percentEncode]
    exact readOrdering?_intercalate nonempty commaFree
  · intro plain filters
    rw [readSections_render_eq plain filters, sections, List.mem_filterMap]
    exact ⟨.ordering, by simp, by simp [sectionText?, nonempty, orderingText, Labels.get]⟩

/-- Fields that are empty, that end in a direction, or that hold separators of the query. -/
def oddlySorted : Query where
  ordering := [{ field := "" }, { field := "a asc", direction := .descending }, { field := "é&b=" }]

theorem readOrdering?_ordering_oddlySorted :
    oddlySorted.ordering ≠ [] ∧ (∀ k ∈ oddlySorted.ordering, ',' ∉ k.field.toList) ∧
    (oddlySorted.contents .utc).lookup .ordering =
      some "%20asc%2C%20a%20asc%20desc%2C%20%C3%A9%26b%3D%20asc" ∧
    readOrdering? (percentDecode "%20asc%2C%20a%20asc%20desc%2C%20%C3%A9%26b%3D%20asc") =
      some oddlySorted.ordering := by
  have nonempty : oddlySorted.ordering ≠ [] := by decide
  have commaFree : ∀ k ∈ oddlySorted.ordering, ',' ∉ k.field.toList := by decide
  have text : (oddlySorted.contents .utc).lookup .ordering =
      some "%20asc%2C%20a%20asc%20desc%2C%20%C3%A9%26b%3D%20asc" := by decide
  obtain ⟨found, same, back, -⟩ := readOrdering?_ordering .utc oddlySorted nonempty commaFree
  obtain rfl := Option.some.inj (same.symm.trans text)
  exact ⟨nonempty, commaFree, text, back⟩

end Query

end RsqlQuery

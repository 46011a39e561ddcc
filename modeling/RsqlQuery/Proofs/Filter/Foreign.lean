import RsqlQuery.Proofs.Filter.NormalForm
import RsqlQuery.Proofs.Value.Foreign

/-!
# Foreign characters of filters

Most built-in operators percent-encode what they write. The four that compare by order and the two
for membership write the literal of their value as it is, and for a value that is a text this is
the text itself. So a foreign character in a comparison comes from its field, or from such a text. A
filter holds the foreign characters of its comparisons and no others, since connectives and
parentheses are not foreign.

## Main definitions

* `BuiltIn.splices` — operators that write the literal of their value as it is.

## Main statements

* `Comparison.mem_render_iff`, `Filter.mem_fragment_iff` — where foreign characters come from.
* `Comparison.ampersand_mem_render_iff` — when a comparison holds the separator of sections.
-/

namespace RsqlQuery

open Text Time

variable {x : Char}

/-! ## Comparisons -/

namespace BuiltIn

/-- Operators that write the literal of their value without percent-encoding it. -/
def splices : BuiltIn → Bool
  | greaterThan | greaterOrEqual | lessThan | lessOrEqual | isIn | notIn => true
  | _ => false

theorem splices_iff (op : BuiltIn) :
    op.splices = true ↔ op.form = .verbatim ∨ op.form = .membership := by
  cases op <;> decide

/-- Tokens hold nothing foreign but for those of the operators that percent-encode them. -/
theorem not_mem_token (h : isForeign x = true) {op : BuiltIn} (encoded : op.form ≠ .verbatim) :
    x ∉ op.token.toList := by
  have own : op.form = .verbatim ∨ op.token.toList.all (fun c => !isForeign c) = true := by
    cases op <;> decide
  exact not_mem_of_all (own.resolve_left encoded) h

theorem mem_suffix_iff (h : isForeign x = true) (op : BuiltIn) (l : Literal) :
    x ∈ (op.suffix l).toList ↔ op.splices = true ∧ x ∈ l.text.toList := by
  have token : op.form ≠ .verbatim → x ∉ op.token.toList := not_mem_token h
  have encoded : ∀ s, x ∉ (percentEncode s).toList := not_mem_percentEncode h
  have opening : x ∉ ("(").toList := not_mem_of_all (by decide) h
  have closing : x ∉ (")").toList := not_mem_of_all (by decide) h
  have null : x ∉ Value.nullText.toList := not_mem_of_all (by decide) h
  rw [splices_iff, suffix]
  cases hf : op.form <;>
    simp only [hf, String.toList_append, List.mem_append, ne_eq, reduceCtorEq, not_false_eq_true,
      token, encoded, opening, closing, null, or_self, or_true, or_false, false_or, true_and,
      false_and]

end BuiltIn

namespace Comparison

/-- A foreign character in a comparison by a built-in operator comes from the field, or from a text
that the operator writes as it is. -/
theorem mem_render_iff (h : isForeign x = true) (z : TimeZone) {c : Comparison} {op : BuiltIn}
    (builtIn : c.operator = .builtIn op) :
    x ∈ (c.render z).toList ↔
      x ∈ c.field.toList ∨ op.splices = true ∧ ∃ s, c.value = .string s ∧ x ∈ s.toList := by
  rw [render, builtIn, Operator.suffix, String.toList_append, List.mem_append,
    BuiltIn.mem_suffix_iff h, Value.mem_literal_iff z c.options h]

end Comparison

/-! ## Filters -/

namespace Fragment

theorem mem_parenthesized_iff (h : isForeign x = true) (s : String) :
    x ∈ (parenthesized s).toList ↔ x ∈ s.toList := by
  have opening : x ∉ ("(").toList := not_mem_of_all (by decide) h
  have closing : x ∉ (")").toList := not_mem_of_all (by decide) h
  simp only [parenthesized, String.toList_append, List.mem_append, opening, closing, false_or,
    or_false]

theorem mem_asPart_iff (h : isForeign x = true) (f : Fragment) :
    x ∈ f.asPart.toList ↔ x ∈ f.text.toList := by
  rw [asPart]
  split_ifs
  · exact mem_parenthesized_iff h f.text
  · rfl

theorem mem_joinRest_iff (h : isForeign x = true) (parts : List (Link Fragment)) :
    x ∈ (joinRest parts).toList ↔ ∃ p ∈ parts, x ∈ p.item.text.toList := by
  have connective : ∀ k : Connective, x ∉ k.encoded.toList := fun _ => not_mem_percentEncode h _
  simp only [joinRest, String.toList_join, List.mem_flatMap, List.mem_map, exists_exists_and_eq_and,
    String.toList_append, List.mem_append, connective, false_or, mem_asPart_iff h]

theorem mem_join_iff (h : isForeign x = true) (grouped : Bool) (parts : List (Link Fragment)) :
    x ∈ (join grouped parts).text.toList ↔ ∃ p ∈ parts, x ∈ p.item.text.toList := by
  cases parts with
  | nil => simp [join]
  | cons p rest =>
    by_cases more : rest = []
    · simp [more, join]
    · have joined : x ∈ (p.item.asPart ++ joinRest rest).toList ↔
          ∃ q ∈ p :: rest, x ∈ q.item.text.toList := by
        rw [String.toList_append, List.mem_append, mem_asPart_iff h, mem_joinRest_iff h]
        simp
      rw [Filter.join_cons_of_ne_nil more, ← joined]
      split_ifs
      · exact mem_parenthesized_iff h _
      · rfl

/-- Parts that render nothing hold no character, so none is lost with them. -/
theorem mem_assemble_iff (h : isForeign x = true) (grouped : Bool) (parts : List (Link Fragment)) :
    x ∈ (assemble grouped parts).text.toList ↔ ∃ p ∈ parts, x ∈ p.item.text.toList := by
  rw [assemble, mem_join_iff h]
  constructor
  · rintro ⟨p, hp, hx⟩
    exact ⟨p, (List.mem_filter.mp hp).1, hx⟩
  · rintro ⟨p, hp, hx⟩
    refine ⟨p, List.mem_filter.mpr ⟨hp, isVisible_iff.mpr ?_⟩, hx⟩
    intro empty
    simp [empty] at hx

end Fragment

/-- A foreign character in a filter comes from one of its comparisons, and none is lost. -/
theorem Filter.mem_fragment_iff (h : isForeign x = true) (z : TimeZone) (f : Filter) :
    x ∈ (f.fragment z).text.toList ↔ ∃ c ∈ f.comparisons, x ∈ (c.render z).toList := by
  induction f using chain_induction with
  | comparison c => simp [fragment, comparisons]
  | chain links grouped ih =>
    rw [fragment_chain_mk, ← Fragment.assemble, Fragment.mem_assemble_iff h, comparisons_chain]
    simp only [List.mem_map, exists_exists_and_eq_and, List.mem_flatMap]
    constructor
    · rintro ⟨l, hl, hx⟩
      obtain ⟨c, hc, hx⟩ := (ih l hl).mp hx
      exact ⟨c, ⟨l, hl, hc⟩, hx⟩
    · rintro ⟨c, ⟨l, hl, hc⟩, hx⟩
      exact ⟨l, hl, (ih l hl).mpr ⟨c, hc, hx⟩⟩

/-! ## The separator of sections -/

/-- The character that separates the sections of a query occurs in a comparison by a built-in
operator only if it occurs in the field, or in a text that the operator writes as it is. -/
theorem Comparison.ampersand_mem_render_iff (z : TimeZone) (field : String) (op : BuiltIn)
    (v : Value) (o : RenderOptions) :
    '&' ∈ (({ field, operator := op, value := v, options := o } : Comparison).render z).toList ↔
      '&' ∈ field.toList ∨ op.splices = true ∧ ∃ s, v = .string s ∧ '&' ∈ s.toList :=
  mem_render_iff (by decide) z rfl

/-- A text that is compared by order brings its ampersand into the query. -/
theorem render_greaterThan_ampersand :
    '&' ∉ ("age").toList ∧
    ((field "age").greaterThan "1&$pageSize=9").render .utc = "age%3E1&$pageSize=9" ∧
    '&' ∈ (((field "age").greaterThan "1&$pageSize=9").render .utc).toList := by
  decide

end RsqlQuery

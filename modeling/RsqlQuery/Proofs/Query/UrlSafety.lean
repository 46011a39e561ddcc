import RsqlQuery.Proofs.Filter.Foreign
import RsqlQuery.Proofs.Query.Sections

/-!
# When a query string can stand in a URL

A query string has to be ASCII without spaces and double quotes. A character that breaks this rule
is foreign, and so comes from a text that is written as it is: a label, a field, or a text that an
operator splices in. Every one of these is written somewhere, so the query string keeps the rule
exactly if all of them do.

## Main statements

* `Comparison.isUrlSafe_iff`, `Chain.isUrlSafe_iff` — when comparisons and filters keep the rule.
* `Query.isUrlSafe_render_iff` — when a query string does.
-/

namespace RsqlQuery

open Text Time

variable (z : TimeZone)

theorem Comparison.isUrlSafe_iff {c : Comparison} (builtIn : c.operator.isCustom = false) :
    isUrlSafe (c.render z) = true ↔
      isUrlSafe c.field = true ∧
      ∀ op s, c.operator = .builtIn op → op.splices = true → c.value = .string s →
        isUrlSafe s = true := by
  cases hop : c.operator with
  | custom op => simp [hop, Operator.isCustom] at builtIn
  | builtIn op =>
    have sources : ∀ x, isUrlSafeChar x = false → (x ∈ (c.render z).toList ↔
        ∃ t, (t = c.field ∨ op.splices = true ∧ c.value = .string t) ∧ x ∈ t.toList) := by
      intro x hx
      rw [mem_render_iff (isForeign_of_not_isUrlSafeChar hx) z hop]
      grind
    rw [isUrlSafe_iff_of_sources sources]
    grind

theorem Chain.isUrlSafe_iff (c : FilterChain) :
    isUrlSafe (c.render z) = true ↔
      ∀ e ∈ (Filter.chain c).comparisons, isUrlSafe (e.render z) = true := by
  have sources : ∀ x, isUrlSafeChar x = false → (x ∈ (c.render z).toList ↔
      ∃ t, (∃ e ∈ (Filter.chain c).comparisons, e.render z = t) ∧ x ∈ t.toList) := by
    intro x hx
    rw [render, Filter.mem_fragment_iff (isForeign_of_not_isUrlSafeChar hx)]
    grind
  rw [isUrlSafe_iff_of_sources sources]
  grind

theorem isUrlSafe_writeSections_iff (sections : List (String × String)) :
    isUrlSafe (writeSections sections) = true ↔
      ∀ s ∈ sections, isUrlSafe s.1 = true ∧ isUrlSafe s.2 = true := by
  have sources : ∀ x, isUrlSafeChar x = false → (x ∈ (writeSections sections).toList ↔
      ∃ t, (∃ s ∈ sections, t = s.1 ∨ t = s.2) ∧ x ∈ t.toList) := by
    intro x hx
    have ampersand : x ∉ ("&").toList := not_mem_of_isUrlSafe (by decide) hx
    have equals : x ∉ ("=").toList := not_mem_of_isUrlSafe (by decide) hx
    rw [writeSections, mem_intercalate_iff ampersand]
    simp only [List.mem_map, exists_exists_and_eq_and, String.toList_append, List.mem_append,
      equals, or_false]
    grind
  rw [isUrlSafe_iff_of_sources sources]
  grind

namespace Query

/-- No section but that of the filters can break the rule with its text. -/
theorem isUrlSafe_sectionText?_iff (q : Query) :
    (∀ s text, q.sectionText? z s = some text → isUrlSafe text = true) ↔
      isUrlSafe (q.filters.render z) = true := by
  constructor
  · intro safe
    by_cases none : q.filters.render z = ""
    · rw [none]
      rfl
    · exact safe .filters _ (if_neg none)
  · intro safe s text hs
    refine isUrlSafe_iff.mpr fun x hx held => ?_
    exact not_mem_of_isUrlSafe safe hx
      (mem_filters_of_mem_sectionText? (isForeign_of_not_isUrlSafeChar hx) hs held)

/-- With built-in operators only, a query string can stand in a URL exactly if the labels of all
sections that are written can, and the fields of all comparisons, and every text that one of the six
operators for order and membership is given as its value. -/
theorem isUrlSafe_render_iff (q : Query)
    (builtIn : ∀ c ∈ (Filter.chain q.filters).comparisons, c.operator.isCustom = false) :
    isUrlSafe (q.render z) = true ↔
      (∀ s, (q.sectionText? z s).isSome = true → isUrlSafe (q.labels.get s) = true) ∧
      ∀ c ∈ (Filter.chain q.filters).comparisons,
        isUrlSafe c.field = true ∧
        ∀ op s, c.operator = .builtIn op → op.splices = true → c.value = .string s →
          isUrlSafe s = true := by
  have comparisons : isUrlSafe (q.filters.render z) = true ↔ _ :=
    (Chain.isUrlSafe_iff z q.filters).trans
      (forall₂_congr fun c hc => Comparison.isUrlSafe_iff z (builtIn c hc))
  rw [← comparisons, ← isUrlSafe_sectionText?_iff, render_eq, isUrlSafe_writeSections_iff,
    forall_mem_sections]
  simp only [imp_and, forall_and, Option.isSome_iff_exists, forall_exists_index]

/-- Two texts with spaces, one of them encoded and the other, deeper, not. -/
def spacedTexts : Query where
  filters := (Chain.ofFilter ((field "title").contains "é \"")).or
    ((Chain.ofFilter ((field "size").lessThan (3 : Int))).and ((field "name").greaterThan "a b"))
  ordering := [{ field := "é \"" }]

theorem isUrlSafe_render_iff_spacedTexts :
    (∀ c ∈ (Filter.chain spacedTexts.filters).comparisons, c.operator.isCustom = false) ∧
    isUrlSafe (spacedTexts.render .utc) = false := by
  have comparisons : (Filter.chain spacedTexts.filters).comparisons =
      [(field "title").contains "é \"", (field "size").lessThan (3 : Int),
        (field "name").greaterThan "a b"] := rfl
  have builtIn : ∀ c ∈ (Filter.chain spacedTexts.filters).comparisons,
      c.operator.isCustom = false := by
    rw [comparisons]
    decide
  refine ⟨builtIn, Bool.eq_false_iff.mpr fun safe => ?_⟩
  have spliced := ((isUrlSafe_render_iff .utc spacedTexts builtIn).mp safe).2
    ((field "name").greaterThan "a b") (by simp [comparisons])
  have text := spliced.2 .greaterThan "a b" rfl rfl rfl
  exact absurd text (by decide)

end Query

end RsqlQuery

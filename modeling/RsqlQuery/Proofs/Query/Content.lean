import Mathlib.Logic.Basic
import Mathlib.Tactic.ByContra
import RsqlQuery.Filter.Catalogue
import RsqlQuery.Proofs.Filter.NormalForm
import RsqlQuery.Query.Basic

/-!
# Filters with content

There are two ways to ask whether filters say anything. One looks for a comparison, at any depth,
and decides how queries are merged; the other looks at the rendered text, and decides whether there
is a section for it. They part on comparisons that render nothing, and only a comparison without a
field and with a custom operator can do that.

## Main statements

* `Filter.hasContent_iff` — content is a comparison at some depth.
* `Filter.isVisible_fragment_iff` — a filter renders something if one of its comparisons does.
* `Comparison.render_ne_empty` — a comparison with a field or a built-in operator renders something.
* `Query.render_filters_iff_hasContent` — whether the filters of a query have a section.
-/

namespace RsqlQuery

open Text Time

variable (z : TimeZone)

/-! ## Filters -/

namespace Filter

theorem hasContent_iff {f : Filter} : f.hasContent = true ↔ ∃ c, c ∈ f.comparisons := by
  induction f using chain_induction with
  | comparison c => simp [hasContent, comparisons]
  | chain links grouped ih =>
    simp only [hasContent_chain, List.any_eq_true, comparisons_chain, List.mem_flatMap]
    constructor
    · rintro ⟨l, hl, content⟩
      obtain ⟨c, hc⟩ := (ih l hl).mp content
      exact ⟨c, l, hl, hc⟩
    · rintro ⟨c, l, hl, hc⟩
      exact ⟨l, hl, (ih l hl).mpr ⟨c, hc⟩⟩

theorem IsNormal.exists_mem_comparisons {n : Filter} (h : IsNormal z n) :
    ∃ c, c ∈ n.comparisons := by
  induction h with
  | @comparison c _ => exact ⟨c, by simp [comparisons]⟩
  | chain _ _ _ ih _ =>
    obtain ⟨c, hc⟩ := ih
    exact ⟨c, by simp [comparisons_chain, hc]⟩

/-- A filter renders something exactly if one of its comparisons does: the normal form keeps those
comparisons, and there is a normal form exactly if anything is rendered. -/
theorem isVisible_fragment_iff {f : Filter} :
    (f.fragment z).isVisible = true ↔ ∃ c ∈ f.comparisons, c.render z ≠ "" := by
  have kept := comparisons_normal z f
  rw [Fragment.isVisible_iff, ne_eq, ← normal_eq_none_iff]
  constructor
  · intro visible
    obtain ⟨n, hn⟩ := Option.ne_none_iff_exists'.mp visible
    obtain ⟨c, hc⟩ := (isNormal_of_normal z f n hn).exists_mem_comparisons
    rw [hn, Option.elim_some] at kept
    rw [kept, List.mem_filter] at hc
    exact ⟨c, hc.1, by simpa using hc.2⟩
  · rintro ⟨c, hc, visible⟩ hn
    have mem : c ∈ f.comparisons.filter fun c => !(c.render z).isEmpty :=
      List.mem_filter.mpr ⟨hc, by simpa using visible⟩
    rw [← kept, hn] at mem
    exact absurd mem List.not_mem_nil

theorem fragment_of_not_hasContent {f : Filter} (h : f.hasContent = false) :
    f.fragment z = {} := by
  apply fragment_of_text_eq_empty
  by_contra visible
  obtain ⟨c, hc, -⟩ := (isVisible_fragment_iff z).mp (Fragment.isVisible_iff.mpr visible)
  rw [hasContent_iff.mpr ⟨c, hc⟩] at h
  exact Bool.true_eq_false.mp h

end Filter

theorem Chain.hasContent_of_render {f : FilterChain} (h : f.render z ≠ "") :
    f.hasContent = true := by
  cases content : f.hasContent with
  | true => rfl
  | false => exact absurd (congrArg Fragment.text (Filter.fragment_of_not_hasContent z content)) h

/-! ## Comparisons -/

/-- Whatever a built-in operator writes begins with its token, which may be percent-encoded. -/
theorem BuiltIn.suffix_ne_empty (op : BuiltIn) (l : Literal) : op.suffix l ≠ "" := by
  have token : op.token ≠ "" := by cases op <;> decide
  have encoded : percentEncode op.token ≠ "" := by cases op <;> decide
  unfold suffix
  cases op.form <;> simp [token, encoded]

namespace Comparison

theorem render_ne_empty {c : Comparison} (h : c.field ≠ "" ∨ c.operator.isCustom = false) :
    c.render z ≠ "" := by
  rw [render, ne_eq, String.append_eq_empty_iff, not_and_or]
  cases hop : c.operator with
  | builtIn op => exact .inr (op.suffix_ne_empty _)
  | custom op =>
    rw [hop] at h
    exact .inl (h.resolve_right (by simp [Operator.isCustom]))

/-- The check of a field lets no empty one pass. -/
theorem field_ne_empty_of_checked {field : String} {op : Operator} {v : Value} {c : Comparison}
    (h : checked field op v = .ok c) : c.field ≠ "" := by
  unfold checked at h
  split at h
  · cases h
  · next named =>
    cases h
    rintro rfl
    exact named isBlank_empty

end Comparison

theorem Chain.hasContent_iff_render {f : FilterChain}
    (written : ∀ c ∈ (Filter.chain f).comparisons, c.field ≠ "" ∨ c.operator.isCustom = false) :
    f.hasContent = true ↔ f.render z ≠ "" := by
  refine ⟨fun content => ?_, hasContent_of_render z⟩
  obtain ⟨c, hc⟩ := Filter.hasContent_iff.mp content
  have visible := Comparison.render_ne_empty z (written c hc)
  exact Fragment.isVisible_iff.mp ((Filter.isVisible_fragment_iff z).mpr ⟨c, hc, visible⟩)

/-! ## Queries -/

namespace Query

/-- The sections of a query are that of its filters, if they render anything, and those of the
query without filters. -/
theorem contents_eq_append (q : Query) :
    q.contents z = q.filterContent z ++ ({ q with filters := {} } : Query).contents z := by
  have none : ({ q with filters := {} } : Query).filterContent z = [] := rfl
  simp only [contents, none, List.nil_append, List.append_assoc]
  rfl

theorem filters_not_mem_contents (q : Query) (text : String) :
    (Section.filters, text) ∉ ({ q with filters := {} } : Query).contents z := by
  have none : ({ q with filters := {} } : Query).filterContent z = [] := rfl
  rw [contents, none, orderingContent, pageSizeContent, pageNumberContent]
  split_ifs <;> cases q.pageSize <;> cases q.pageNumber <;> simp

theorem filterContent_eq {q : Query}
    (written : ∀ c ∈ (Filter.chain q.filters).comparisons,
      c.field ≠ "" ∨ c.operator.isCustom = false) :
    q.filterContent z =
      if q.filters.hasContent then [(.filters, q.filters.render z)] else [] := by
  have agree := Chain.hasContent_iff_render z written
  rw [filterContent]
  by_cases content : q.filters.hasContent = true
  · simp [content, agree.mp content]
  · simp [content, not_not.mp (mt agree.mpr content)]

/-- Filters have content exactly if a comparison occurs in them at some depth. Without content they
render nothing, and with content they render something, if every comparison in them has a field, as
a checked one does, or a built-in operator. So a query of such filters is written with a section for
them, in front of its other sections, exactly if they have content. -/
theorem render_filters_iff_hasContent :
    (∀ f : FilterChain, f.hasContent = true ↔ ∃ c, c ∈ (Filter.chain f).comparisons) ∧
    (∀ f : FilterChain, f.render z ≠ "" → f.hasContent = true) ∧
    (∀ f : FilterChain,
      (∀ c ∈ (Filter.chain f).comparisons, c.field ≠ "" ∨ c.operator.isCustom = false) →
      (f.hasContent = true ↔ f.render z ≠ "")) ∧
    (∀ (field : String) (op : Operator) (v : Value) (c : Comparison),
      Comparison.checked field op v = .ok c → c.field ≠ "") ∧
    ∀ q : Query,
      (∀ c ∈ (Filter.chain q.filters).comparisons, c.field ≠ "" ∨ c.operator.isCustom = false) →
      ((∃ text, (Section.filters, text) ∈ q.contents z) ↔ q.filters.hasContent = true) ∧
      q.render z = "&".intercalate
        ((if q.filters.hasContent then [q.labels.filters ++ "=" ++ q.filters.render z] else []) ++
          (({ q with filters := {} } : Query).contents z).map
            fun c => q.labels.get c.1 ++ "=" ++ c.2) := by
  refine ⟨fun f => Filter.hasContent_iff, fun f => Chain.hasContent_of_render z,
    fun f => Chain.hasContent_iff_render z, fun _ _ _ _ => Comparison.field_ne_empty_of_checked, ?_⟩
  intro q written
  refine ⟨?_, ?_⟩
  · rw [contents_eq_append, filterContent_eq z written]
    split_ifs with content <;> simp [content, filters_not_mem_contents]
  · rw [render, contents_eq_append, filterContent_eq z written]
    split_ifs <;> rfl

/-- A group whose left side is empty, of a comparison without a field and one whose operator writes
nothing. -/
def halfEmpty : Query where
  filters := Chain.group ((Chain.empty : FilterChain).and (.chain {})) .or
    ((Chain.ofFilter (field "").isNull).and
      ((field "a").custom ⟨0, Catalogue.blank⟩ (Value.int 1)))
  pageNumber := some 2

theorem render_filters_iff_hasContent_halfEmpty :
    (∀ c ∈ (Filter.chain halfEmpty.filters).comparisons,
      c.field ≠ "" ∨ c.operator.isCustom = false) ∧
    halfEmpty.filters.hasContent = true ∧ halfEmpty.filters.render .utc ≠ "" ∧
    halfEmpty.render .utc = "$where===null%20and%20a&$pageNumber=2" ∧
    Comparison.checked "a" BuiltIn.isNull .absent = .ok (field "a").isNull ∧
    (field "a").isNull.field ≠ "" := by
  have comparisons : (Filter.chain halfEmpty.filters).comparisons =
      [(field "").isNull, (field "a").custom ⟨0, Catalogue.blank⟩ (Value.int 1)] := rfl
  have written : ∀ c ∈ (Filter.chain halfEmpty.filters).comparisons,
      c.field ≠ "" ∨ c.operator.isCustom = false := by
    rw [comparisons]
    simp only [List.forall_mem_cons, List.not_mem_nil, false_implies, implies_true, and_true]
    exact ⟨.inr rfl, .inl (by decide)⟩
  have checked : Comparison.checked "a" BuiltIn.isNull .absent = .ok (field "a").isNull := rfl
  obtain ⟨occurs, -, agree, named, sections⟩ := render_filters_iff_hasContent .utc
  have content : halfEmpty.filters.hasContent = true :=
    (occurs _).mpr ⟨(field "").isNull, comparisons ▸ List.mem_cons_self⟩
  obtain ⟨-, written_out⟩ := sections halfEmpty written
  exact ⟨written, content, (agree _ written).mp content, written_out.trans (by decide), checked,
    named _ _ _ _ checked⟩

end Query

end RsqlQuery

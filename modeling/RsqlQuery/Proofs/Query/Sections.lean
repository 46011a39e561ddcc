import Mathlib.Data.List.Basic
import Mathlib.Tactic.SplitIfs
import RsqlQuery.Proofs.Query.Validation
import RsqlQuery.Proofs.Text.Foreign
import RsqlQuery.Query.Basic

/-!
# Reading a query back

A query string is cut back into the sections it was made of. An ampersand that does not separate two
sections could only be in a label or in the filters, for the ordering is percent-encoded and all
else is a number or a word. An equals sign may be anywhere but in a label, since the first one of a
section ends its label.

## Main definitions

* `writeSections` — a query string from labels and texts.
* `Labels.Plain` — labels without the two separators.
* `Query.sectionText?`, `Query.sections` — what each section says, and those that are written.

## Main statements

* `readSections_writeSections` — reading undoes writing.
* `Query.readSections_render` — the sections of a query are read back.
-/

namespace RsqlQuery

open Text Time

/-! ## Cutting and joining -/

/-- A query string of sections with the given labels and texts. -/
def writeSections (sections : List (String × String)) : String :=
  "&".intercalate (sections.map fun s => s.1 ++ "=" ++ s.2)

/-- The first equals sign is the one behind the label. -/
theorem readSection_append {label : String} (h : '=' ∉ label.toList) (text : String) :
    readSection (label ++ "=" ++ text).toList = (label, text) := by
  have differ : ∀ c ∈ label.toList, (c != '=') = true := by
    intro c hc
    rw [bne_iff_ne]
    rintro rfl
    exact h hc
  have whole : (label ++ "=" ++ text).toList = label.toList ++ '=' :: text.toList := by simp
  rw [readSection, whole, List.takeWhile_append_of_pos differ, List.dropWhile_append_of_pos differ]
  simp

theorem writeSections_eq_empty_iff {sections : List (String × String)} :
    writeSections sections = "" ↔ sections = [] := by
  cases sections with
  | nil => simp [writeSections]
  | cons s rest =>
    have separator : '=' ∈ (writeSections (s :: rest)).toList := by
      rw [writeSections, mem_intercalate_iff (by decide)]
      exact ⟨s.1 ++ "=" ++ s.2, by simp, by simp⟩
    simp only [reduceCtorEq, iff_false]
    intro empty
    simp [empty] at separator

/-- Reading undoes writing when the labels hold no separator and the texts no ampersand. -/
theorem readSections_writeSections {sections : List (String × String)}
    (labels : ∀ s ∈ sections, '=' ∉ s.1.toList ∧ '&' ∉ s.1.toList)
    (texts : ∀ s ∈ sections, '&' ∉ s.2.toList) :
    readSections (writeSections sections) = sections := by
  by_cases none : sections = []
  · rw [none]
    rfl
  · have visible : (writeSections sections).isEmpty = false := by
      simpa [writeSections_eq_empty_iff] using none
    have separator : ("&").toList = ['&'] := rfl
    have cut : (writeSections sections).toList.splitOn '&' =
        sections.map fun s => (s.1 ++ "=" ++ s.2).toList := by
      rw [writeSections, String.toList_intercalate, separator, List.splitOn_intercalate]
      · simp [Function.comp_def]
      · simp only [List.map_map, List.mem_map, Function.comp_apply]
        rintro _ ⟨s, hs, rfl⟩
        simp [labels s hs, texts s hs]
      · simpa using none
    have read : ∀ s ∈ sections, readSection (s.1 ++ "=" ++ s.2).toList = s := fun s hs =>
      readSection_append (labels s hs).1 s.2
    rw [readSections, visible, cut, List.map_map]
    exact (List.map_congr_left read).trans (List.map_id sections)

/-! ## The sections of a query -/

/-- Labels that hold neither an equals sign nor an ampersand. -/
def Labels.Plain (l : Labels) : Prop := ∀ s, '=' ∉ (l.get s).toList ∧ '&' ∉ (l.get s).toList

namespace Query

/-- What a section of a query says, if the section is written. -/
def sectionText? (z : TimeZone) (q : Query) : Section → Option String
  | .filters => if q.filters.render z = "" then none else some (q.filters.render z)
  | .ordering =>
    if q.ordering = [] then none
    else some (percentEncode (", ".intercalate (q.ordering.map SortKey.text)))
  | .pageSize => q.pageSize.map toString
  | .totalCount => if q.pageSize.isSome ∧ q.totalCount then some "true" else none
  | .pageNumber => q.pageNumber.map toString

/-- The sections that are written, in order, each with its label. -/
def sections (z : TimeZone) (q : Query) : List (String × String) :=
  Section.all.filterMap fun s => (q.sectionText? z s).map fun text => (q.labels.get s, text)

theorem contents_eq (z : TimeZone) (q : Query) :
    q.contents z =
      Section.all.filterMap fun s => (q.sectionText? z s).map fun text => (s, text) := by
  have filters : q.filterContent z =
      ((q.sectionText? z .filters).map fun text => (Section.filters, text)).toList := by
    simp only [filterContent, sectionText?, String.isEmpty_iff]
    split_ifs <;> rfl
  have ordering : q.orderingContent =
      ((q.sectionText? z .ordering).map fun text => (Section.ordering, text)).toList := by
    simp only [orderingContent, sectionText?, List.isEmpty_iff]
    split_ifs <;> rfl
  have pageSize : q.pageSizeContent =
      ((q.sectionText? z .pageSize).map fun text => (Section.pageSize, text)).toList ++
      ((q.sectionText? z .totalCount).map fun text => (Section.totalCount, text)).toList := by
    simp only [pageSizeContent, sectionText?]
    cases q.pageSize <;> cases q.totalCount <;> rfl
  have pageNumber : q.pageNumberContent =
      ((q.sectionText? z .pageNumber).map fun text => (Section.pageNumber, text)).toList := by
    simp only [pageNumberContent, sectionText?]
    cases q.pageNumber <;> rfl
  rw [contents, filters, ordering, pageSize, pageNumber, List.filterMap_eq_flatMap_toList]
  simp only [Section.all, List.flatMap_cons, List.flatMap_nil, List.append_nil, List.append_assoc]

theorem render_eq (z : TimeZone) (q : Query) : q.render z = writeSections (q.sections z) := by
  rw [render, contents_eq, writeSections, sections, List.map_filterMap, List.map_filterMap]
  simp [Function.comp_def]

/-- A foreign character in the text of a section comes from the filters. -/
theorem mem_filters_of_mem_sectionText? {x : Char} (foreign : isForeign x = true) {z : TimeZone}
    {q : Query} {s : Section} {text : String} (h : q.sectionText? z s = some text)
    (hx : x ∈ text.toList) : x ∈ (q.filters.render z).toList := by
  have number : ∀ {n? : Option Nat}, n?.map toString ≠ some text := by
    intro n? h
    obtain ⟨n, -, rfl⟩ := Option.map_eq_some_iff.mp h
    have numeric := Number.isNumeric_of_mem_toDigits (Nat.toList_repr ▸ hx)
    simp [isNumeric_of_isForeign foreign] at numeric
  cases s with
  | filters =>
    obtain ⟨-, ⟨⟩⟩ := Option.ite_none_left_eq_some.mp h
    exact hx
  | ordering =>
    obtain ⟨-, ⟨⟩⟩ := Option.ite_none_left_eq_some.mp h
    exact absurd hx (not_mem_percentEncode foreign _)
  | pageSize => exact absurd h number
  | totalCount =>
    obtain ⟨-, ⟨⟩⟩ := Option.ite_none_right_eq_some.mp h
    exact absurd hx (not_mem_of_all (by decide) foreign)
  | pageNumber => exact absurd h number

theorem forall_mem_sections {z : TimeZone} {q : Query} {P : String × String → Prop} :
    (∀ p ∈ q.sections z, P p) ↔
      ∀ s text, q.sectionText? z s = some text → P (q.labels.get s, text) := by
  simp only [sections, List.mem_filterMap, Section.mem_all, true_and, Option.map_eq_some_iff]
  constructor
  · intro h s text hs
    exact h _ ⟨s, text, hs, rfl⟩
  · rintro h _ ⟨s, text, hs, rfl⟩
    exact h s text hs

theorem readSections_render_eq {z : TimeZone} {q : Query} (labels : q.labels.Plain)
    (filters : '&' ∉ (q.filters.render z).toList) :
    readSections (q.render z) = q.sections z := by
  rw [render_eq]
  refine readSections_writeSections ?_ ?_
  · exact forall_mem_sections.mpr fun s _ _ => labels s
  · refine forall_mem_sections.mpr fun s text hs held => ?_
    exact filters (mem_filters_of_mem_sectionText? (by decide) hs held)

/-- The texts of the sections do not depend on the labels. -/
theorem map_snd_sections (z : TimeZone) (q : Query) :
    (q.sections z).map Prod.snd = Section.all.filterMap (q.sectionText? z) := by
  rw [sections, List.map_filterMap]
  congr
  funext s
  simp [Function.comp_def]

theorem sectionText?_labels (z : TimeZone) (q : Query) (l : Labels) :
    ({ q with labels := l } : Query).sectionText? z = q.sectionText? z := by
  funext s
  cases s <;> rfl

/-- The labels that are written are among all labels, in the same order. -/
theorem map_fst_sections_sublist (z : TimeZone) (q : Query) :
    ((q.sections z).map Prod.fst).Sublist q.labels.toList := by
  rw [sections, Labels.toList, List.map_filterMap]
  induction Section.all with
  | nil => exact .slnil
  | cons s rest ih =>
    rw [List.filterMap_cons, List.map_cons]
    cases q.sectionText? z s with
    | none => exact ih.cons _
    | some text => exact ih.cons_cons _

theorem nodup_map_fst_sections (z : TimeZone) {q : Query} (h : q.labels.fault? = none) :
    ((q.sections z).map Prod.fst).Nodup :=
  (map_fst_sections_sublist z q).nodup ((Labels.fault?_eq_none_iff q.labels).mp h).2

/-- With labels that hold neither separator and filters that hold no ampersand, a query string is
read as exactly the sections that the query has something to say in, and it is empty exactly if
there are none. So other labels of this kind leave the texts as they are, and labels without a fault
tell the sections apart. -/
theorem readSections_render (z : TimeZone) (q : Query) (labels : q.labels.Plain)
    (filters : '&' ∉ (q.filters.render z).toList) :
    readSections (q.render z) = q.sections z ∧
    (q.render z = "" ↔ q.sections z = []) ∧
    (∀ l : Labels, l.Plain →
      (readSections (({ q with labels := l } : Query).render z)).map Prod.snd =
        (readSections (q.render z)).map Prod.snd) ∧
    (q.labels.fault? = none → ((readSections (q.render z)).map Prod.fst).Nodup) := by
  have read := readSections_render_eq labels filters
  refine ⟨read, ?_, ?_, ?_⟩
  · rw [render_eq, writeSections_eq_empty_iff]
  · intro l plain
    have read' : readSections (({ q with labels := l } : Query).render z) = _ :=
      readSections_render_eq plain filters
    rw [read', read, map_snd_sections, map_snd_sections, sectionText?_labels]
  · intro sound
    rw [read]
    exact nodup_map_fst_sections z sound

/-- The second page of ten, sorted by a field with both separators in its name. -/
def secondPage : Query where
  filters := Chain.ofFilter ((field "status").notEqual "closed")
  ordering := [{ field := "a&b=c", direction := .descending }]
  pageSize := some 10
  pageNumber := some 2

def otherLabels : Labels where
  filters := "$filter"
  pageSize := "$take"
  totalCount := "total"
  pageNumber := "$skip"

theorem readSections_render_secondPage :
    secondPage.labels.Plain ∧ '&' ∉ (secondPage.filters.render .utc).toList ∧
    readSections (secondPage.render .utc) =
      [("$where", "status!=%22closed%22"), ("$orderBy", "a%26b%3Dc%20desc"), ("$pageSize", "10"),
        ("$includeTotalCount", "true"), ("$pageNumber", "2")] ∧
    (readSections (({ secondPage with labels := otherLabels } : Query).render .utc)).map Prod.snd =
      (readSections (secondPage.render .utc)).map Prod.snd ∧
    ((readSections (secondPage.render .utc)).map Prod.fst).Nodup := by
  have labels : secondPage.labels.Plain := fun s => by cases s <;> decide
  have filters : '&' ∉ (secondPage.filters.render .utc).toList := by decide
  have others : otherLabels.Plain := fun s => by cases s <;> decide
  obtain ⟨read, -, relabelled, distinct⟩ := readSections_render .utc secondPage labels filters
  exact ⟨labels, filters, read.trans (by decide), relabelled otherLabels others,
    distinct (by decide)⟩

end Query

end RsqlQuery

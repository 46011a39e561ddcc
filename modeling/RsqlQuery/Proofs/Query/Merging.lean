import RsqlQuery.Proofs.Query.Content

/-!
# Merging queries

A merge asks whether a comparison occurs on either side, and rendering asks whether a text is empty.
The two questions differ for comparisons that render nothing, but not in what is rendered: a side
without text adds neither a connective nor parentheses. So any number of merges renders as a walk
over the sides that have a text, which encloses all that is there before each of them.

## Main definitions

* `Fragment.enclose`, `Fragment.walk` — two fragments as one part, and the walk over many.
* `Query.printed` — the rendered filters of a query, and whether they are a join without
  parentheses.
* `Query.mergeAll` — merges one after the other.

## Main statements

* `Query.printed_merge` — what one merge renders.
* `Query.mergeAll_eq_walk` — what a list of merges keeps and renders.
-/

namespace RsqlQuery

open Time

variable (z : TimeZone)

/-! ## Joining fragments -/

namespace Fragment

/-- Two fragments as one part between parentheses. -/
def enclose (left : Fragment) (k : Connective) (right : Fragment) : Fragment where
  text := parenthesized (left.asPart ++ k.encoded ++ right.asPart)

/-- Two fragments as one part, or the one of them that renders anything. -/
def merge (left : Fragment) (k : Connective) (right : Fragment) : Fragment :=
  match left.isVisible, right.isVisible with
  | true, true => left.enclose k right
  | true, false => left
  | false, true => right
  | false, false => {}

/-- A walk over the fragments that render anything: it starts from the first of them and encloses
what it has with each later one. -/
def walk (first : Fragment) (others : List (Connective × Fragment)) : Fragment :=
  let later := others.filter fun m => m.2.isVisible
  if first.isVisible then later.foldl (fun f m => f.enclose m.1 m.2) first
  else
    match later with
    | [] => {}
    | m :: rest => rest.foldl (fun f m => f.enclose m.1 m.2) m.2

theorem isVisible_enclose (left right : Fragment) (k : Connective) :
    (left.enclose k right).isVisible = true := by
  simp [isVisible, enclose, parenthesized]

/-- From a fragment that renders something, merging goes on as the walk does. -/
theorem foldl_merge_of_isVisible {first : Fragment} (h : first.isVisible = true)
    (others : List (Connective × Fragment)) :
    others.foldl (fun f m => f.merge m.1 m.2) first =
      (others.filter fun m => m.2.isVisible).foldl (fun f m => f.enclose m.1 m.2) first := by
  induction others generalizing first with
  | nil => rfl
  | cons m others ih =>
    rw [List.foldl_cons, List.filter_cons, merge]
    cases hm : m.2.isVisible with
    | true =>
      simp only [h, if_true, List.foldl_cons]
      exact ih (isVisible_enclose first m.2 m.1)
    | false =>
      simp only [h, Bool.false_eq_true, if_false]
      exact ih h

theorem foldl_merge_eq_walk {first : Fragment} (h : first.isVisible = false → first = {})
    (others : List (Connective × Fragment)) :
    others.foldl (fun f m => f.merge m.1 m.2) first = first.walk others := by
  unfold walk
  split_ifs with visible
  · exact foldl_merge_of_isVisible visible others
  · -- The walk has not begun; it does at the first of the others that renders anything.
    obtain rfl := h (by simpa using visible)
    clear h visible
    induction others with
    | nil => rfl
    | cons m others ih =>
      have hidden : ({} : Fragment).isVisible = false := rfl
      rw [List.foldl_cons, List.filter_cons, merge]
      cases hm : m.2.isVisible with
      | true =>
        simp only [hidden, if_true]
        exact foldl_merge_of_isVisible hm others
      | false =>
        simp only [hidden, Bool.false_eq_true, if_false]
        exact ih

theorem merge_empty {f : Fragment} (h : f.isVisible = false → f = {}) (k : Connective) :
    f.merge k {} = f := by
  have hidden : ({} : Fragment).isVisible = false := rfl
  rw [merge, hidden]
  cases visible : f.isVisible with
  | true => rfl
  | false => exact (h visible).symm

theorem empty_merge {f : Fragment} (h : f.isVisible = false → f = {}) (k : Connective) :
    merge {} k f = f := by
  have hidden : ({} : Fragment).isVisible = false := rfl
  rw [merge, hidden]
  cases visible : f.isVisible with
  | true => rfl
  | false => exact (h visible).symm

end Fragment

/-! ## One merge -/

theorem Filter.fragment_of_isVisible_eq_false {f : Filter}
    (h : (f.fragment z).isVisible = false) : f.fragment z = {} :=
  Filter.fragment_of_text_eq_empty z (by simpa [Fragment.isVisible] using h)

/-- A group of two chains renders as the merge of what they render. -/
theorem Filter.fragment_group (left right : FilterChain) (k : Connective) :
    fragment z (.chain (Chain.group left k right)) =
      (fragment z (.chain left)).merge k (fragment z (.chain right)) := by
  rw [Chain.group, fragment_chain_mk, List.map_cons, List.map_cons, List.map_nil, Fragment.merge]
  cases hl : (fragment z (.chain left)).isVisible <;>
    cases hr : (fragment z (.chain right)).isVisible <;>
    simp [Fragment.visible, fragmentLink, hl, hr, Fragment.join, Fragment.enclose,
      Fragment.joinRest, String.append_assoc]

namespace Query

/-- A merge of chains renders as the merge of what they render, however it was decided. -/
theorem fragment_mergeFilters (left right : FilterChain) (k : Connective) :
    Filter.fragment z (.chain (mergeFilters left k right)) =
      (Filter.fragment z (.chain left)).merge k (Filter.fragment z (.chain right)) := by
  rw [mergeFilters]
  cases hl : left.hasContent with
  | true =>
    cases hr : right.hasContent with
    | true => exact Filter.fragment_group z left right k
    | false =>
      rw [Filter.fragment_of_not_hasContent z hr]
      exact (Fragment.merge_empty (Filter.fragment_of_isVisible_eq_false z) k).symm
  | false =>
    rw [Filter.fragment_of_not_hasContent z hl]
    cases hr : right.hasContent with
    | true => exact (Fragment.empty_merge (Filter.fragment_of_isVisible_eq_false z) k).symm
    | false =>
      rw [Filter.fragment_of_not_hasContent z hr]
      rfl

/-- The rendered filters of a query, and whether they are a join without parentheses. -/
def printed (q : Query) : Fragment where
  text := q.filters.render z
  compound := (Filter.chain q.filters).isOpenJoin z

theorem printed_eq (q : Query) : q.printed z = Filter.fragment z (.chain q.filters) := by
  rw [printed, ← Filter.compound_fragment]
  rfl

theorem printed_merge (q other : Query) (k : Connective) :
    (q.merge k other).printed z = (q.printed z).merge k (other.printed z) := by
  rw [printed_eq, printed_eq, printed_eq]
  exact fragment_mergeFilters z q.filters other.filters k

theorem printed_of_isVisible_eq_false {q : Query} (h : (q.printed z).isVisible = false) :
    q.printed z = {} := by
  rw [printed_eq] at h ⊢
  exact Filter.fragment_of_isVisible_eq_false z h

/-! ## Any number of merges -/

def mergeBy (q : Query) : Connective × Query → Query
  | (.and, other) => q.and other
  | (.or, other) => q.or other

/-- Joins the filters of other queries, one after the other. -/
def mergeAll (q : Query) (others : List (Connective × Query)) : Query := others.foldl mergeBy q

theorem mergeBy_eq (q : Query) (m : Connective × Query) : q.mergeBy m = q.merge m.1 m.2 := by
  obtain ⟨k, other⟩ := m
  cases k <;> rfl

theorem printed_mergeAll (q : Query) (others : List (Connective × Query)) :
    (q.mergeAll others).printed z =
      (others.map fun m => (m.1, m.2.printed z)).foldl (fun f m => f.merge m.1 m.2)
        (q.printed z) := by
  induction others generalizing q with
  | nil => rfl
  | cons m others ih =>
    have step := ih (q.mergeBy m)
    rw [mergeBy_eq, printed_merge, ← mergeBy_eq] at step
    exact step

/-- Nothing but the filters of a query changes. -/
theorem mergeAll_eq (q : Query) (others : List (Connective × Query)) :
    q.mergeAll others = { q with filters := (q.mergeAll others).filters } := by
  induction others generalizing q with
  | nil => rfl
  | cons m others ih =>
    have step := ih (q.mergeBy m)
    rw [mergeAll, List.foldl_cons, ← mergeAll, step, mergeBy_eq]
    rfl

/-- Merges one after the other keep all of the first query but its filters. Those render as a walk
over the sides that have a text: it starts from the first one, and puts what it has and each later
one between parentheses, with the connective of that merge between them. Either of the two gets
parentheses of its own only if it is a join without any. -/
theorem mergeAll_eq_walk (q : Query) (others : List (Connective × Query)) :
    (q.mergeAll others).ordering = q.ordering ∧
    (q.mergeAll others).pageSize = q.pageSize ∧
    (q.mergeAll others).pageNumber = q.pageNumber ∧
    (q.mergeAll others).totalCount = q.totalCount ∧
    (q.mergeAll others).labels = q.labels ∧
    (q.mergeAll others).printed z =
      (q.printed z).walk (others.map fun m => (m.1, m.2.printed z)) := by
  have kept := mergeAll_eq q others
  refine ⟨by rw [kept], by rw [kept], by rw [kept], by rw [kept], by rw [kept], ?_⟩
  rw [printed_mergeAll]
  exact Fragment.foldl_merge_eq_walk (printed_of_isVisible_eq_false z) _

end Query

end RsqlQuery

import RsqlQuery.Fault

/-!
# Labels

The labels of the sections of a query can be chosen. They should not be blank and should differ
from each other; the check reports the first section, in the order of writing, that breaks either
rule.

## Main definitions

* `Labels` — a label for each section, with `Labels.get` and `Labels.set`.
* `Labels.fault?` — the first fault among the labels.
-/

namespace RsqlQuery

/-- A label for each section of a query. -/
structure Labels where
  filters : String := Section.filters.defaultLabel
  ordering : String := Section.ordering.defaultLabel
  pageSize : String := Section.pageSize.defaultLabel
  totalCount : String := Section.totalCount.defaultLabel
  pageNumber : String := Section.pageNumber.defaultLabel
deriving DecidableEq, Repr, Inhabited

namespace Labels

def get (l : Labels) : Section → String
  | .filters => l.filters
  | .ordering => l.ordering
  | .pageSize => l.pageSize
  | .totalCount => l.totalCount
  | .pageNumber => l.pageNumber

/-- The same labels but for one section. -/
def set (l : Labels) (s : Section) (label : String) : Labels :=
  match s with
  | .filters => { l with filters := label }
  | .ordering => { l with ordering := label }
  | .pageSize => { l with pageSize := label }
  | .totalCount => { l with totalCount := label }
  | .pageNumber => { l with pageNumber := label }

@[simp] theorem get_default (s : Section) : ({} : Labels).get s = s.defaultLabel := by
  cases s <;> rfl

theorem get_set (l : Labels) (s t : Section) (label : String) :
    (l.set s label).get t = if t = s then label else l.get t := by
  cases s <;> cases t <;> rfl

theorem ext_get {l m : Labels} (h : ∀ s, l.get s = m.get s) : l = m := by
  cases l
  cases m
  have h₁ := h .filters
  have h₂ := h .ordering
  have h₃ := h .pageSize
  have h₄ := h .totalCount
  have h₅ := h .pageNumber
  simp_all [get]

/-- The labels of all sections in the order of writing. -/
def toList (l : Labels) : List String := Section.all.map l.get

/-- The first fault among the labels of some sections, given the labels before them. -/
def faultFrom? (l : Labels) (earlier : List String) : List Section → Option Fault
  | [] => none
  | s :: rest =>
    if Text.isBlank (l.get s) then some (.blankLabel s)
    else if l.get s ∈ earlier then some (.repeatedLabel (l.get s))
    else l.faultFrom? (earlier ++ [l.get s]) rest

/-- The first fault among the labels. -/
def fault? (l : Labels) : Option Fault := l.faultFrom? [] Section.all

end Labels

end RsqlQuery

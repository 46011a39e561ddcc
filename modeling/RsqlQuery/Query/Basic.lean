import RsqlQuery.Filter.Chain
import RsqlQuery.Query.Labels

/-!
# Queries

A query has filters, an ordering and a page, and the labels of its sections. Its text is made of
the sections that have something to say: the filters if they render anything, the ordering if there
is one, the page size if it is set and with it the wish for a total count, and the page number if it
is set. An ordering is a list of fields, each with a direction. Two queries merge by joining their
filters; all else is that of the first.

## Main definitions

* `Direction`, `SortKey`, `Query` — the data.
* `SortKey.text` — a key as it reads in a query, before any encoding.
* `Query.contents` — the sections with their texts, in order.
* `Query.render` — the query string.
* `Query.merge` — the first query with the filters of both.
* `Query.fault?` — the first fault of a query.
-/

namespace RsqlQuery

open Text Time

/-! ## Sort keys -/

inductive Direction where
  | ascending
  | descending
deriving DecidableEq, Repr, Inhabited

def Direction.word : Direction → String
  | ascending => "asc"
  | descending => "desc"

def Direction.ofWord? (word : String) : Option Direction :=
  if word = "asc" then some .ascending else if word = "desc" then some .descending else none

@[simp] theorem Direction.ofWord?_word (d : Direction) : ofWord? d.word = some d := by
  cases d <;> rfl

/-- A field and the direction to sort it in. -/
structure SortKey where
  field : String
  direction : Direction := .ascending
deriving DecidableEq, Repr, Inhabited

namespace SortKey

/-- The field and the word of its direction. -/
def text (k : SortKey) : String := k.field ++ " " ++ k.direction.word

end SortKey

/-! ## Queries -/

/-- Filters, ordering and page of a request, and the labels to write them with. -/
structure Query where
  filters : FilterChain := {}
  ordering : List SortKey := []
  pageSize : Option Nat := none
  pageNumber : Option Nat := none
  totalCount : Bool := true
  labels : Labels := {}

namespace Query

def sortBy (q : Query) (key : SortKey) : Query := { q with ordering := q.ordering ++ [key] }

def orderingText (ordering : List SortKey) : String :=
  percentEncode (", ".intercalate (ordering.map SortKey.text))

abbrev Content := Section × String

/-- The section of the filters, if they render anything. -/
def filterContent (z : TimeZone) (q : Query) : List Content :=
  let text := q.filters.render z
  if text.isEmpty then [] else [(.filters, text)]

def orderingContent (q : Query) : List Content :=
  if q.ordering.isEmpty then [] else [(.ordering, orderingText q.ordering)]

/-- The section of the page size, and behind it that of the total count, if a size is set. -/
def pageSizeContent (q : Query) : List Content :=
  match q.pageSize with
  | none => []
  | some n => (.pageSize, toString n) :: if q.totalCount then [(.totalCount, "true")] else []

def pageNumberContent (q : Query) : List Content :=
  match q.pageNumber with
  | none => []
  | some n => [(.pageNumber, toString n)]

/-- The sections of a query with their texts. -/
def contents (z : TimeZone) (q : Query) : List Content :=
  q.filterContent z ++ q.orderingContent ++ q.pageSizeContent ++ q.pageNumberContent

def render (z : TimeZone) (q : Query) : String :=
  "&".intercalate ((q.contents z).map fun c => q.labels.get c.1 ++ "=" ++ c.2)

/-- The filters of both sides as one part, or those of the side that has any. -/
def mergeFilters (left : FilterChain) (c : Connective) (right : FilterChain) : FilterChain :=
  match left.hasContent, right.hasContent with
  | true, true => Chain.group left c right
  | true, false => left
  | false, true => right
  | false, false => {}

/-- The first query with the filters of both. -/
def merge (q : Query) (c : Connective) (other : Query) : Query :=
  { q with filters := mergeFilters q.filters c other.filters }

def and (q other : Query) : Query := q.merge .and other

def or (q other : Query) : Query := q.merge .or other

/-- The fault of a page, if its size or its number is zero. -/
def pageFault? (q : Query) : Option Fault :=
  if q.pageSize = some 0 then some .zeroPageSize
  else if q.pageNumber = some 0 then some .zeroPageNumber
  else none

/-- The first fault of a query: of its labels, else of its page. -/
def fault? (q : Query) : Option Fault := q.labels.fault? <|> q.pageFault?

/-- Equality of all six parts. -/
instance : BEq Query where
  beq a b := a.filters == b.filters && decide (a.ordering = b.ordering)
    && decide (a.pageSize = b.pageSize) && decide (a.pageNumber = b.pageNumber)
    && a.totalCount == b.totalCount && decide (a.labels = b.labels)

end Query

end RsqlQuery

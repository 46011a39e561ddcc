/-!
# Sections of a query

A query string has up to five sections, always in one order. Each is a label, an equals sign and
a text, and sections are joined by ampersands. So it is read by cutting it at the ampersands, and
each piece at its first equals sign. A piece without one is all label, and the empty query string
has no sections.

## Main definitions

* `Section` — the five, with the names that messages call them by.
* `Section.all` — all of them, in the order in which they are written.
* `readSections` — the labels and texts of a query string.
-/

namespace RsqlQuery

/-- The parts that a query string is made of. -/
inductive Section where
  | filters
  | ordering
  | pageSize
  | totalCount
  | pageNumber
deriving DecidableEq, Repr, Inhabited

namespace Section

/-- What messages call a section. -/
def name : Section → String
  | filters => "where"
  | ordering => "order by"
  | pageSize => "page size"
  | totalCount => "include total count"
  | pageNumber => "page number"

/-- The label of a section unless another is chosen. -/
def defaultLabel : Section → String
  | filters => "$where"
  | ordering => "$orderBy"
  | pageSize => "$pageSize"
  | totalCount => "$includeTotalCount"
  | pageNumber => "$pageNumber"

/-- The sections in the order in which they are written. -/
def all : List Section := [filters, ordering, pageSize, totalCount, pageNumber]

@[simp] theorem mem_all (s : Section) : s ∈ all := by cases s <;> decide

end Section

/-! ## Reading -/

/-- The label and the text of a section. -/
def readSection (s : List Char) : String × String :=
  (String.ofList (s.takeWhile (· != '=')), String.ofList (s.dropWhile (· != '=')).tail)

/-- The sections of a query string. -/
def readSections (query : String) : List (String × String) :=
  if query.isEmpty then [] else (query.toList.splitOn '&').map readSection

end RsqlQuery

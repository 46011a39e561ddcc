import RsqlQuery.Query.Basic

/-!
# Building queries from settings

A query is built by settings, one after the other. Labels of single sections, page sizes and page
numbers are checked before they are put in place. A builder keeps the first fault that such a check
finds, and from then on it lets no checked setting through; the settings that are not checked are
put in place all the same. At the end the kept fault is the outcome. If there is none, the query is
checked as a whole.

## Main definitions

* `Setting` — one step of building, with `Setting.fault?` and `Setting.assign`.
* `Builder` — the query so far and the fault that is kept, with `Builder.set` and `Builder.build`.
* `BuildError` — the fault of a setting, or a fault of the query as a whole.
* `Query.ofSettings` — the query that a list of settings builds, or why it builds none.
-/

namespace RsqlQuery

/-- One step in building a query. -/
inductive Setting where
  | label (s : Section) (label : String)
  | labels (labels : Labels)
  | filters (filters : FilterChain)
  | sortBy (key : SortKey)
  | pageSize (n : Nat)
  | pageNumber (n : Nat)
  | totalCount (wanted : Bool)

namespace Setting

/-- What is wrong with a setting by itself. -/
def fault? : Setting → Option Fault
  | label s text => if Text.isBlank text then some (.blankLabel s) else none
  | pageSize n => if n = 0 then some .zeroPageSize else none
  | pageNumber n => if n = 0 then some .zeroPageNumber else none
  | _ => none

/-- The query with a setting in place. -/
def assign (q : Query) : Setting → Query
  | label s text => { q with labels := q.labels.set s text }
  | labels l => { q with labels := l }
  | filters f => { q with filters := f }
  | sortBy key => q.sortBy key
  | pageSize n => { q with pageSize := some n }
  | pageNumber n => { q with pageNumber := some n }
  | totalCount wanted => { q with totalCount := wanted }

/-- Whether a setting is checked before it is put in place. -/
def isChecked : Setting → Bool
  | label _ _ => true
  | pageSize _ => true
  | pageNumber _ => true
  | _ => false

end Setting

inductive BuildError where
  /-- A setting is at fault. -/
  | setting (fault : Fault)
  /-- The settings make a query that is at fault. -/
  | query (fault : Fault)
deriving DecidableEq, Repr

/-- The report of a fault itself, or one of an invalid query with the fault as its cause. -/
def BuildError.diagnostic : BuildError → Diagnostic
  | setting fault => fault.diagnostic
  | query fault => Diagnostic.wrap ⟨fault.kind, "Invalid criteria"⟩ fault.diagnostic

/-- A query that is being built, and the first fault of a checked setting. -/
structure Builder where
  fault? : Option Fault := none
  query : Query := {}

namespace Builder

/-- A checked setting is put in place only while no fault is kept and it has none itself. -/
def set (b : Builder) (s : Setting) : Builder :=
  if s.isChecked then
    match b.fault?.or s.fault? with
    | some fault => { b with fault? := some fault }
    | none => { b with query := s.assign b.query }
  else { b with query := s.assign b.query }

/-- The kept fault, else a fault of the query, else the query. -/
def build (b : Builder) : Except BuildError Query :=
  match b.fault? with
  | some fault => .error (.setting fault)
  | none =>
    match b.query.fault? with
    | some fault => .error (.query fault)
    | none => .ok b.query

end Builder

/-- The query that settings build from an empty one. -/
def Query.ofSettings (settings : List Setting) : Except BuildError Query :=
  (settings.foldl Builder.set {}).build

end RsqlQuery

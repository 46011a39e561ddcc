import RsqlQuery.Query.Section

/-!
# Faults and diagnostics

What can be wrong with a comparison or a query, and how it is reported. Writing a query never
fails; faults come from the checks alone. Field names and the labels of sections are refused
exactly when they are blank: when they hold nothing but white space as Unicode defines it (the
property `White_Space`).

## Main definitions

* `Text.isWhite` — membership of a character in the property, read off the table `whiteRanges`.
* `Text.isBlank` — a text of white space alone; the empty text counts.
* `Fault` — the causes, each with its kind and message.
* `Diagnostic` — a report with the reports of what caused it, outermost first.
-/

namespace RsqlQuery

/-! ## Blank texts -/

namespace Text

/-- The code points of the property, as closed ranges in increasing order. -/
def whiteRanges : List (Nat × Nat) :=
  [(0x9, 0xD), (0x20, 0x20), (0x85, 0x85), (0xA0, 0xA0), (0x1680, 0x1680), (0x2000, 0x200A),
   (0x2028, 0x2029), (0x202F, 0x202F), (0x205F, 0x205F), (0x3000, 0x3000)]

def isWhite (c : Char) : Bool :=
  whiteRanges.any fun r => r.1 ≤ c.toNat && c.toNat ≤ r.2

/-- A text is blank when every character of it is white space. -/
def isBlank (s : String) : Bool := s.toList.all isWhite

theorem isBlank_empty : isBlank "" = true := rfl

end Text

/-! ## Faults -/

inductive FaultKind where
  | fieldName
  | keyword
  | pagination
deriving DecidableEq, Repr, Inhabited

def FaultKind.text : FaultKind → String
  | fieldName => "Invalid field name"
  | keyword => "Invalid keyword"
  | pagination => "Invalid pagination"

inductive Fault where
  | blankField
  | blankLabel (s : Section)
  | repeatedLabel (label : String)
  | zeroPageSize
  | zeroPageNumber
deriving DecidableEq, Repr

namespace Fault

def kind : Fault → FaultKind
  | blankField => .fieldName
  | blankLabel _ => .keyword
  | repeatedLabel _ => .keyword
  | zeroPageSize => .pagination
  | zeroPageNumber => .pagination

def message : Fault → String
  | blankField => "Filter expression field name cannot be empty"
  | blankLabel s => "Keyword for the " ++ s.name ++ " section cannot be empty"
  | repeatedLabel label => "Keyword " ++ label ++ " is used by more than one section"
  | zeroPageSize => "Page size must be a positive number"
  | zeroPageNumber => "Page number must be a positive number"

end Fault

/-! ## Diagnostics -/

/-- One message with its kind. -/
structure Report where
  kind : FaultKind
  message : String
deriving DecidableEq, Repr, Inhabited

/-- A report and the reports of what caused it, each the cause of the one before. -/
structure Diagnostic where
  report : Report
  causes : List Report := []
deriving DecidableEq, Repr, Inhabited

namespace Diagnostic

def kind (d : Diagnostic) : FaultKind := d.report.kind

def message (d : Diagnostic) : String := d.report.message

/-- The diagnostic that a report gives when another is its cause. -/
def wrap (r : Report) (cause : Diagnostic) : Diagnostic := ⟨r, cause.report :: cause.causes⟩

def cause? (d : Diagnostic) : Option Diagnostic :=
  match d.causes with
  | [] => none
  | r :: rest => some ⟨r, rest⟩

/-- The messages of all causes, from the immediate one inwards. -/
def sources (d : Diagnostic) : List String := d.causes.map Report.message

/-- The message and under it those of all causes. -/
def trace (d : Diagnostic) : String := "\nCaused by: ".intercalate (d.message :: d.sources)

end Diagnostic

def Fault.report (f : Fault) : Report := ⟨f.kind, f.message⟩

def Fault.diagnostic (f : Fault) : Diagnostic := ⟨f.report, []⟩

end RsqlQuery

import RsqlQuery.Json.Tree
import RsqlQuery.Query.Basic
import RsqlQuery.Value.Literal

/-!
# Configuration documents

Labels, options and sort keys are stored as JSON. A record is an object with a member for each
field, or an array of its fields in order. Members under other keys are passed over, a field given
twice is refused, and so is an array that is too long. Labels and options take their defaults for
fields that are missing. A direction is its word, or an object whose only member has that word as
its key and null as its value.

## Main definitions

* `recordFields?` — what a record gives for each of its fields.
* `Document` — the types with a document, with `Document.decode?` and `Document.encode` on texts.
-/

namespace RsqlQuery

open Json

/-- The members of an object with the texts of their keys. -/
def keyedMembers? (members : List (List Piece × Tree)) : Option (List (String × Tree)) :=
  members.mapM fun m => (textOf? m.1).map fun key => (String.ofList key, m.2)

/-- What a record gives for each of its fields. -/
def recordFields? (names : List String) : Tree → Option (List (Option Tree))
  | .object members => do
    let keyed ← keyedMembers? members
    if names.all fun name => (keyed.countP fun m => m.1 == name) ≤ 1 then
      some (names.map fun name => keyed.lookup name)
    else none
  | .array items =>
    if items.length ≤ names.length then
      some (items.map some ++ List.replicate (names.length - items.length) none)
    else none
  | _ => none

/-- The object with the given members. -/
def recordOf (members : List (String × Tree)) : Tree :=
  .object (members.map fun m => (m.1.toList.map .char, m.2))

/-- Types whose elements are stored as JSON. -/
class Document (α : Type) where
  ofTree? : Tree → Option α
  toTree : α → Tree

namespace Document

variable {α : Type} [Document α]

/-- The element that a text stores. -/
def decode? (s : String) : Option α := do ofTree? (← Tree.parse? s)

/-- The compact text that stores an element. -/
def encode (a : α) : String := (toTree a).write

end Document

/-- The key of a section's label. -/
def Section.key : Section → String
  | filters => "whereKeyword"
  | ordering => "orderByKeyword"
  | pageSize => "pageSizeKeyword"
  | totalCount => "includeTotalCountKeyword"
  | pageNumber => "pageNumberKeyword"

namespace Labels

/-- The labels with that of one section replaced, if a text is given for it. -/
def override? (l : Labels) (field : Section × Option Tree) : Option Labels :=
  match field.2 with
  | none => some l
  | some t => t.text?.map (l.set field.1)

instance : Document Labels where
  ofTree? t := do
    let fields ← recordFields? (Section.all.map Section.key) t
    (Section.all.zip fields).foldlM override? {}
  toTree l := recordOf (Section.all.map fun s => (s.key, .ofText (l.get s)))

end Labels

instance : Document RenderOptions where
  ofTree? t := do
    match ← recordFields? ["includeTimestamp"] t with
    | [some flag] => return { includeTimestamp := ← flag.bool? }
    | _ => return {}
  toTree o := recordOf [("includeTimestamp", .bool o.includeTimestamp)]

instance : Document Direction where
  ofTree?
    | .object [(key, .null)] => do Direction.ofWord? (String.ofList (← textOf? key))
    | t => do Direction.ofWord? (← t.text?)
  toTree d := .ofText d.word

instance : Document SortKey where
  ofTree? t := do
    match ← recordFields? ["field", "direction"] t with
    | [some name, some direction] =>
      return { field := ← name.text?, direction := ← Document.ofTree? direction }
    | _ => none
  toTree k := recordOf [("field", .ofText k.field), ("direction", Document.toTree k.direction)]

end RsqlQuery

import RsqlQuery.Filter.Operator

/-!
# A catalogue of custom operators

Some operators beyond the built-in ones, under the names by which a catalogue lists them. Each is
made with the mark that tells it from others.

## Main definitions

* `Catalogue.regex`, `Catalogue.between`, `Catalogue.echo`, `Catalogue.ilike`, `Catalogue.count`,
  `Catalogue.blank` — what each writes behind the field.
* `CustomOperator.named?` — the operator of a name.
-/

namespace RsqlQuery

namespace Catalogue

/-- A regular expression, between quotes if the literal wants them. -/
def regex (_ : Value) (l : Literal) : String :=
  "=re=" ++ if l.quoted then Text.quote l.text else l.text

def between (_ : Value) (l : Literal) : String := "=between=(" ++ l.text ++ ")"

/-- All that an operator is given: whether there is no value, its literal, and whether that wants
quotes. -/
def echo (v : Value) (l : Literal) : String :=
  "=echo=" ++ Value.boolText v.isAbsent ++ ":" ++ l.text ++ ":" ++ Value.boolText l.quoted

/-- A match without regard to case; texts stand between encoded quotes. -/
def ilike (v : Value) (l : Literal) : String :=
  if l.quoted && v.isString then "=ilike=%22" ++ l.text ++ "%22" else "=ilike=" ++ l.text

/-- The number of items of a sequence, and minus one for any other value. -/
def count (v : Value) (_ : Literal) : String :=
  "=count=" ++ match v.items? with
    | some items => toString items.length
    | none => "-1"

def blank (_ : Value) (_ : Literal) : String := ""

def entries : List (String × (Value → Literal → String)) :=
  [("regex", regex), ("between", between), ("echo", echo), ("ilike", ilike), ("count", count),
   ("blank", blank)]

end Catalogue

/-- The operator that the catalogue lists under a name, with the given mark. -/
def CustomOperator.named? (name : String) (mark : Nat) : Option CustomOperator :=
  (Catalogue.entries.lookup name).map fun suffix => ⟨mark, suffix⟩

end RsqlQuery

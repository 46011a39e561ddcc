import RsqlQuery.Number.Layout
import RsqlQuery.Text.Percent
import RsqlQuery.Text.Quoted
import RsqlQuery.Time.Zone
import RsqlQuery.Value.Basic

/-!
# Literals

How a value reads in a query, and whether it wants double quotes around it. Texts are escaped, and
they and dates want quotes. The items of a sequence are written one by one with commas between
them, absent ones left out: numbers as they are, texts escaped and percent-encoded, all others
percent-encoded from their plain text. A sequence inside a sequence counts as one item, whose plain
text is that of its own items with commas between them.

## Main definitions

* `Literal` — a text and whether it wants quotes.
* `Value.plainText` — the text of a value without escapes and encoding.
* `Value.piece` — the text of a value as an item of a sequence.
* `Value.literal` — the literal of a value.
-/

namespace RsqlQuery

open Number Text Time

structure RenderOptions where
  /-- Whether dates are written as timestamps in UTC instead of local dates. -/
  includeTimestamp : Bool := false
deriving DecidableEq, Repr, Inhabited

/-- The text of a value, and whether it wants double quotes around it. -/
structure Literal where
  text : String := ""
  quoted : Bool := false
deriving DecidableEq, Repr, Inhabited

namespace Value

/-- Stands between the items of a sequence. -/
def itemSeparator : String := ","

def nullText : String := "null"

def boolText (b : Bool) : String := if b then "true" else "false"

mutual

/-- The text of a value without escapes and encoding. -/
def plainText (z : TimeZone) (o : RenderOptions) : Value → String
  | .absent => ""
  | .null => nullText
  | .bool b => boolText b
  | .int n => String.ofList (integerText n.toInt)
  | .float x => x.text
  | .string s => s
  | .date t => String.ofList (t.text z o.includeTimestamp)
  | .array items => itemSeparator.intercalate (plainTexts z o items)

/-- The plain texts of the items that are not absent. -/
def plainTexts (z : TimeZone) (o : RenderOptions) : List Value → List String
  | [] => []
  | v :: rest => if v.isAbsent then plainTexts z o rest else plainText z o v :: plainTexts z o rest

end

/-- The items of a sequence that are not absent. -/
def present (items : List Value) : List Value := items.filter fun v => !v.isAbsent

theorem plainTexts_eq (z : TimeZone) (o : RenderOptions) (items : List Value) :
    plainTexts z o items = (present items).map (plainText z o) := by
  induction items with
  | nil => rfl
  | cons v rest ih => by_cases h : v.isAbsent <;> simp [plainTexts, present, h, ih]

/-- The text of a value as an item of a sequence. -/
def piece (z : TimeZone) (o : RenderOptions) (v : Value) : String :=
  match v with
  | .int _ => plainText z o v
  | .float _ => plainText z o v
  | .string s => percentEncode (escape s)
  | _ => percentEncode (plainText z o v)

def literal (z : TimeZone) (o : RenderOptions) (v : Value) : Literal :=
  match v with
  | .string s => { text := escape s, quoted := true }
  | .date _ => { text := plainText z o v, quoted := true }
  | .array items => { text := itemSeparator.intercalate ((present items).map (piece z o)) }
  | _ => { text := plainText z o v }

end Value

end RsqlQuery

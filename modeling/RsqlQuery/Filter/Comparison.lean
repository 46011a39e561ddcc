import RsqlQuery.Fault
import RsqlQuery.Filter.Operator
import RsqlQuery.Value.Conversion

/-!
# Comparisons

A field, an operator and a value. The field is written as it is; what follows is up to the
operator, which is given the value and its literal.

## Main definitions

* `Comparison` — the three, with the options for writing the value.
* `Comparison.checked` — a comparison whose field is not blank, or the fault.
* `Comparison.render` — the text of a comparison.
* `field` — starts a comparison from its field, as in `(field "age").greaterThan 18`.
-/

namespace RsqlQuery

open Time

/-- A field compared with a value. -/
structure Comparison where
  field : String
  operator : Operator
  value : Value
  options : RenderOptions := {}

namespace Comparison

/-- A comparison whose field must not be blank. -/
def checked (field : String) (operator : Operator) (value : Value) : Except Fault Comparison :=
  if Text.isBlank field then .error .blankField else .ok { field, operator, value }

def withOptions (c : Comparison) (options : RenderOptions) : Comparison := { c with options }

def render (z : TimeZone) (c : Comparison) : String :=
  c.field ++ c.operator.suffix c.value (c.value.literal z c.options)

/-- Equality of all four parts. -/
instance : BEq Comparison where
  beq a b := a.field == b.field && a.operator == b.operator && a.value == b.value
    && decide (a.options = b.options)

end Comparison

/-- A field that awaits its operator, and the options of the comparison to come. -/
structure Field where
  name : String
  options : RenderOptions := {}

def field (name : String) : Field := { name }

namespace Field

/-- Write dates as timestamps. -/
def withTimestamp (f : Field) : Field := { f with options := { includeTimestamp := true } }

def withOptions (f : Field) (options : RenderOptions) : Field := { f with options }

/-- The comparison by a built-in operator. An operator that does not write its value gets none. -/
def compare (f : Field) (op : BuiltIn) (v : Value) : Comparison where
  field := f.name
  operator := op
  value := if op.takesValue then v else .absent
  options := f.options

def custom (f : Field) (op : CustomOperator) (v : Value) : Comparison where
  field := f.name
  operator := op
  value := v
  options := f.options

variable {α : Type} [ToValue α] (f : Field)

def equal (v : α) : Comparison := f.compare .equal (toValue v)

def notEqual (v : α) : Comparison := f.compare .notEqual (toValue v)

def like (v : α) : Comparison := f.compare .like (toValue v)

def greaterThan (v : α) : Comparison := f.compare .greaterThan (toValue v)

def greaterOrEqual (v : α) : Comparison := f.compare .greaterOrEqual (toValue v)

def lessThan (v : α) : Comparison := f.compare .lessThan (toValue v)

def lessOrEqual (v : α) : Comparison := f.compare .lessOrEqual (toValue v)

def startsWith (v : α) : Comparison := f.compare .startsWith (toValue v)

def endsWith (v : α) : Comparison := f.compare .endsWith (toValue v)

def contains (v : α) : Comparison := f.compare .contains (toValue v)

def doesNotContain (v : α) : Comparison := f.compare .doesNotContain (toValue v)

def isIn (v : α) : Comparison := f.compare .isIn (toValue v)

def notIn (v : α) : Comparison := f.compare .notIn (toValue v)

def isEmpty : Comparison := f.compare .isEmpty .absent

def isNotEmpty : Comparison := f.compare .isNotEmpty .absent

def isNull : Comparison := f.compare .isNull .absent

def isNotNull : Comparison := f.compare .isNotNull .absent

end Field

end RsqlQuery

import RsqlQuery.Number.Binary
import RsqlQuery.Time.Calendar

/-!
# Values

What may stand on the right of a comparison: nothing at all, the null literal, a truth value, a
number, a text, a point in time, or a sequence of values.

## Main definitions

* `Value` — the eight shapes.
* `Value.isAbsent`, `Value.isNull`, `Value.isNumber`, `Value.isArray`, `Value.text?`,
  `Value.items?` — what a value is and holds.
* the instance `BEq Value` — floats compare as floating point does, all else by identity, so a
  value equals itself exactly when it holds no NaN.
-/

namespace RsqlQuery

open Number Time

/-- A value of a comparison. -/
inductive Value where
  /-- No value; dropped where it occurs in a sequence. -/
  | absent
  | null
  | bool (b : Bool)
  | int (n : Int64)
  | float (x : Binary64)
  | string (s : String)
  | date (t : Instant)
  | array (items : List Value)
deriving Inhabited

namespace Value

def isAbsent : Value → Bool
  | absent => true
  | _ => false

def isNull : Value → Bool
  | null => true
  | _ => false

def isNumber : Value → Bool
  | int _ => true
  | float _ => true
  | _ => false

def isArray : Value → Bool
  | array _ => true
  | _ => false

def isString : Value → Bool
  | string _ => true
  | _ => false

def text? : Value → Option String
  | string s => some s
  | _ => none

def items? : Value → Option (List Value)
  | array items => some items
  | _ => none

mutual

/-- Equality of values of the same shape; sequences compare item by item. -/
def beq : Value → Value → Bool
  | absent, absent => true
  | null, null => true
  | bool a, bool b => a == b
  | int a, int b => a == b
  | float a, float b => a == b
  | string a, string b => a == b
  | date a, date b => decide (a = b)
  | array as, array bs => beqItems as bs
  | _, _ => false

def beqItems : List Value → List Value → Bool
  | [], [] => true
  | a :: as, b :: bs => beq a b && beqItems as bs
  | _, _ => false

end

instance : BEq Value := ⟨beq⟩

/-- Proof by induction on the nesting of sequences. -/
theorem nested_induction {P : Value → Prop} (absent : P .absent) (null : P .null)
    (bool : ∀ b, P (.bool b)) (int : ∀ n, P (.int n)) (float : ∀ x, P (.float x))
    (string : ∀ s, P (.string s)) (date : ∀ t, P (.date t))
    (array : ∀ items, (∀ v ∈ items, P v) → P (.array items)) : ∀ v, P v
  | .absent => absent
  | .null => null
  | .bool b => bool b
  | .int n => int n
  | .float x => float x
  | .string s => string s
  | .date t => date t
  | .array items => array items fun v _ =>
    nested_induction absent null bool int float string date array v

end Value

end RsqlQuery

import RsqlQuery.Number.Numeral
import RsqlQuery.Time.Zone
import RsqlQuery.Value.Basic

/-!
# Making values

The values of a program's own data. There are twelve integer types. Those whose integers all fit
the integers of values are cast to them; an integer of the wider types is checked first, and becomes
the nearest float if it does not fit. A float of the narrow format goes through its text; an option
that holds nothing is the absent value. A date becomes the instant at which it begins, and that
hangs on the time zone.

## Main definitions

* `ToValue` — the class of types with a value for each element.
* `IntegerType`, `Integer` — the integer types, and their integers.
* `Value.ofCast`, `Value.ofChecked`, `Value.ofDate` — the conversions that decide something.
-/

namespace RsqlQuery

open Number Time

/-- Types whose elements have a value. -/
class ToValue (α : Type) where
  toValue : α → Value

export ToValue (toValue)

/-- The integer types; those of the machine's own size have sixty-four bits. -/
inductive IntegerType where
  | int8 | uint8 | int16 | uint16 | int32 | uint32 | int64 | isize
  | uint64 | usize | int128 | uint128
deriving DecidableEq, Repr

namespace IntegerType

def bits : IntegerType → Nat
  | int8 | uint8 => 8
  | int16 | uint16 => 16
  | int32 | uint32 => 32
  | int64 | uint64 | isize | usize => 64
  | int128 | uint128 => 128

def isSigned : IntegerType → Bool
  | int8 | int16 | int32 | int64 | isize | int128 => true
  | uint8 | uint16 | uint32 | uint64 | usize | uint128 => false

/-- Whether a conversion checks that the integer fits, instead of casting it. -/
def isChecked : IntegerType → Bool
  | uint64 | usize | int128 | uint128 => true
  | int8 | uint8 | int16 | uint16 | int32 | uint32 | int64 | isize => false

def least (t : IntegerType) : Int := if t.isSigned then -(twoPow (t.bits - 1) : Int) else 0

def greatest (t : IntegerType) : Int :=
  (twoPow (if t.isSigned then t.bits - 1 else t.bits) : Int) - 1

end IntegerType

/-- An integer of an integer type. -/
structure Integer (t : IntegerType) where
  val : Int
  least_le : t.least ≤ val
  le_greatest : val ≤ t.greatest
deriving DecidableEq, Repr

namespace Value

/-- An integer, wrapped around to the integers of values. -/
def ofCast (n : Int) : Value := .int (Int64.ofInt n)

/-- An integer: itself where it fits sixty-four bits, and else the nearest float. -/
def ofChecked (n : Int) : Value :=
  if Int64.minValue.toInt ≤ n ∧ n ≤ Int64.maxValue.toInt then .int (Int64.ofInt n)
  else .float (Binary64.ofInt n)

/-- The instant at which a date begins in a time zone. -/
def ofDate (z : TimeZone) (d : CivilDate) : Value := .date (Instant.ofDate z d)

end Value

instance : ToValue Value := ⟨id⟩

instance : ToValue Unit := ⟨fun _ => .null⟩

instance : ToValue Bool := ⟨.bool⟩

instance : ToValue Int := ⟨Value.ofChecked⟩

instance (t : IntegerType) : ToValue (Integer t) :=
  ⟨fun n => if t.isChecked then Value.ofChecked n.val else Value.ofCast n.val⟩

instance : ToValue Binary64 := ⟨.float⟩

instance : ToValue Binary32 := ⟨fun x => .float x.widen⟩

instance : ToValue Char := ⟨fun c => .string (String.singleton c)⟩

instance : ToValue String := ⟨.string⟩

instance : ToValue Instant := ⟨.date⟩

instance {α : Type} [ToValue α] : ToValue (Option α) := ⟨fun v => v.elim .absent toValue⟩

instance {α : Type} [ToValue α] : ToValue (List α) := ⟨fun items => .array (items.map toValue)⟩

end RsqlQuery

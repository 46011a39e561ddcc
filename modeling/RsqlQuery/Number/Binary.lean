/-!
# Binary interchange formats

The two floating-point formats of values, given by the widths of their fields. A number is read
from its bits as a natural significand and a shift: the finite number with significand `m` and
shift `k` is `m · 2 ^ k` in units of the smallest positive number of its format. Counting in that
unit keeps every later computation in the natural numbers.

Rounding gives the number of a format nearest to a fraction, the even significand winning a tie,
with infinity for what lies beyond the largest finite number. The fraction is first counted in units
of the smallest positive number; the shift is then the one at which the significand fills its width,
and adding the significand to the shifted exponent lets a carry run into the exponent field.

## Main definitions

* `twoPow`, `fivePow`, `tenPow` — powers of natural numbers.
* `BinaryFormat` — field widths; `binary64` and `binary32` are its two instances.
* `Datum`, `BinaryFormat.datum` — what a bit pattern denotes.
* `Binary64` — a bit pattern of the wide format, with the comparisons of floating point: a NaN
  differs from everything and the two zeros are equal.
* `Binary64.atMost`, `Binary64.below` — the order of floating point; a NaN has no place in it.
* `roundDiv` — a quotient rounded to the nearest natural number, ties to even.
* `BinaryFormat.roundBits` — the bits of the nearest number of the format.
* `Binary64.ofFraction`, `Binary64.ofInt`, `Binary64.ofDecimal` — signed forms of it.
-/

namespace RsqlQuery.Number

def twoPow (n : Nat) : Nat := Nat.pow 2 n

def fivePow (n : Nat) : Nat := Nat.pow 5 n

def tenPow (n : Nat) : Nat := Nat.pow 10 n

/-- The widths of the fraction and exponent fields. -/
structure BinaryFormat where
  fractionBits : Nat
  exponentBits : Nat
  fractionBits_pos : 0 < fractionBits := by decide
  two_le_exponentBits : 2 ≤ exponentBits := by decide

def binary64 : BinaryFormat where
  fractionBits := 52
  exponentBits := 11

def binary32 : BinaryFormat where
  fractionBits := 23
  exponentBits := 8

/-- What a bit pattern denotes. -/
inductive Datum where
  | nan
  | infinity (negative : Bool)
  | finite (negative : Bool) (significand shift : Nat)
deriving DecidableEq, Repr

namespace BinaryFormat

variable (f : BinaryFormat)

/-- The smallest positive number is two to the minus this. -/
def scale : Nat := twoPow (f.exponentBits - 1) - 2 + f.fractionBits

/-- The weight of the sign bit. -/
def signBit : Nat := twoPow (f.fractionBits + f.exponentBits)

/-- The bits of positive infinity, just above those of every finite number. -/
def infinityBits : Nat := (twoPow f.exponentBits - 1) * twoPow f.fractionBits

/-- The bits of a quiet NaN. -/
def nanBits : Nat := f.infinityBits + twoPow (f.fractionBits - 1)

/-- Read a bit pattern. A zero exponent field has no hidden bit and the shift of field one. -/
def datum (bits : Nat) : Datum :=
  let negative := decide (f.signBit ≤ bits)
  let magnitude := bits % f.signBit
  let exponent := magnitude / twoPow f.fractionBits
  let fraction := magnitude % twoPow f.fractionBits
  if f.infinityBits < magnitude then .nan
  else if magnitude = f.infinityBits then .infinity negative
  else if exponent = 0 then .finite negative fraction 0
  else .finite negative (twoPow f.fractionBits + fraction) (exponent - 1)

end BinaryFormat

/-- Where a number stands in the order of its format, counted in smallest positive numbers. An
infinity stands where the next number beyond the finite ones would be. -/
def Datum.place? (f : BinaryFormat) : Datum → Option Int
  | .nan => none
  | .infinity negative =>
    some (signed negative (twoPow f.fractionBits * twoPow (twoPow f.exponentBits - 2)))
  | .finite negative significand shift => some (signed negative (significand * twoPow shift))
where
  signed (negative : Bool) (units : Nat) : Int := if negative then -(units : Int) else units

/-- A floating-point number of the wide format, held as its bits. -/
structure Binary64 where
  bits : UInt64
deriving DecidableEq, Repr

namespace Binary64

def datum (x : Binary64) : Datum := binary64.datum x.bits.toNat

def isNaN (x : Binary64) : Bool := x.datum = .nan

def isZero (x : Binary64) : Bool := x.bits.toNat % binary64.signBit = 0

/-- Equality of floating point. -/
instance : BEq Binary64 where
  beq x y := !x.isNaN && !y.isNaN && (decide (x = y) || (x.isZero && y.isZero))

theorem beq_def (x y : Binary64) :
    (x == y) = (!x.isNaN && !y.isNaN && (decide (x = y) || (x.isZero && y.isZero))) := rfl

def place? (x : Binary64) : Option Int := x.datum.place? binary64

def atMost (x y : Binary64) : Bool :=
  match x.place?, y.place? with
  | some a, some b => a ≤ b
  | _, _ => false

def below (x y : Binary64) : Bool :=
  match x.place?, y.place? with
  | some a, some b => a < b
  | _, _ => false

/-- The number with the given sign and magnitude bits. -/
def ofMagnitude (negative : Bool) (magnitude : Nat) : Binary64 :=
  ⟨UInt64.ofNat (if negative then binary64.signBit + magnitude else magnitude)⟩

/-- The number without its sign. -/
def abs (x : Binary64) : Binary64 := ofMagnitude false (x.bits.toNat % binary64.signBit)

end Binary64

/-! ## Rounding -/

/-- A quotient rounded to the nearest natural number; of two equally near the even one. -/
def roundDiv (num den : Nat) : Nat :=
  let quotient := num / den
  let twice := 2 * (num % den)
  if twice < den then quotient
  else if den < twice then quotient + 1
  else if quotient % 2 = 0 then quotient
  else quotient + 1

/-- The magnitude bits of the number nearest to a fraction. -/
def BinaryFormat.roundBits (f : BinaryFormat) (num den : Nat) : Nat :=
  let scaled := num * twoPow f.scale
  let shift := (scaled / den).log2 - f.fractionBits
  min (shift * twoPow f.fractionBits + roundDiv scaled (den * twoPow shift)) f.infinityBits

/-- A natural number times a power of ten. -/
structure Decimal where
  significand : Nat
  exponent : Int
deriving DecidableEq, Repr

namespace Decimal

def num (d : Decimal) : Nat := d.significand * tenPow d.exponent.toNat

/-- The denominator, a power of ten that is one for a non-negative exponent. -/
def den (d : Decimal) : Nat := tenPow (-d.exponent).toNat

end Decimal

namespace Binary64

def ofFraction (negative : Bool) (num den : Nat) : Binary64 :=
  ofMagnitude negative (binary64.roundBits num den)

def ofInt (n : Int) : Binary64 := ofFraction (decide (n < 0)) n.natAbs 1

def ofDecimal (negative : Bool) (d : Decimal) : Binary64 := ofFraction negative d.num d.den

end Binary64

end RsqlQuery.Number

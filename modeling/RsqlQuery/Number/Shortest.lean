import RsqlQuery.Number.Binary

/-!
# Shortest decimals

The shortest decimal that rounds to a given binary number, and of those the one nearest to it. The
numbers that round to it fill an interval between the midpoints to its two neighbours, whose ends
belong to it when its significand is even. All of these are multiples of one power of ten, so the
search is in the natural numbers: it tries the grids of multiples of falling powers of ten and
stops at the first that meets the interval. The coarsest grid that meets it has the fewest digits.

## Main definitions

* `Span` — a number with the interval of what rounds to it, in one unit.
* `Span.search` — the coarsest grid that meets the interval, and the point taken on it.
* `BinaryFormat.shortest` — the decimal of a significand and shift.
-/

namespace RsqlQuery.Number

/-- The number of decimal digits of a natural number; zero has one. -/
def decimalLength (n : Nat) : Nat := (Nat.toDigits 10 n).length

namespace Decimal

def digits (d : Decimal) : List Char := Nat.toDigits 10 d.significand

/-- How many of the digits stand before the decimal point; zeros fill the gap if the point lies
outside of them. -/
def point (d : Decimal) : Int := decimalLength d.significand + d.exponent

end Decimal

/-- A number and the bounds of what rounds to it, counted in one unit. -/
structure Span where
  low : Nat
  value : Nat
  high : Nat
  closed : Bool

namespace Span

/-- Whether a number of units rounds to the value. -/
def contains (s : Span) (n : Nat) : Bool :=
  if s.closed then s.low ≤ n && n ≤ s.high else s.low < n && n < s.high

/-- The multiple of a grid step that lies in the interval and nearest to the value, counted in
steps; an exact tie goes up. -/
def pick? (s : Span) (step : Nat) : Option Nat :=
  let below := s.value / step
  match s.contains (below * step), s.contains ((below + 1) * step) with
  | true, true =>
    if s.value - below * step < (below + 1) * step - s.value then some below else some (below + 1)
  | true, false => some below
  | false, true => some (below + 1)
  | false, false => none

/-- The point taken on the coarsest grid, of at most the given power of ten, that meets the
interval, with the power of that grid. The finest grid always holds the value itself. -/
def search (s : Span) : Nat → Nat × Nat
  | 0 => (s.value, 0)
  | power + 1 =>
    match s.pick? (tenPow (power + 1)) with
    | some point => (point, power + 1)
    | none => s.search power

end Span

namespace BinaryFormat

/-- The interval of a positive number, in units of ten to the minus two more than the scale of the
format. The lower neighbour of a power of two is half as far as the upper one. -/
def span (f : BinaryFormat) (significand shift : Nat) : Span :=
  let unit := fivePow (f.scale + 2) * twoPow shift
  let gap := if significand = twoPow f.fractionBits ∧ 0 < shift then 1 else 2
  { low := (4 * significand - gap) * unit
    value := 4 * significand * unit
    high := (4 * significand + 2) * unit
    closed := significand % 2 == 0 }

/-- The shortest decimal that rounds to a positive number. -/
def shortest (f : BinaryFormat) (significand shift : Nat) : Decimal :=
  let s := f.span significand shift
  let (point, power) := s.search (decimalLength s.value)
  ⟨point, (power : Int) - (f.scale + 2 : Nat)⟩

end BinaryFormat

end RsqlQuery.Number

import RsqlQuery.Number.Shortest

/-!
# Numbers as text

How numbers are written. A floating-point number has two plain forms, both made of the digits of
its shortest decimal: the positional one, however many zeros that takes, and the scientific one. In
a query a number is written positionally from one millionth up to less than ten to the twenty-first,
and scientifically beyond that, with a sign in front of every exponent. Both zeros are `0` there,
and what is not finite has a name.

## Main definitions

* `integerText` — the text of an integer.
* `positional`, `scientific` — digits with a decimal point among them.
* `Datum.positional`, `Datum.scientific` — the plain forms of a number.
* `Binary64.text` — the text of a number in a query.
-/

namespace RsqlQuery.Number

def integerText (n : Int) : List Char :=
  if n < 0 then '-' :: Nat.toDigits 10 n.natAbs else Nat.toDigits 10 n.natAbs

/-! ## Digits with a decimal point -/

/-- Digits with the decimal point after the first `point` of them; zeros fill the gap when the
point lies outside. -/
def positional (digits : List Char) (point : Int) : List Char :=
  if point ≤ 0 then '0' :: '.' :: List.replicate (-point).toNat '0' ++ digits
  else if digits.length ≤ point.toNat then
    digits ++ List.replicate (point.toNat - digits.length) '0'
  else digits.take point.toNat ++ '.' :: digits.drop point.toNat

/-- Digits with a point after the first one, if others follow. -/
def mantissa : List Char → List Char
  | d :: e :: rest => d :: '.' :: e :: rest
  | short => short

/-- Stands between a mantissa and its exponent. -/
def exponentMark : Char := 'e'

/-- The mantissa of some digits, and the power of ten that moves the point behind the first `point`
of them. -/
def scientific (digits : List Char) (point : Int) : List Char :=
  mantissa digits ++ exponentMark :: integerText (point - 1)

/-- A plus sign in front of an exponent that has no sign. -/
def signExponent (text : List Char) : List Char :=
  match text.dropWhile (· ≠ exponentMark) with
  | [] => text
  | _ :: exponent =>
    if exponent.head? = some '-' then text
    else text.takeWhile (· ≠ exponentMark) ++ exponentMark :: '+' :: exponent

/-! ## Floating-point numbers -/

namespace Datum

def signed (negative : Bool) (text : List Char) : List Char :=
  if negative then '-' :: text else text

/-- The positional form of what a bit pattern of a format denotes. -/
def positional (f : BinaryFormat) : Datum → List Char
  | .nan => "NaN".toList
  | .infinity negative => signed negative "inf".toList
  | .finite negative 0 _ => signed negative "0".toList
  | .finite negative significand shift =>
    let d := f.shortest significand shift
    signed negative (Number.positional d.digits d.point)

/-- The scientific form of what a bit pattern of a format denotes. -/
def scientific (f : BinaryFormat) : Datum → List Char
  | .nan => "NaN".toList
  | .infinity negative => signed negative "inf".toList
  | .finite negative 0 _ => signed negative "0e0".toList
  | .finite negative significand shift =>
    let d := f.shortest significand shift
    signed negative (Number.scientific d.digits d.point)

end Datum

namespace Binary64

/-- From here on numbers are written scientifically. -/
def scientificFrom : Binary64 := .ofDecimal false ⟨1, 21⟩

/-- Below this numbers are written scientifically. -/
def scientificBelow : Binary64 := .ofDecimal false ⟨1, -6⟩

def isScientific (x : Binary64) : Bool :=
  scientificFrom.atMost x.abs || x.abs.below scientificBelow

def text (x : Binary64) : String :=
  String.ofList <|
    match x.datum with
    | .nan => "NaN".toList
    | .infinity negative => Datum.signed negative "Infinity".toList
    | .finite _ 0 _ => "0".toList
    | datum =>
      if x.isScientific then signExponent (datum.scientific binary64)
      else datum.positional binary64

end Binary64

end RsqlQuery.Number

import RsqlQuery.Number.Layout

/-!
# Reading numbers

A numeral is a sign, digits with at most one decimal point among them, and an exponent, of which
only one digit is a must. It denotes a decimal exactly, and the number read from it is the one of
the wide format nearest to that decimal. Infinity and NaN are read from their names, in any case.

A number of the narrow format becomes one of the wide format by its numeral: it is written
positionally and read back. So one tenth stays one tenth, where the exact value would bring up the
digits that lie beyond the narrow precision.

## Main definitions

* `readSign`, `readFraction`, `readExponent?`, `readDecimal?` — the parts of a numeral.
* `readNumeral?` — the sign and the decimal of a numeral.
* `Binary64.parse?` — the number read from a text.
* `Binary32` — a bit pattern of the narrow format.
* `Binary32.widen` — its number of the wide format.
-/

namespace RsqlQuery.Number

/-- Whether a text starts with a minus sign, and the text behind its sign. -/
def readSign : List Char → Bool × List Char
  | '-' :: rest => (true, rest)
  | '+' :: rest => (false, rest)
  | text => (false, text)

/-- The number a text of digits alone denotes. -/
def readDigits? (text : List Char) : Option Nat :=
  if text ≠ [] ∧ text.all Char.isDigit then some (Nat.ofDigitChars 10 text 0) else none

/-- The exponent behind a mantissa; where nothing stands it is zero. -/
def readExponent? : List Char → Option Int
  | [] => some 0
  | mark :: rest =>
    if mark = 'e' ∨ mark = 'E' then
      let (negative, digits) := readSign rest
      (readDigits? digits).map fun n => if negative then -(n : Int) else n
    else none

/-- The digits behind a decimal point, if there is one, and the text behind those. -/
def readFraction : List Char → List Char × List Char
  | '.' :: rest => (rest.takeWhile Char.isDigit, rest.dropWhile Char.isDigit)
  | rest => ([], rest)

/-- The decimal of a numeral without a sign. -/
def readDecimal? (text : List Char) : Option Decimal :=
  let whole := text.takeWhile Char.isDigit
  let (fraction, rest) := readFraction (text.dropWhile Char.isDigit)
  match readDigits? (whole ++ fraction), readExponent? rest with
  | some significand, some exponent => some ⟨significand, exponent - fraction.length⟩
  | _, _ => none

/-- The sign and the decimal of a numeral. -/
def readNumeral? (text : List Char) : Option (Bool × Decimal) :=
  let (negative, rest) := readSign text
  (readDecimal? rest).map fun d => (negative, d)

/-- The number of the wide format read from a text. -/
def Binary64.parse? (text : List Char) : Option Binary64 :=
  let (negative, rest) := readSign text
  let name := rest.map Char.toLower
  if name = "nan".toList then some (.ofMagnitude negative binary64.nanBits)
  else if name = "inf".toList ∨ name = "infinity".toList then
    some (.ofMagnitude negative binary64.infinityBits)
  else (readNumeral? text).map fun (negative, d) => .ofDecimal negative d

/-! ## From the narrow format to the wide one -/

/-- A floating-point number of the narrow format, held as its bits. -/
structure Binary32 where
  bits : UInt32
deriving DecidableEq, Repr

namespace Binary32

def datum (x : Binary32) : Datum := binary32.datum x.bits.toNat

/-- The number of the wide format with the same value. -/
def exactValue (x : Binary32) : Binary64 :=
  match x.datum with
  | .nan => .ofMagnitude false binary64.nanBits
  | .infinity negative => .ofMagnitude negative binary64.infinityBits
  | .finite negative significand shift =>
    .ofFraction negative (significand * twoPow shift) (twoPow binary32.scale)

/-- The number of the wide format read from the positional form; the exact value would stand in if
that could not be read. -/
def widen (x : Binary32) : Binary64 :=
  (Binary64.parse? (x.datum.positional binary32)).getD x.exactValue

end Binary32

end RsqlQuery.Number

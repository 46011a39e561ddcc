import RsqlQuery.Text.Utf8

/-!
# Percent encoding

A component of a query string is written byte by byte: the bytes of letters, digits and the marks
`- _ . ! ~ * ' ( )` stand for themselves and every other byte is a percent sign with two upper-case
hexadecimal digits. Reading takes either case of digit, leaves a percent sign that no two digits
follow as it is, and replaces bytes that are no UTF-8.

## Main definitions

* `percentEncode`, `percentDecode` — the two directions on texts.
* `Percent.encode`, `Percent.decode` — the same on lists of characters.
* `upperHex`, `lowerHex`, `hexValue?` — hexadecimal digits of either case, and their numbers.
* `isUrlSafe` — whether a text can stand in a URL: ASCII without spaces and double quotes.
-/

namespace RsqlQuery.Text

/-! ## Hexadecimal digits -/

/-- The digit of a number below sixteen, letters in upper case. -/
def upperHex (n : Nat) : Char := if n < 10 then Char.ofNat (n + 48) else Char.ofNat (n + 55)

/-- The digit of a number below sixteen, letters in lower case. -/
def lowerHex (n : Nat) : Char := if n < 10 then Char.ofNat (n + 48) else Char.ofNat (n + 87)

/-- The number that a digit of either case stands for. -/
def hexValue? (c : Char) : Option Nat :=
  if '0' ≤ c ∧ c ≤ '9' then some (c.toNat - 48)
  else if 'A' ≤ c ∧ c ≤ 'F' then some (c.toNat - 55)
  else if 'a' ≤ c ∧ c ≤ 'f' then some (c.toNat - 87)
  else none

theorem hexValue?_upperHex {n : Nat} (h : n < 16) : hexValue? (upperHex n) = some n :=
  (by decide : ∀ n < 16, hexValue? (upperHex n) = some n) n h

theorem hexValue?_lowerHex {n : Nat} (h : n < 16) : hexValue? (lowerHex n) = some n :=
  (by decide : ∀ n < 16, hexValue? (lowerHex n) = some n) n h

/-! ## Encoding -/

namespace Percent

/-- The marks that stand for themselves beside letters and digits. -/
def marks : List Char := ['-', '_', '.', '!', '~', '*', '\'', '(', ')']

/-- Whether a character stands for itself. -/
def keeps (c : Char) : Bool := c.isAlphanum || marks.contains c

/-- The written form of one byte. -/
def encodeByte (b : UInt8) : List Char :=
  let c := Char.ofNat b.toNat
  if keeps c then [c] else ['%', upperHex (b.toNat / 16), upperHex (b.toNat % 16)]

def encode (s : List Char) : List Char := (utf8 s).flatMap encodeByte

@[simp] theorem encode_nil : encode [] = [] := rfl

theorem encode_append (s t : List Char) : encode (s ++ t) = encode s ++ encode t := by
  simp [encode]

/-- The byte of two hexadecimal digits. -/
def byteOf? (high low : Char) : Option UInt8 := do
  let h ← hexValue? high
  let l ← hexValue? low
  return UInt8.ofNat (h * 16 + l)

/-- The bytes that a text stands for. -/
def bytes : List Char → List UInt8
  | '%' :: high :: low :: rest =>
    match byteOf? high low with
    | some b => b :: bytes rest
    | none => String.utf8EncodeChar '%' ++ bytes (high :: low :: rest)
  | c :: rest => String.utf8EncodeChar c ++ bytes rest
  | [] => []

def decode (s : List Char) : List Char := ofUtf8 (bytes s)

end Percent

/-- The written form of a component of a query string. -/
def percentEncode (s : String) : String := String.ofList (Percent.encode s.toList)

/-- The component that a text stands for. -/
def percentDecode (s : String) : String := String.ofList (Percent.decode s.toList)

@[simp] theorem toList_percentEncode (s : String) :
    (percentEncode s).toList = Percent.encode s.toList := String.toList_ofList

@[simp] theorem toList_percentDecode (s : String) :
    (percentDecode s).toList = Percent.decode s.toList := String.toList_ofList

/-- Whether a character can stand in a URL as it is. -/
def isUrlSafeChar (c : Char) : Bool := c.toNat < 128 && c != ' ' && c != '"'

def isUrlSafe (s : String) : Bool := s.toList.all isUrlSafeChar

end RsqlQuery.Text

/-!
# UTF-8

The bytes of a text and the reading of bytes that may not be a text at all. Reading never fails:
each maximal run of bytes that starts a character and is then cut off stands for one replacement
character, and so does each byte that can start nothing.

The reader is a machine with one state, the character under way, so it looks at each byte once
and recursion is on the list of bytes.

## Main definitions

* `utf8` — the bytes of a list of characters.
* `ofUtf8` — the characters of a list of bytes, replacing what is malformed.
-/

namespace RsqlQuery.Text

def utf8 (s : List Char) : List UInt8 := s.flatMap String.utf8EncodeChar

@[simp] theorem utf8_nil : utf8 [] = [] := rfl

@[simp] theorem utf8_cons (c : Char) (s : List Char) :
    utf8 (c :: s) = String.utf8EncodeChar c ++ utf8 s := by simp [utf8]

@[simp] theorem utf8_append (s t : List Char) : utf8 (s ++ t) = utf8 s ++ utf8 t := by
  simp [utf8]

/-- Stands in the text where the bytes were malformed. -/
def replacement : Char := '\ufffd'

/-- A character whose first bytes have been read: its value so far, the number of bytes still to
come, and the bounds of the next one. -/
structure Partial where
  value : Nat
  missing : Nat
  low : UInt8 := 0x80
  high : UInt8 := 0xBF

/-- Read a byte where a character starts. The bounds after `E0`, `ED`, `F0` and `F4` rule out
spellings that are too long, surrogates, and values beyond the last character. -/
def startChar (b : UInt8) : List Char × Option Partial :=
  if b < 0x80 then ([Char.ofNat b.toNat], none)
  else if b < 0xC2 then ([replacement], none)
  else if b < 0xE0 then ([], some { value := b.toNat - 0xC0, missing := 1 })
  else if b < 0xF0 then
    ([], some {
      value := b.toNat - 0xE0
      missing := 2
      low := if b = 0xE0 then 0xA0 else 0x80
      high := if b = 0xED then 0x9F else 0xBF })
  else if b < 0xF5 then
    ([], some {
      value := b.toNat - 0xF0
      missing := 3
      low := if b = 0xF0 then 0x90 else 0x80
      high := if b = 0xF4 then 0x8F else 0xBF })
  else ([replacement], none)

/-- Read a byte inside a character; one outside the bounds cuts the character off and starts
the next. -/
def Partial.next (p : Partial) (b : UInt8) : List Char × Option Partial :=
  if p.low ≤ b ∧ b ≤ p.high then
    let value := p.value * 64 + (b.toNat - 0x80)
    if p.missing ≤ 1 then ([Char.ofNat value], none)
    else ([], some { value, missing := p.missing - 1 })
  else
    let (out, state) := startChar b
    (replacement :: out, state)

/-- The characters of the bytes that follow a character under way, if there is one. -/
def ofUtf8From : Option Partial → List UInt8 → List Char
  | none, [] => []
  | some _, [] => [replacement]
  | none, b :: bytes =>
    let (out, state) := startChar b
    out ++ ofUtf8From state bytes
  | some p, b :: bytes =>
    let (out, state) := p.next b
    out ++ ofUtf8From state bytes

def ofUtf8 (bytes : List UInt8) : List Char := ofUtf8From none bytes

end RsqlQuery.Text

import RsqlQuery.Text.Percent

/-!
# Tokens of JSON

A JSON text is a sequence of tokens with white space between them. The scanner is a machine that
looks at each character once: a step takes the state and a character to the next state and the
tokens that are now complete. A number is complete only at the character behind it, which the same
step then scans from between tokens.

A string is kept as its characters and escapes denote it, which may be no text: an escape can stand
for half of a surrogate pair. Two halves in order make a character; others leave the string without
a text.

## Main definitions

* `Piece`, `Token` — the data, with `Token.text` for their shortest written form.
* `textOf?` — the text of the pieces of a string.
* `scan?` — the tokens of a text.
-/

namespace RsqlQuery.Json

open Text

/-- What one character or escape of a string denotes. -/
inductive Piece where
  | char (c : Char)
  /-- Half of a surrogate pair. -/
  | half (unit : Nat)
deriving DecidableEq, Repr

/-- A token of JSON; a number keeps its spelling. -/
inductive Token where
  | openObject
  | closeObject
  | openArray
  | closeArray
  | colon
  | comma
  | null
  | bool (b : Bool)
  | number (spelling : List Char)
  | string (pieces : List Piece)
deriving DecidableEq, Repr

/-- The text of the pieces of a string; none if half of a surrogate pair stands alone. -/
def textOf? : List Piece → Option (List Char)
  | [] => some []
  | .char c :: rest => (textOf? rest).map (c :: ·)
  | .half high :: .half low :: rest =>
    if high < 0xDC00 ∧ 0xDC00 ≤ low then
      (textOf? rest).map (Char.ofNat (0x10000 + (high - 0xD800) * 1024 + (low - 0xDC00)) :: ·)
    else none
  | .half _ :: _ => none

theorem textOf?_map_char (s : List Char) : textOf? (s.map .char) = some s := by
  induction s with
  | nil => rfl
  | cons c s ih => simp [textOf?, ih]

/-! ## Writing -/

/-- A backslash, the letter `u` and four digits. -/
def unicodeEscape (unit : Nat) : List Char :=
  ['\\', 'u', lowerHex (unit / 4096 % 16), lowerHex (unit / 256 % 16), lowerHex (unit / 16 % 16),
    lowerHex (unit % 16)]

/-- The characters that have an escape of their own, with the letter behind the backslash. -/
def shortEscapes : List (Char × Char) :=
  [('"', '"'), ('\\', '\\'), ('\x08', 'b'), ('\x0c', 'f'), ('\n', 'n'), ('\r', 'r'), ('\t', 't')]

/-- A character of a string; only quotes, backslashes and control characters are escaped. -/
def charText (c : Char) : List Char :=
  match shortEscapes.lookup c with
  | some letter => ['\\', letter]
  | none => if c.toNat < 0x20 then unicodeEscape c.toNat else [c]

def Piece.text : Piece → List Char
  | char c => charText c
  | half unit => unicodeEscape unit

/-- The shortest written form of a token. -/
def Token.text : Token → List Char
  | openObject => ['{']
  | closeObject => ['}']
  | openArray => ['[']
  | closeArray => [']']
  | colon => [':']
  | comma => [',']
  | null => ['n', 'u', 'l', 'l']
  | bool true => ['t', 'r', 'u', 'e']
  | bool false => ['f', 'a', 'l', 's', 'e']
  | number spelling => spelling
  | string pieces => '"' :: pieces.flatMap Piece.text ++ ['"']

/-! ## Scanning -/

def isSpace (c : Char) : Bool := c == ' ' || c == '\t' || c == '\n' || c == '\r'

def isNumberChar (c : Char) : Bool :=
  c.isDigit || c == '-' || c == '+' || c == '.' || c == 'e' || c == 'E'

/-- The part of a number before the point: no zero in front of other digits. -/
def isWhole (digits : List Char) : Bool :=
  match digits with
  | [] => false
  | '0' :: rest => rest.isEmpty
  | _ => true

/-- What may follow the digits of a number: nothing, or an exponent. -/
def isExponent (s : List Char) : Bool :=
  match s with
  | [] => true
  | mark :: rest =>
    let digits := match rest with
      | '+' :: digits => digits
      | '-' :: digits => digits
      | digits => digits
    (mark == 'e' || mark == 'E') && !digits.isEmpty && digits.all Char.isDigit

/-- What may follow the part of a number before the point. -/
def isFraction (s : List Char) : Bool :=
  match s with
  | '.' :: rest =>
    !(rest.takeWhile Char.isDigit).isEmpty && isExponent (rest.dropWhile Char.isDigit)
  | rest => isExponent rest

def isNumber (s : List Char) : Bool :=
  let unsigned := match s with
    | '-' :: rest => rest
    | rest => rest
  isWhole (unsigned.takeWhile Char.isDigit) && isFraction (unsigned.dropWhile Char.isDigit)

/-- Where the scanner is. What it has read of a token is kept with the last piece first. -/
inductive ScanState where
  | between
  | word (ahead : List Char) (token : Token)
  | number (spelling : List Char)
  | string (pieces : List Piece)
  | escape (pieces : List Piece)
  | hex (pieces : List Piece) (value missing : Nat)

/-- The next state and the tokens now complete. -/
abbrev Scanned := ScanState × List Token

/-- A step from between two tokens. -/
def scanStart? (c : Char) : Option Scanned :=
  match c with
  | '{' => some (.between, [.openObject])
  | '}' => some (.between, [.closeObject])
  | '[' => some (.between, [.openArray])
  | ']' => some (.between, [.closeArray])
  | ':' => some (.between, [.colon])
  | ',' => some (.between, [.comma])
  | 'n' => some (.word ['u', 'l', 'l'] .null, [])
  | 't' => some (.word ['r', 'u', 'e'] (.bool true), [])
  | 'f' => some (.word ['a', 'l', 's', 'e'] (.bool false), [])
  | '"' => some (.string [], [])
  | _ =>
    if isSpace c then some (.between, [])
    else if c == '-' || c.isDigit then some (.number [c], [])
    else none

/-- The piece of a code unit written as an escape. -/
def pieceOfUnit (unit : Nat) : Piece :=
  if 0xD800 ≤ unit ∧ unit < 0xE000 then .half unit else .char (Char.ofNat unit)

/-- The character of an escape by a single letter. -/
def ofShortEscape? (letter : Char) : Option Char :=
  if letter = '/' then some '/' else (shortEscapes.find? fun e => e.2 == letter).map Prod.fst

def scanStep? (state : ScanState) (c : Char) : Option Scanned :=
  match state with
  | .between => scanStart? c
  | .word [] _ => none
  | .word (a :: ahead) token =>
    if c ≠ a then none
    else if ahead.isEmpty then some (.between, [token])
    else some (.word ahead token, [])
  | .number spelling =>
    if isNumberChar c then some (.number (c :: spelling), [])
    else if isNumber spelling.reverse then
      (scanStart? c).map fun (state, out) => (state, .number spelling.reverse :: out)
    else none
  | .string pieces =>
    if c = '"' then some (.between, [.string pieces.reverse])
    else if c = '\\' then some (.escape pieces, [])
    else if c.toNat < 0x20 then none
    else some (.string (.char c :: pieces), [])
  | .escape pieces =>
    if c = 'u' then some (.hex pieces 0 4, [])
    else (ofShortEscape? c).map fun e => (.string (.char e :: pieces), [])
  | .hex pieces value missing =>
    (hexValue? c).map fun digit =>
      let value := value * 16 + digit
      if missing ≤ 1 then (.string (pieceOfUnit value :: pieces), [])
      else (.hex pieces value (missing - 1), [])

/-- What the end of the text completes. -/
def scanEnd? : ScanState → Option (List Token)
  | .between => some []
  | .number spelling => if isNumber spelling.reverse then some [.number spelling.reverse] else none
  | _ => none

/-- The tokens of a text scanned from a state. -/
def scanFrom? (state : ScanState) : List Char → Option (List Token)
  | [] => scanEnd? state
  | c :: rest => do
    let (state, out) ← scanStep? state c
    let tokens ← scanFrom? state rest
    return out ++ tokens

def scan? (s : List Char) : Option (List Token) := scanFrom? .between s

end RsqlQuery.Json

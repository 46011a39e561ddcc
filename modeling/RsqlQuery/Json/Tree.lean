import RsqlQuery.Json.Token

/-!
# JSON values

A JSON value is the tree that a sequence of tokens spells. Reading is a machine on tokens with a
stack of the arrays and objects that are open, so the depth of a value is bounded by nothing but its
length. Objects keep their members in order, with keys that may repeat.

## Main definitions

* `Tree` — JSON values, with `Tree.tokens` for the tokens that spell one.
* `Tree.ofTokens?` — the value that tokens spell.
* `Tree.parse?`, `Tree.write` — reading a text and writing the compact one.
-/

namespace RsqlQuery.Json

inductive Tree where
  | null
  | bool (b : Bool)
  | number (spelling : List Char)
  | string (pieces : List Piece)
  | array (items : List Tree)
  | object (members : List (List Piece × Tree))

namespace Tree

def ofText (s : String) : Tree := .string (s.toList.map .char)

def text? : Tree → Option String
  | .string pieces => (textOf? pieces).map String.ofList
  | _ => none

@[simp] theorem text?_ofText (s : String) : (ofText s).text? = some s := by
  simp [ofText, text?, textOf?_map_char]

/-- The truth value of a literal. -/
def bool? : Tree → Option Bool
  | .bool b => some b
  | _ => none

/-! ## Writing -/

mutual

/-- The tokens that spell a value. -/
def tokens : Tree → List Token
  | .null => [.null]
  | .bool b => [.bool b]
  | .number spelling => [.number spelling]
  | .string pieces => [.string pieces]
  | .array items => .openArray :: [.comma].intercalate (itemTokens items) ++ [.closeArray]
  | .object members => .openObject :: [.comma].intercalate (memberTokens members) ++ [.closeObject]

/-- The tokens of each item of an array. -/
def itemTokens : List Tree → List (List Token)
  | [] => []
  | item :: rest => item.tokens :: itemTokens rest

/-- The tokens of each member of an object. -/
def memberTokens : List (List Piece × Tree) → List (List Token)
  | [] => []
  | (key, value) :: rest => (.string key :: .colon :: value.tokens) :: memberTokens rest

end

def write (t : Tree) : String := String.ofList (t.tokens.flatMap Token.text)

/-! ## Reading -/

/-- An open array or object that awaits the value under way, with what it holds so far, last
first. -/
inductive Frame where
  | array (items : List Tree)
  | object (members : List (List Piece × Tree)) (key : List Piece)

/-- What the reader awaits; the open frames around it come last. -/
inductive ReadState where
  | value (stack : List Frame)
  | arrayStart (stack : List Frame)
  | arrayNext (items : List Tree) (stack : List Frame)
  | objectStart (stack : List Frame)
  | objectKey (members : List (List Piece × Tree)) (stack : List Frame)
  | objectColon (members : List (List Piece × Tree)) (key : List Piece) (stack : List Frame)
  | objectNext (members : List (List Piece × Tree)) (stack : List Frame)
  | done (t : Tree)

/-- Put a finished value into the innermost open frame. -/
def deliver (t : Tree) : List Frame → ReadState
  | [] => .done t
  | .array items :: stack => .arrayNext (t :: items) stack
  | .object members key :: stack => .objectNext ((key, t) :: members) stack

/-- A step where a value starts. -/
def startValue? (stack : List Frame) : Token → Option ReadState
  | .null => some (deliver .null stack)
  | .bool b => some (deliver (.bool b) stack)
  | .number spelling => some (deliver (.number spelling) stack)
  | .string pieces => some (deliver (.string pieces) stack)
  | .openArray => some (.arrayStart stack)
  | .openObject => some (.objectStart stack)
  | _ => none

def readStep? : ReadState → Token → Option ReadState
  | .value stack, token => startValue? stack token
  | .arrayStart stack, .closeArray => some (deliver (.array []) stack)
  | .arrayStart stack, token => startValue? (.array [] :: stack) token
  | .arrayNext items stack, .comma => some (.value (.array items :: stack))
  | .arrayNext items stack, .closeArray => some (deliver (.array items.reverse) stack)
  | .objectStart stack, .closeObject => some (deliver (.object []) stack)
  | .objectStart stack, .string key => some (.objectColon [] key stack)
  | .objectKey members stack, .string key => some (.objectColon members key stack)
  | .objectColon members key stack, .colon => some (.value (.object members key :: stack))
  | .objectNext members stack, .comma => some (.objectKey members stack)
  | .objectNext members stack, .closeObject => some (deliver (.object members.reverse) stack)
  | _, _ => none

def ofTokens? (tokens : List Token) : Option Tree := do
  match ← tokens.foldlM readStep? (.value []) with
  | .done t => some t
  | _ => none

/-- The value that a text spells. -/
def parse? (s : String) : Option Tree := do ofTokens? (← scan? s.toList)

end Tree

end RsqlQuery.Json

import RsqlQuery.Value.Literal

/-!
# Operators

An operator decides what follows the field of a comparison. A built-in operator has a token and one
of six forms of writing the value behind it. A custom operator is supplied by the caller and writes
everything behind the field itself.

## Main definitions

* `BuiltIn` — the seventeen built-in operators, with `BuiltIn.token` and `BuiltIn.form`.
* `BuiltIn.suffix` — the token and the value as the form writes it.
* `CustomOperator` — a mark that tells it from others, and the text it writes.
* `Operator` — either of the two.
-/

namespace RsqlQuery

open Text

inductive BuiltIn where
  | equal
  | notEqual
  | like
  | greaterThan
  | greaterOrEqual
  | lessThan
  | lessOrEqual
  | startsWith
  | endsWith
  | contains
  | doesNotContain
  | isIn
  | notIn
  | isEmpty
  | isNotEmpty
  | isNull
  | isNotNull
deriving DecidableEq, Repr, Inhabited

/-- The ways of writing a value behind an operator. -/
inductive ValueForm where
  /-- Percent-encoded, between quotes if the literal wants them. -/
  | literal
  /-- Percent-encoded and always between quotes, with a wildcard before or after. -/
  | pattern (before after : Bool)
  /-- As it is, behind a percent-encoded token. -/
  | verbatim
  /-- As it is, between parentheses. -/
  | membership
  /-- Not at all: the quoted empty text instead. -/
  | emptyText
  /-- Not at all: the null literal instead. -/
  | nullWord
deriving DecidableEq, Repr

namespace BuiltIn

def all : List BuiltIn :=
  [equal, notEqual, like, greaterThan, greaterOrEqual, lessThan, lessOrEqual, startsWith, endsWith,
   contains, doesNotContain, isIn, notIn, isEmpty, isNotEmpty, isNull, isNotNull]

@[simp] theorem mem_all (op : BuiltIn) : op ∈ all := by cases op <;> decide

/-- The name by which an operator is called for. -/
def name : BuiltIn → String
  | equal => "Equal"
  | notEqual => "NotEqual"
  | like => "Like"
  | greaterThan => "GreaterThan"
  | greaterOrEqual => "GreaterThanEqualTo"
  | lessThan => "LessThan"
  | lessOrEqual => "LessThanEqualTo"
  | startsWith => "StartsWith"
  | endsWith => "EndsWith"
  | contains => "Contains"
  | doesNotContain => "DoesNotContain"
  | isIn => "In"
  | notIn => "NotIn"
  | isEmpty => "IsEmpty"
  | isNotEmpty => "IsNotEmpty"
  | isNull => "IsNull"
  | isNotNull => "IsNotNull"

def ofName? (name : String) : Option BuiltIn := all.find? fun op => op.name == name

/-- The token of an operator before any encoding. -/
def token : BuiltIn → String
  | equal | isIn => "=in="
  | notEqual | doesNotContain | isNotEmpty | isNotNull => "!="
  | like | startsWith | endsWith | contains | isEmpty | isNull => "=="
  | greaterThan => ">"
  | greaterOrEqual => ">="
  | lessThan => "<"
  | lessOrEqual => "<="
  | notIn => "=out="

/-- How an operator writes its value. -/
def form : BuiltIn → ValueForm
  | equal | notEqual => .literal
  | like => .pattern false false
  | startsWith => .pattern false true
  | endsWith => .pattern true false
  | contains | doesNotContain => .pattern true true
  | greaterThan | greaterOrEqual | lessThan | lessOrEqual => .verbatim
  | isIn | notIn => .membership
  | isEmpty | isNotEmpty => .emptyText
  | isNull | isNotNull => .nullWord

/-- Whether an operator writes its value at all. -/
def takesValue (op : BuiltIn) : Bool :=
  match op.form with
  | .emptyText | .nullWord => false
  | _ => true

/-- The wildcard of patterns, where one is asked for. -/
def wildcard (wanted : Bool) : String := if wanted then "*" else ""

/-- What an operator writes behind the field. -/
def suffix (op : BuiltIn) (l : Literal) : String :=
  match op.form with
  | .literal => op.token ++ percentEncode (if l.quoted then quote l.text else l.text)
  | .pattern before after =>
    op.token ++ percentEncode (quote (wildcard before ++ l.text ++ wildcard after))
  | .verbatim => percentEncode op.token ++ l.text
  | .membership => op.token ++ "(" ++ l.text ++ ")"
  | .emptyText => op.token ++ percentEncode (quote "")
  | .nullWord => op.token ++ Value.nullText

end BuiltIn

/-- An operator that the caller supplies: what it writes behind the field for a value and the
literal of that value. Two of them are the same operator when they carry the same mark. -/
structure CustomOperator where
  mark : Nat
  suffix : Value → Literal → String

instance : BEq CustomOperator := ⟨fun a b => a.mark == b.mark⟩

inductive Operator where
  | builtIn (op : BuiltIn)
  | custom (op : CustomOperator)

namespace Operator

instance : Coe BuiltIn Operator := ⟨builtIn⟩

instance : Coe CustomOperator Operator := ⟨custom⟩

def isCustom : Operator → Bool
  | builtIn _ => false
  | custom _ => true

/-- The built-in operator, unless the operator is custom. -/
def builtIn? : Operator → Option BuiltIn
  | builtIn op => some op
  | custom _ => none

/-- What an operator writes behind the field for a value with its literal. -/
def suffix (op : Operator) (v : Value) (l : Literal) : String :=
  match op with
  | builtIn op => op.suffix l
  | custom op => op.suffix v l

/-- Equality of operators; a custom operator equals those with its mark. -/
def beq : Operator → Operator → Bool
  | builtIn a, builtIn b => decide (a = b)
  | custom a, custom b => a == b
  | _, _ => false

instance : BEq Operator := ⟨beq⟩

end Operator

end RsqlQuery

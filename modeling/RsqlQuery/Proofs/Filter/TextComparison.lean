import RsqlQuery.Filter.Comparison
import RsqlQuery.Proofs.Text.Percent
import RsqlQuery.Proofs.Text.Quoted

/-!
# Comparisons with texts

Seven operators write a text as an encoded literal between double quotes, some of them with
wildcards beside it. Whatever the text holds, a reader who decodes the literal finds its end at the
last character, and gets the text back by dropping the wildcards and the protecting backslashes.

## Main definitions

* `BuiltIn.isTextual`, `BuiltIn.opensPattern`, `BuiltIn.closesPattern` — the seven operators, and
  those of them with a wildcard before or after the text.

## Main statements

* `Comparison.render_withText_injective` — different texts render differently.
* `Comparison.render_withText_reads_back` — the literal of a text ends where it should, and reads
  back.
-/

namespace RsqlQuery

open Text Time

namespace BuiltIn

/-- Operators that write a text between double quotes. -/
def isTextual : BuiltIn → Bool
  | equal | notEqual | like | startsWith | endsWith | contains | doesNotContain => true
  | _ => false

/-- Operators that ask for texts with a given end or middle. -/
def opensPattern : BuiltIn → Bool
  | endsWith | contains | doesNotContain => true
  | _ => false

/-- Operators that ask for texts with a given start or middle. -/
def closesPattern : BuiltIn → Bool
  | startsWith | contains | doesNotContain => true
  | _ => false

/-- All forms of writing a text agree but for the wildcards. -/
theorem suffix_of_isTextual {op : BuiltIn} (h : op.isTextual = true) (text : String) :
    op.suffix { text, quoted := true } =
      op.token ++ percentEncode
        (quote (wildcard op.opensPattern ++ text ++ wildcard op.closesPattern)) := by
  cases op <;> simp [isTextual] at h <;>
    simp [suffix, form, opensPattern, closesPattern, wildcard]

theorem closed_wildcard (wanted : Bool) : Quoted.Closed (wildcard wanted).toList := by
  cases wanted
  · exact Quoted.closed_nil
  · exact Quoted.closed_singleton (by decide) (by decide)

/-- The literal of a text is closed, with or without wildcards. -/
theorem unquote?_pattern (before after : Bool) (s : String) :
    Quoted.unquote? (quote (wildcard before ++ escape s ++ wildcard after)).toList =
      some ((wildcard before).toList ++ Quoted.escape s.toList ++ (wildcard after).toList) := by
  have closed := ((closed_wildcard before).append (Quoted.closed_escape s.toList)).append
    (closed_wildcard after)
  rw [quote, String.toList_ofList, String.toList_append, String.toList_append, toList_escape,
    Quoted.unquote?_quote closed]

end BuiltIn

namespace Comparison

def withText (field : String) (op : BuiltIn) (s : String) (o : RenderOptions := {}) :
    Comparison where
  field := field
  operator := op
  value := .string s
  options := o

theorem render_withText {op : BuiltIn} (h : op.isTextual = true) (z : TimeZone)
    (field s : String) (o : RenderOptions) :
    (withText field op s o).render z =
      field ++ op.token ++ percentEncode (quote
        (BuiltIn.wildcard op.opensPattern ++ escape s ++ BuiltIn.wildcard op.closesPattern)) := by
  simp only [render, withText, Operator.suffix, Value.literal, BuiltIn.suffix_of_isTextual h,
    String.append_assoc]

theorem render_withText_injective {op : BuiltIn} (h : op.isTextual = true) (z : TimeZone)
    (field : String) (o : RenderOptions) :
    Function.Injective fun s => (withText field op s o).render z := by
  intro s t same
  simp only [render_withText h, String.append_right_inj] at same
  have inside := quote_injective (percentEncode_injective same)
  rw [String.append_left_inj, String.append_right_inj] at inside
  exact escape_injective inside

/-- Behind the field and the token stands a literal that decodes to a text between double quotes:
the first of them that no backslash protects is the last character, and the inside is the given
text with its backslashes, between the wildcards of the operator. Different texts render
differently. -/
theorem render_withText_reads_back (z : TimeZone) (field : String) (op : BuiltIn)
    (h : op.isTextual = true) (o : RenderOptions) (s : String) :
    (∃ rest inside body : String,
      (withText field op s o).render z = field ++ op.token ++ rest ∧
      percentDecode rest = quote inside ∧
      Quoted.unquote? (percentDecode rest).toList = some inside.toList ∧
      inside = (if op.opensPattern then "*" else "") ++ body
        ++ (if op.closesPattern then "*" else "") ∧
      unescape body = s) ∧
    ∀ t : String, (withText field op t o).render z = (withText field op s o).render z → t = s := by
  constructor
  · refine ⟨_, _, escape s, render_withText h z field s o, ?_, ?_, rfl, unescape_escape s⟩
    · rw [percentDecode_percentEncode]
      rfl
    · rw [percentDecode_percentEncode, BuiltIn.unquote?_pattern]
      simp [BuiltIn.wildcard]
  · intro t same
    exact render_withText_injective h z field o same

/-- A text made of a quote, a backslash and a wildcard, asked for as the end of a field. -/
theorem render_withText_reads_back_endsWith :
    BuiltIn.endsWith.isTextual = true ∧
    (∃ rest inside body : String,
      (withText "name" .endsWith "\"*\\").render .utc = "name" ++ "==" ++ rest ∧
      percentDecode rest = quote inside ∧
      Quoted.unquote? (percentDecode rest).toList = some inside.toList ∧
      inside = "*" ++ body ++ "" ∧ unescape body = "\"*\\") ∧
    ∀ t : String, (withText "name" .endsWith t).render .utc =
      (withText "name" .endsWith "\"*\\").render .utc → t = "\"*\\" :=
  ⟨rfl, render_withText_reads_back .utc "name" .endsWith rfl {} "\"*\\"⟩

end Comparison

end RsqlQuery

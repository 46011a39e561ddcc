import RsqlQuery.Filter.Comparison
import RsqlQuery.Proofs.Text.Foreign
import RsqlQuery.Proofs.Text.Parenthesized
import RsqlQuery.Proofs.Text.Quoted

/-!
# Comparisons with lists of texts

Two operators ask whether a field is one of several texts, which they write between parentheses
with commas between them. Each text is escaped and percent-encoded but stands without quotes, and
neither of the two changes a parenthesis. So once the list is decoded, a reader finds its end at
the last character exactly if no text in it holds a closing parenthesis.

## Main definitions

* `Comparison.withTexts` — a comparison with a list of texts.

## Main statements

* `Comparison.render_withTexts_ends_iff` — when the list of a comparison ends at its last character.
* `Comparison.render_withTexts_ends_early` — a list that ends before its last character.
-/

namespace RsqlQuery.Comparison

open Text Time

def withTexts (field : String) (op : BuiltIn) (items : List String) (o : RenderOptions := {}) :
    Comparison where
  field := field
  operator := op
  value := .array (items.map .string)
  options := o

/-- The texts of a list as they are written, with commas between them. -/
def members (items : List String) : String :=
  ",".intercalate (items.map fun s => percentEncode (escape s))

theorem literal_strings (z : TimeZone) (o : RenderOptions) (items : List String) :
    (Value.literal z o (.array (items.map .string))).text = members items := by
  have present : Value.present (items.map .string) = items.map .string := by
    simp [Value.present, Value.isAbsent]
  simp [Value.literal, present, members, Value.itemSeparator, Value.piece, Function.comp_def]

theorem render_withTexts {op : BuiltIn} (h : op = .isIn ∨ op = .notIn) (z : TimeZone)
    (field : String) (o : RenderOptions) (items : List String) :
    (withTexts field op items o).render z = field ++ op.token ++ ("(" ++ members items ++ ")") := by
  rw [← literal_strings z o]
  obtain rfl | rfl := h <;>
    simp only [render, withTexts, Operator.suffix, BuiltIn.suffix, BuiltIn.form,
      String.append_assoc]

theorem reads_members (items : List String) :
    Percent.Reads (members items).toList (escape (",".intercalate items)).toList := by
  have comma : Percent.Reads (",").toList (",").toList := Percent.reads_of_not_mem (by decide)
  have item : ∀ s ∈ items, Percent.Reads (percentEncode (escape s)).toList (escape s).toList := by
    intro s _
    rw [toList_percentEncode]
    exact Percent.reads_encode _
  have joined := comma.intercalate item
  rw [members, escape_intercalate, String.toList_intercalate, String.toList_intercalate]
  simpa only [List.map_map, Function.comp_def] using joined

theorem percentDecode_members (items : List String) :
    percentDecode ("(" ++ members items ++ ")") = "(" ++ escape (",".intercalate items) ++ ")" := by
  have opening : Percent.Reads ("(").toList ("(").toList := Percent.reads_of_not_mem (by decide)
  have closing : Percent.Reads (")").toList (")").toList := Percent.reads_of_not_mem (by decide)
  have whole := ((opening.append (reads_members items)).append closing).decode_eq
  simp only [← String.toList_append] at whole
  rw [percentDecode, whole, String.ofList_toList]

/-- Behind the field and the token stands a list that decodes to the escaped texts, with commas
between them and parentheses around them. The first closing parenthesis that no backslash and no
double quotes protect is its last character exactly if no text of the list holds one. -/
theorem render_withTexts_ends_iff (z : TimeZone) (field : String) (op : BuiltIn)
    (h : op = .isIn ∨ op = .notIn) (o : RenderOptions) (items : List String) :
    ∃ rest : String,
      (withTexts field op items o).render z = field ++ op.token ++ rest ∧
      percentDecode rest = "(" ++ ",".intercalate (items.map escape) ++ ")" ∧
      ((Parenthesized.inside? (percentDecode rest).toList).isSome = true ↔
        ∀ s ∈ items, ')' ∉ s.toList) := by
  refine ⟨_, render_withTexts h z field o items, ?_, ?_⟩
  · rw [percentDecode_members, escape_intercalate]
  · have between : ("(" ++ escape (",".intercalate items) ++ ")").toList =
        '(' :: Quoted.escape (",".intercalate items).toList ++ [')'] := by
      simp
    rw [percentDecode_members, between, Parenthesized.isSome_inside?_escape_iff,
      mem_intercalate_iff (by decide)]
    simp

/-- A list of two texts, with the other separators of a query in them. -/
theorem render_withTexts_ends_iff_separators :
    (BuiltIn.notIn = .isIn ∨ BuiltIn.notIn = .notIn) ∧
    ∃ rest : String,
      (withTexts "name" .notIn ["a,(b", "\\\""]).render .utc = "name" ++ "=out=" ++ rest ∧
      percentDecode rest = "(a,(b,\\\\\\\")" ∧
      (Parenthesized.inside? (percentDecode rest).toList).isSome = true := by
  have op : BuiltIn.notIn = .isIn ∨ BuiltIn.notIn = .notIn := .inr rfl
  obtain ⟨rest, render, decoded, ends⟩ :=
    render_withTexts_ends_iff .utc "name" .notIn op {} ["a,(b", "\\\""]
  exact ⟨op, rest, render, decoded.trans (by decide), ends.mpr (by decide)⟩

/-- A closing parenthesis in the only text of a list ends the list, and the one that belongs to the
list is left behind it. -/
theorem render_withTexts_ends_early :
    (withTexts "name" .isIn [")"]).render .utc = "name" ++ "=in=" ++ "())" ∧
    (percentDecode "())").toList = ['(', ')', ')'] ∧
    Parenthesized.untilClose false [')', ')'] = some ([], [')']) ∧
    Parenthesized.inside? ['(', ')', ')'] = none := by
  decide

end RsqlQuery.Comparison

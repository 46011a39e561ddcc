import Mathlib.Logic.Function.Basic
import Mathlib.Tactic.SplitIfs
import RsqlQuery.Text.Quoted

/-!
# Where a quoted text ends

A reader of quoted text walks from the opening quote to the first double quote that no backslash
protects. Escaped text never stops it: every quote inside is protected, and the backslashes come in
pairs, so none is left over at the end to protect the closing quote.

## Main definitions

* `Quoted.untilQuote` — what stands before the first unprotected double quote, and behind it.
* `Quoted.unquote?` — the inside of a text whose closing quote is its last character.
* `Quoted.Closed` — texts that a reader passes as a whole.

## Main statements

* `Quoted.unquote?_quote` — a closed text between quotes is read back whole.
* `escape_intercalate` — escaping texts one by one is escaping what they are joined to.
* `unescape_eq_self_iff` — which texts read back as themselves.
-/

namespace RsqlQuery.Text

namespace Quoted

/-- Read up to the first double quote that no backslash protects. -/
def untilQuote : List Char → Option (List Char × List Char)
  | [] => none
  | '"' :: rest => some ([], rest)
  | '\\' :: c :: rest => (untilQuote rest).map fun r => ('\\' :: c :: r.1, r.2)
  | c :: rest => (untilQuote rest).map fun r => (c :: r.1, r.2)

/-- The inside of a text that starts with a double quote and whose first unprotected double quote
behind that one is its last character. -/
def unquote? : List Char → Option (List Char)
  | '"' :: rest =>
    match untilQuote rest with
    | some (inside, []) => some inside
    | _ => none
  | _ => none

/-- Texts that hold no unprotected double quote and protect nothing behind their end. -/
def Closed (s : List Char) : Prop :=
  ∀ t, untilQuote (s ++ t) = (untilQuote t).map fun r => (s ++ r.1, r.2)

theorem closed_nil : Closed [] := by
  intro t
  simp

theorem Closed.append {s t : List Char} (hs : Closed s) (ht : Closed t) : Closed (s ++ t) := by
  intro u
  simp [hs (t ++ u), ht u, Function.comp_def]

theorem closed_protected (c : Char) : Closed ['\\', c] := by
  intro t
  simp [untilQuote]

theorem closed_singleton {c : Char} (hq : c ≠ '"') (hb : c ≠ '\\') : Closed [c] := by
  intro t
  rw [List.singleton_append, untilQuote.eq_def]
  split <;> simp_all

theorem closed_escape (s : List Char) : Closed (escape s) := by
  induction s with
  | nil => exact closed_nil
  | cons c s ih =>
    rw [escape_cons]
    refine Closed.append ?_ ih
    split_ifs with h
    · exact closed_protected c
    · rw [not_or] at h
      exact closed_singleton h.2 h.1

/-- The closing quote of a closed text is the first one that the reader meets. -/
theorem unquote?_quote {s : List Char} (h : Closed s) : unquote? (quote s) = some s := by
  have whole := h ['"']
  simp only [untilQuote, Option.map_some, List.append_nil] at whole
  simp [quote, unquote?, whole]

theorem intercalate_escape (items : List (List Char)) :
    List.intercalate [','] (items.map escape) = escape (List.intercalate [','] items) := by
  have comma : escape [','] = [','] := rfl
  induction items with
  | nil => rfl
  | cons s items ih =>
    cases items with
    | nil => simp
    | cons t items =>
      simp only [List.map_cons, List.intercalate_cons_cons, escape_append, comma] at ih ⊢
      rw [ih]

theorem length_unescape_le (s : List Char) : (unescape s).length ≤ s.length := by
  fun_induction unescape s with
  | case1 c rest ih =>
    simp only [List.length_cons]
    omega
  | case2 => simp
  | case3 c rest _ _ ih =>
    simp only [List.length_cons]
    omega
  | case4 => simp

/-- Every backslash either goes or keeps one behind it from protecting, so a text with one gets
shorter. -/
theorem unescape_eq_iff (s : List Char) : unescape s = s ↔ '\\' ∉ s := by
  fun_induction unescape s with
  | case1 c rest ih =>
    have shorter := length_unescape_le rest
    refine iff_of_false (fun same => ?_) (by simp)
    have lengths := congrArg List.length same
    simp only [List.length_cons] at lengths
    omega
  | case2 => simp
  | case3 c rest protectsNext protectsNone ih =>
    have ordinary : c ≠ '\\' := by
      rintro rfl
      cases rest with
      | nil => exact protectsNone rfl rfl
      | cons d rest => exact protectsNext d rest rfl rfl
    simp [ih, ordinary.symm]
  | case4 => simp

end Quoted

theorem escape_intercalate (items : List String) :
    escape (",".intercalate items) = ",".intercalate (items.map escape) := by
  have comma : (",").toList = [','] := rfl
  rw [← String.toList_inj, toList_escape, String.toList_intercalate, String.toList_intercalate,
    comma, ← Quoted.intercalate_escape, List.map_map, List.map_map]
  simp [Function.comp_def]

@[simp] theorem unescape_escape (s : String) : unescape (escape s) = s := by
  rw [unescape, toList_escape, Quoted.unescape_of_escape, String.ofList_toList]

theorem escape_injective : Function.Injective escape :=
  Function.LeftInverse.injective unescape_escape

/-- A text without backslashes reads back as itself, and no other text does. -/
theorem unescape_eq_self_iff (s : String) : unescape s = s ↔ '\\' ∉ s.toList := by
  rw [← Quoted.unescape_eq_iff, ← String.toList_inj, toList_unescape]

theorem quote_injective : Function.Injective quote := by
  intro s t h
  have same := congrArg String.toList h
  rw [toList_quote, toList_quote] at same
  exact String.toList_inj.mp (List.append_cancel_right (List.cons.inj same).2)

end RsqlQuery.Text

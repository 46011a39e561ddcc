/-!
# Quoted text

Inside double quotes a backslash protects the character after it. Writing protects every
backslash and then every double quote; reading drops the protecting backslashes.

## Main definitions

* `escape`, `quote`, `unescape` — on texts.
* `Quoted.escape`, `Quoted.quote`, `Quoted.unescape` — the same on lists of characters.
-/

namespace RsqlQuery.Text

namespace Quoted

/-- Put a backslash before each occurrence of a character. -/
def protect (c : Char) (s : List Char) : List Char :=
  s.flatMap fun x => if x = c then ['\\', x] else [x]

/-- Backslashes are protected first, so that those which protect a quote stay single. -/
def escape (s : List Char) : List Char := protect '"' (protect '\\' s)

/-- Each backslash goes and the character after it stays; one at the end just goes. -/
def unescape : List Char → List Char
  | '\\' :: c :: rest => c :: unescape rest
  | ['\\'] => []
  | c :: rest => c :: unescape rest
  | [] => []

def quote (s : List Char) : List Char := '"' :: s ++ ['"']

@[simp] theorem protect_append (c : Char) (s t : List Char) :
    protect c (s ++ t) = protect c s ++ protect c t := by simp [protect]

@[simp] theorem escape_append (s t : List Char) : escape (s ++ t) = escape s ++ escape t := by
  simp [escape]

/-- One pass does the same as the two: each character is protected or stays. -/
theorem escape_cons (c : Char) (s : List Char) :
    escape (c :: s) = (if c = '\\' ∨ c = '"' then ['\\', c] else [c]) ++ escape s := by
  by_cases hb : c = '\\'
  · subst hb
    simp [escape, protect]
  · by_cases hq : c = '"'
    · subst hq
      simp [escape, protect]
    · simp [escape, protect, hb, hq]

theorem unescape_cons_of_ne {c : Char} (s : List Char) (h : c ≠ '\\') :
    unescape (c :: s) = c :: unescape s := by
  rw [unescape.eq_def]
  split <;> simp_all

/-- Reading what was written gives the text back. -/
theorem unescape_of_escape (s : List Char) : unescape (escape s) = s := by
  induction s with
  | nil => rfl
  | cons c s ih =>
    rw [escape_cons]
    by_cases h : c = '\\' ∨ c = '"'
    · simp [h, unescape, ih]
    · rw [not_or] at h
      simp [h, unescape_cons_of_ne, ih]

end Quoted

/-- A text with its backslashes and double quotes protected. -/
def escape (s : String) : String := String.ofList (Quoted.escape s.toList)

/-- A text without its protecting backslashes. -/
def unescape (s : String) : String := String.ofList (Quoted.unescape s.toList)

def quote (s : String) : String := String.ofList (Quoted.quote s.toList)

@[simp] theorem toList_escape (s : String) : (escape s).toList = Quoted.escape s.toList :=
  String.toList_ofList

@[simp] theorem toList_unescape (s : String) : (unescape s).toList = Quoted.unescape s.toList :=
  String.toList_ofList

@[simp] theorem toList_quote (s : String) : (quote s).toList = '"' :: s.toList ++ ['"'] :=
  String.toList_ofList

end RsqlQuery.Text

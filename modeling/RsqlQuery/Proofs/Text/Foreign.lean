import Mathlib.Tactic.SplitIfs
import RsqlQuery.Proofs.Number.Alphabet
import RsqlQuery.Proofs.Text.Percent
import RsqlQuery.Text.Quoted

/-!
# Where the characters of a query come from

Writing a query brings in few characters of its own: those that stand for themselves when a text is
percent-encoded, and a handful of marks. A character beyond these is foreign. It can only get into a
query from a text that is written as it is, for percent-encoding lets no foreign character through,
while escaping and joining neither add nor drop any.

A text of characters that stand for themselves is its own percent-encoding. Any other text gets a
percent sign: without one, its encoding would read back as the encoding itself, which has only
characters that stand for themselves.

## Main definitions

* `isForeign` — whether a character is beyond those that writing brings in.

## Main statements

* `not_mem_percentEncode` — percent-encoded text holds no foreign character.
* `mem_escape_iff`, `mem_intercalate_iff` — escaped and joined texts hold those of their parts.
* `isForeign_of_not_isUrlSafeChar` — a character that cannot stand in a URL is foreign.
* `Percent.encode_of_keeps` — percent-encoding leaves texts as they are that need no encoding.
* `Percent.percent_mem_encode_iff` — percent-encoding brings a percent sign into all others.
-/

namespace RsqlQuery.Text

/-- The marks of percent-encoding, operators and sections, numbers, dates, sequences and escapes. -/
def ownMarks : List Char := ['%', '=', '+', ':', ',', '\\']

/-- A character that writing does not bring in by itself. -/
def isForeign (c : Char) : Bool := !Percent.keeps c && !ownMarks.contains c

theorem isForeign_iff {c : Char} :
    isForeign c = true ↔ Percent.keeps c = false ∧ c ∉ ownMarks := by
  simp [isForeign]

/-- A text of characters that are not foreign holds none that is. -/
theorem not_mem_of_all {s : List Char} (own : s.all (fun c => !isForeign c) = true) {x : Char}
    (h : isForeign x = true) : x ∉ s := by
  intro hx
  simpa [h] using List.all_eq_true.mp own x hx

variable {x : Char}

theorem keeps_of_isForeign (h : isForeign x = true) : Percent.keeps x = false :=
  (isForeign_iff.mp h).1

theorem ne_of_isForeign (h : isForeign x = true) {c : Char} (own : isForeign c = false) :
    x ≠ c := by
  rintro rfl
  exact Bool.false_ne_true (own.symm.trans h)

theorem not_mem_percentEncode (h : isForeign x = true) (s : String) :
    x ∉ (percentEncode s).toList := by
  rw [toList_percentEncode]
  exact Percent.not_mem_encode (keeps_of_isForeign h) (ne_of_isForeign h (by decide)) s.toList

theorem isNumeric_of_isForeign (h : isForeign x = true) : Number.isNumeric x = false := by
  have special := keeps_of_isForeign h
  rw [Bool.eq_false_iff]
  intro numeric
  simp only [Number.isNumeric, Bool.or_eq_true, beq_iff_eq] at numeric
  obtain ((letter | rfl) | rfl) | rfl := numeric
  · simp [Percent.keeps, letter] at special
  · exact absurd special (by decide)
  · exact absurd h (by decide)
  · exact absurd special (by decide)

theorem mem_escape_iff (h : x ≠ '\\') (s : String) : x ∈ (escape s).toList ↔ x ∈ s.toList := by
  rw [toList_escape]
  induction s.toList with
  | nil => rfl
  | cons c s ih =>
    rw [Quoted.escape_cons, List.mem_append, ih, List.mem_cons]
    split_ifs <;> simp [h]

theorem mem_intercalate_iff {sep : String} (h : x ∉ sep.toList) (items : List String) :
    x ∈ (sep.intercalate items).toList ↔ ∃ s ∈ items, x ∈ s.toList := by
  rw [String.toList_intercalate]
  induction items with
  | nil => simp
  | cons s items ih =>
    cases items with
    | nil => simp
    | cons t items =>
      simp only [List.map_cons, List.intercalate_cons_cons, List.mem_append] at ih ⊢
      simp [ih, h]

/-! ## Characters that cannot stand in a URL -/

theorem toNat_of_isAlphanum {c : Char} (h : c.isAlphanum = true) :
    48 ≤ c.toNat ∧ c.toNat < 128 := by
  change ((decide (65 ≤ c.val ∧ c.val ≤ 90) ||
    (decide (97 ≤ c.val) && decide (c.val ≤ 122))) ||
    (decide (48 ≤ c.val) && decide (c.val ≤ 57))) = true at h
  simp only [Bool.or_eq_true, Bool.and_eq_true, decide_eq_true_eq, UInt32.le_iff_toNat_le] at h
  change (((65 ≤ c.toNat ∧ c.toNat ≤ 90) ∨ (97 ≤ c.toNat ∧ c.toNat ≤ 122)) ∨
    (48 ≤ c.toNat ∧ c.toNat ≤ 57)) at h
  omega

theorem isUrlSafeChar_of_isAlphanum {c : Char} (h : c.isAlphanum = true) :
    isUrlSafeChar c = true := by
  obtain ⟨low, high⟩ := toNat_of_isAlphanum h
  have space : c ≠ ' ' := by
    rintro rfl
    exact absurd low (by decide)
  have mark : c ≠ '"' := by
    rintro rfl
    exact absurd low (by decide)
  simp [isUrlSafeChar, high, space, mark]

theorem isUrlSafeChar_of_not_isForeign (h : isForeign x = false) : isUrlSafeChar x = true := by
  have marks : (Percent.marks ++ ownMarks).all isUrlSafeChar = true := by decide
  rw [List.all_eq_true] at marks
  simp only [isForeign, Percent.keeps, Bool.and_eq_false_iff, Bool.not_eq_false', Bool.or_eq_true,
    List.contains_iff_mem] at h
  obtain (letter | mark) | own := h
  · exact isUrlSafeChar_of_isAlphanum letter
  · exact marks x (List.mem_append_left _ mark)
  · exact marks x (List.mem_append_right _ own)

theorem isForeign_of_not_isUrlSafeChar (h : isUrlSafeChar x = false) : isForeign x = true := by
  by_contra own
  rw [isUrlSafeChar_of_not_isForeign (by simpa using own)] at h
  simp at h

theorem isUrlSafe_iff {s : String} :
    isUrlSafe s = true ↔ ∀ x, isUrlSafeChar x = false → x ∉ s.toList := by
  rw [isUrlSafe, List.all_eq_true]
  constructor
  · intro safe x hx held
    simp [safe x held] at hx
  · intro free x held
    by_contra hx
    exact free x (by simpa using hx) held

theorem not_mem_of_isUrlSafe {s : String} (safe : isUrlSafe s = true)
    (hx : isUrlSafeChar x = false) : x ∉ s.toList :=
  isUrlSafe_iff.mp safe x hx

/-- A text whose unsafe characters are those of certain sources is safe exactly if these are. -/
theorem isUrlSafe_iff_of_sources {s : String} {source : String → Prop}
    (h : ∀ x, isUrlSafeChar x = false → (x ∈ s.toList ↔ ∃ t, source t ∧ x ∈ t.toList)) :
    isUrlSafe s = true ↔ ∀ t, source t → isUrlSafe t = true := by
  constructor
  · intro safe t ht
    refine isUrlSafe_iff.mpr fun x hx held => ?_
    exact not_mem_of_isUrlSafe safe hx ((h x hx).mpr ⟨t, ht, held⟩)
  · intro safe
    refine isUrlSafe_iff.mpr fun x hx held => ?_
    obtain ⟨t, ht, held⟩ := (h x hx).mp held
    exact not_mem_of_isUrlSafe (safe t ht) hx held

/-! ## Texts that percent-encoding leaves as they are -/

namespace Percent

theorem toNat_lt_of_keeps {c : Char} (h : keeps c = true) : c.toNat < 128 := by
  have ascii : marks.all (fun c => decide (c.toNat < 128)) = true := by decide
  simp only [keeps, Bool.or_eq_true, List.contains_iff_mem] at h
  rcases h with letter | mark
  · exact (toNat_of_isAlphanum letter).2
  · simpa using List.all_eq_true.mp ascii c mark

theorem encode_singleton_of_keeps {c : Char} (h : keeps c = true) : encode [c] = [c] := by
  have low : c.toNat < 256 := by
    have := toNat_lt_of_keeps h
    omega
  have byte : String.utf8EncodeChar c = [UInt8.ofNat c.toNat] := by
    have := utf8EncodeChar_of_keeps low (by rwa [Char.ofNat_toNat])
    rwa [Char.ofNat_toNat] at this
  have value : (UInt8.ofNat c.toNat).toNat = c.toNat := toNat_ofNat_of_lt low
  simp [encode, byte, encodeByte, value, h]

theorem encode_of_keeps {s : List Char} (h : ∀ c ∈ s, keeps c = true) : encode s = s := by
  induction s with
  | nil => rfl
  | cons c s ih =>
    have head := encode_singleton_of_keeps (h c List.mem_cons_self)
    have tail := ih fun x hx => h x (List.mem_cons_of_mem c hx)
    rw [← List.singleton_append, encode_append, head, tail]

/-- Encoding brings in a percent sign exactly if some character does not stand for itself. -/
theorem percent_mem_encode_iff (s : List Char) :
    '%' ∈ encode s ↔ ∃ c ∈ s, keeps c = false := by
  constructor
  · intro held
    by_contra kept
    have all : ∀ c ∈ s, keeps c = true := by
      intro c hc
      by_contra special
      exact kept ⟨c, hc, by simpa using special⟩
    rw [encode_of_keeps all] at held
    exact ne_percent_of_keeps (all '%' held) rfl
  · rintro ⟨c, hc, special⟩
    by_contra free
    have same : encode s = s := (decode_of_not_mem free).symm.trans (decode_encode s)
    rcases keeps_or_percent_of_mem_encode (same.symm ▸ hc) with kept | rfl
    · exact Bool.false_ne_true (special ▸ kept)
    · exact free (same.symm ▸ hc)

end Percent

end RsqlQuery.Text

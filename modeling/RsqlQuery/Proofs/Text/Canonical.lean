import Mathlib.Data.Set.Function
import RsqlQuery.Proofs.Text.Foreign
import RsqlQuery.Proofs.Text.Quoted

/-!
# Texts that are written forms

Reading undoes writing, but more texts can be read than are ever written: a triplet may have
lower-case digits or stand for a character that needs none, and a backslash may protect any
character. The written forms are told here by their characters alone, from left to right. They are
exactly the texts that come back when what they read as is written again.

## Main definitions

* `Percent.Canonical` — texts of characters that stand for themselves and of upper-case triplets of
  other bytes, with the bytes that they stand for.
* `Quoted.written` — how a character is written by escaping a text in one pass.
* `Quoted.Escaped` — texts of ordinary characters and of pairs that protect one that is not.

## Main statements

* `Percent.canonical_iff` — a canonical text is the written form of its bytes.
* `Percent.encode_decode_iff` — percent-encoding gives back the canonical texts whose bytes are
  UTF-8, and no others.
* `Quoted.escape_eq_flatMap` — protecting one character after the other is a single pass.
* `Quoted.escape_unescape_iff` — escaping gives back the escaped texts, and no others.
-/

namespace RsqlQuery.Text

/-! ## Percent-encoded texts -/

namespace Percent

/-- The digits of triplets, each at the place of its number. -/
def upperHexDigits : List Char :=
  ['0', '1', '2', '3', '4', '5', '6', '7', '8', '9', 'A', 'B', 'C', 'D', 'E', 'F']

/-- Texts of characters that stand for themselves and of triplets, with the bytes that they stand
for. The byte of a triplet is none that stands for itself. -/
inductive Canonical : List Char → List UInt8 → Prop
  | nil : Canonical [] []
  | kept {c : Char} {s : List Char} {bs : List UInt8} :
      keeps c = true → Canonical s bs → Canonical (c :: s) (UInt8.ofNat c.toNat :: bs)
  | triplet {high low : Char} {h l : Nat} {s : List Char} {bs : List UInt8} :
      upperHexDigits[h]? = some high → upperHexDigits[l]? = some low →
      keeps (Char.ofNat (h * 16 + l)) = false → Canonical s bs →
      Canonical ('%' :: high :: low :: s) (UInt8.ofNat (h * 16 + l) :: bs)

theorem getElem?_upperHexDigits {n : Nat} (h : n < 16) :
    upperHexDigits[n]? = some (upperHex n) :=
  (by decide : ∀ n < 16, upperHexDigits[n]? = some (upperHex n)) n h

theorem eq_upperHex_of_getElem? {n : Nat} {c : Char} (h : upperHexDigits[n]? = some c) :
    n < 16 ∧ c = upperHex n := by
  obtain ⟨bound, -⟩ := List.getElem?_eq_some_iff.mp h
  have below : n < 16 := bound
  rw [getElem?_upperHexDigits below] at h
  exact ⟨below, (Option.some.inj h).symm⟩

/-! ### One byte -/

theorem encodeByte_of_keeps {c : Char} (h : keeps c = true) :
    encodeByte (UInt8.ofNat c.toNat) = [c] := by
  have low : c.toNat < 256 := by
    have := toNat_lt_of_keeps h
    omega
  rw [encodeByte, toNat_ofNat_of_lt low, Char.ofNat_toNat]
  exact if_pos h

theorem encodeByte_of_not_keeps {high low : Nat} (hh : high < 16) (hl : low < 16)
    (h : keeps (Char.ofNat (high * 16 + low)) = false) :
    encodeByte (UInt8.ofNat (high * 16 + low)) = ['%', upperHex high, upperHex low] := by
  have value : (UInt8.ofNat (high * 16 + low)).toNat = high * 16 + low :=
    toNat_ofNat_of_lt (by omega)
  have first : (high * 16 + low) / 16 = high := by omega
  have second : (high * 16 + low) % 16 = low := by omega
  rw [encodeByte, value, first, second]
  exact if_neg (by simp [h])

/-- A byte is written as the character that it is, or as the triplet of its digits. -/
theorem canonical_encodeByte (b : UInt8) {s : List Char} {bs : List UInt8} (h : Canonical s bs) :
    Canonical (encodeByte b ++ s) (b :: bs) := by
  have bound : b.toNat < 256 := b.toNat_lt
  simp only [encodeByte]
  split_ifs with stays
  · have valid : b.toNat.isValidChar := .inl (by omega)
    have whole : UInt8.ofNat (Char.ofNat b.toNat).toNat = b := by
      rw [Char.ofNat, dif_pos valid]
      exact UInt8.ofNat_toNat
    have written := Canonical.kept stays h
    rwa [whole] at written
  · have whole : b.toNat / 16 * 16 + b.toNat % 16 = b.toNat := by omega
    have high := getElem?_upperHexDigits (show b.toNat / 16 < 16 by omega)
    have low := getElem?_upperHexDigits (show b.toNat % 16 < 16 by omega)
    have written := Canonical.triplet high low (by simpa [whole] using stays) h
    rwa [whole, UInt8.ofNat_toNat] at written

/-! ### Whole texts -/

/-- A text is canonical for the bytes that it is the written form of, and for no others. -/
theorem canonical_iff {s : List Char} {bs : List UInt8} :
    Canonical s bs ↔ s = bs.flatMap encodeByte := by
  constructor
  · intro h
    induction h with
    | nil => rfl
    | kept stays _ ih => rw [List.flatMap_cons, encodeByte_of_keeps stays, ← ih]; rfl
    | triplet high low special _ ih =>
      obtain ⟨hh, rfl⟩ := eq_upperHex_of_getElem? high
      obtain ⟨hl, rfl⟩ := eq_upperHex_of_getElem? low
      rw [List.flatMap_cons, encodeByte_of_not_keeps hh hl special, ← ih]
      rfl
  · rintro rfl
    induction bs with
    | nil => exact .nil
    | cons b bs ih => exact canonical_encodeByte b ih

theorem isValidUTF8_iff {bs : List UInt8} :
    bs.toByteArray.IsValidUTF8 ↔ ∃ s, utf8 s = bs := by
  constructor
  · rintro ⟨s, h⟩
    exact ⟨s, (List.toByteArray_inj.mp h).symm⟩
  · rintro ⟨s, rfl⟩
    exact ⟨s, rfl⟩

/-- Reading a text and writing what it reads as gives it back exactly if it is canonical and its
bytes are those of a text. -/
theorem encode_decode_iff (s : List Char) :
    encode (decode s) = s ↔ ∃ bs : List UInt8, Canonical s bs ∧ bs.toByteArray.IsValidUTF8 := by
  constructor
  · intro back
    exact ⟨utf8 (decode s), canonical_iff.mpr back.symm, isValidUTF8_iff.mpr ⟨decode s, rfl⟩⟩
  · rintro ⟨bs, canonical, valid⟩
    obtain ⟨t, rfl⟩ := isValidUTF8_iff.mp valid
    have written : s = encode t := canonical_iff.mp canonical
    rw [written, decode_encode]

end Percent

theorem percentEncode_append (s t : String) :
    percentEncode (s ++ t) = percentEncode s ++ percentEncode t := by
  simp [percentEncode, Percent.encode_append]

/-- Percent-encoding keeps the order of the parts of a text and is a bijection onto the canonical
texts whose bytes are UTF-8, with decoding as its inverse: a text decodes to one that is encoded to
it again exactly if it is made of characters that stand for themselves and of upper-case triplets of
other bytes, and all its bytes together are UTF-8. -/
theorem percentEncode_bijOn_canonical :
    (∀ a, percentDecode (percentEncode a) = a) ∧
    (∀ a b, percentEncode (a ++ b) = percentEncode a ++ percentEncode b) ∧
    (∀ e, percentEncode (percentDecode e) = e ↔
      ∃ bs : List UInt8, Percent.Canonical e.toList bs ∧ bs.toByteArray.IsValidUTF8) ∧
    Set.BijOn percentEncode Set.univ
      {e | ∃ bs : List UInt8, Percent.Canonical e.toList bs ∧ bs.toByteArray.IsValidUTF8} := by
  have back : ∀ e, percentEncode (percentDecode e) = e ↔
      ∃ bs : List UInt8, Percent.Canonical e.toList bs ∧ bs.toByteArray.IsValidUTF8 := by
    intro e
    rw [← Percent.encode_decode_iff, ← String.toList_inj, toList_percentEncode,
      toList_percentDecode]
  refine ⟨percentDecode_percentEncode, percentEncode_append, back, ?_,
    percentEncode_injective.injOn, ?_⟩
  · intro a _
    apply (back (percentEncode a)).mp
    rw [percentDecode_percentEncode]
  · intro e canonical
    exact ⟨percentDecode e, Set.mem_univ _, (back e).mpr canonical⟩

/-- Lower-case digits, a triplet of a character that stands for itself, and bytes that are no UTF-8
are read, but never written. -/
example : percentEncode (percentDecode "%c3%a9%41%FF") = "%C3%A9A%EF%BF%BD" := by
  decide

/-! ## Escaped texts -/

namespace Quoted

/-- How a character is written when a text is escaped in one pass. -/
def written (c : Char) : List Char :=
  if c = '\\' then ['\\', '\\'] else if c = '"' then ['\\', '"'] else [c]

/-- Texts that read from left to right as ordinary characters and as pairs of a backslash and a
backslash or a double quote. -/
inductive Escaped : List Char → Prop
  | nil : Escaped []
  | ordinary {c : Char} {s : List Char} : c ≠ '\\' → c ≠ '"' → Escaped s → Escaped (c :: s)
  | pair {c : Char} {s : List Char} : c = '\\' ∨ c = '"' → Escaped s → Escaped ('\\' :: c :: s)

/-- The pass for quotes leaves the backslashes of the pass before as they are. -/
theorem escape_eq_flatMap (s : List Char) : escape s = s.flatMap written := by
  induction s with
  | nil => rfl
  | cons c s ih =>
    rw [escape_cons, List.flatMap_cons, ih]
    grind [written]

theorem escaped_escape (s : List Char) : Escaped (escape s) := by
  induction s with
  | nil => exact .nil
  | cons c s ih =>
    rw [escape_cons]
    split_ifs with special
    · exact .pair special ih
    · rw [not_or] at special
      exact .ordinary special.1 special.2 ih

theorem Escaped.exists_escape {t : List Char} (h : Escaped t) : ∃ s, escape s = t := by
  induction h with
  | nil => exact ⟨[], rfl⟩
  | @ordinary c _ backslash quote _ ih =>
    obtain ⟨s, rfl⟩ := ih
    exact ⟨c :: s, by simp [escape_cons, backslash, quote]⟩
  | @pair c _ special _ ih =>
    obtain ⟨s, rfl⟩ := ih
    exact ⟨c :: s, by simp [escape_cons, special]⟩

/-- Reading a text and writing what it reads as gives it back exactly if it is escaped. -/
theorem escape_unescape_iff (t : List Char) : escape (unescape t) = t ↔ Escaped t := by
  constructor
  · intro back
    rw [← back]
    exact escaped_escape (unescape t)
  · intro escaped
    obtain ⟨s, rfl⟩ := escaped.exists_escape
    rw [unescape_of_escape]

end Quoted

/-- Protecting the backslashes of a text and then its double quotes writes each character once, in a
single pass. Reading undoes this, and writing undoes reading for the texts of ordinary characters
and protecting pairs, and for no others. -/
theorem escape_unescape_inverse :
    (∀ s : String, Quoted.protect '"' (Quoted.protect '\\' s.toList) =
        s.toList.flatMap Quoted.written ∧
      (escape s).toList = s.toList.flatMap Quoted.written) ∧
    (∀ s, unescape (escape s) = s) ∧
    ∀ t, escape (unescape t) = t ↔ Quoted.Escaped t.toList := by
  refine ⟨fun s => ⟨Quoted.escape_eq_flatMap s.toList, ?_⟩, unescape_escape, fun t => ?_⟩
  · rw [toList_escape, Quoted.escape_eq_flatMap]
  · rw [← Quoted.escape_unescape_iff, ← String.toList_inj, toList_escape, toList_unescape]

/-- A backslash that protects an ordinary character is dropped, and so is one at the end. -/
example : escape (unescape "a\\b\\\"\\") = "ab\\\"" := by
  decide

end RsqlQuery.Text

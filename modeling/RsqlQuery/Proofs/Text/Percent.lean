import Mathlib.Logic.Function.Basic
import RsqlQuery.Proofs.Text.Utf8
import RsqlQuery.Text.Percent

/-!
# Reading percent-encoded text back

A percent-encoded text stands for the bytes it was made from, so it reads back as the text itself.
It consists of characters that stand for themselves and of percent signs alone, which keeps every
separator of a query out of it. A text without a percent sign reads as itself, and a text made of
several parts reads as what they read as, one after the other.

## Main definitions

* `Percent.Reads` — a text that is read as another one, whatever follows it.

## Main statements

* `Percent.bytes_encode` — the bytes of an encoded text, whatever follows it.
* `Percent.Reads.decode_eq` — what such a text decodes to.
* `Percent.not_mem_encode` — what cannot occur in an encoded text.
* `percentDecode_percentEncode` — an encoded text reads back.
-/

namespace RsqlQuery.Text

namespace Percent

/-! ## Characters that stand for themselves -/

theorem keeps_upperHex {n : Nat} (h : n < 16) : keeps (upperHex n) = true :=
  (by decide : ∀ n < 16, keeps (upperHex n) = true) n h

theorem utf8EncodeChar_of_keeps {n : Nat} (h : n < 256) (kept : keeps (Char.ofNat n) = true) :
    String.utf8EncodeChar (Char.ofNat n) = [UInt8.ofNat n] :=
  (by decide +kernel : ∀ n < 256, keeps (Char.ofNat n) = true →
    String.utf8EncodeChar (Char.ofNat n) = [UInt8.ofNat n]) n h kept

theorem ne_percent_of_keeps {c : Char} (kept : keeps c = true) : c ≠ '%' := by
  rintro rfl
  exact absurd kept (by decide)

/-! ## Bytes of encoded text -/

theorem byteOf?_upperHex (b : UInt8) :
    byteOf? (upperHex (b.toNat / 16)) (upperHex (b.toNat % 16)) = some b := by
  have hb : b.toNat < 256 := b.toNat_lt
  have whole : b.toNat / 16 * 16 + b.toNat % 16 = b.toNat := by omega
  simp only [byteOf?, hexValue?_upperHex (show b.toNat / 16 < 16 by omega),
    hexValue?_upperHex (show b.toNat % 16 < 16 by omega), Option.bind_eq_bind, Option.bind_some,
    whole, UInt8.ofNat_toNat, Option.pure_def]

theorem bytes_cons_of_ne {c : Char} (h : c ≠ '%') (rest : List Char) :
    bytes (c :: rest) = String.utf8EncodeChar c ++ bytes rest := by
  rw [bytes.eq_def]
  split <;> simp_all

theorem bytes_encodeByte (b : UInt8) (rest : List Char) :
    bytes (encodeByte b ++ rest) = b :: bytes rest := by
  simp only [encodeByte]
  split_ifs with kept
  · rw [List.cons_append, List.nil_append, bytes_cons_of_ne (ne_percent_of_keeps kept),
      utf8EncodeChar_of_keeps b.toNat_lt kept, UInt8.ofNat_toNat, List.singleton_append]
  · rw [List.cons_append, List.cons_append, List.cons_append, List.nil_append, bytes,
      byteOf?_upperHex]

theorem bytes_encode (s rest : List Char) : bytes (encode s ++ rest) = utf8 s ++ bytes rest := by
  unfold encode
  induction utf8 s with
  | nil => rfl
  | cons b bs ih =>
    rw [List.flatMap_cons, List.append_assoc, bytes_encodeByte, ih, List.cons_append]

/-! ## Texts written in parts -/

/-- A text that is read as another one, whatever follows it. -/
def Reads (t s : List Char) : Prop := ∀ rest, bytes (t ++ rest) = utf8 s ++ bytes rest

theorem reads_nil : Reads [] [] := fun _ => rfl

theorem reads_encode (s : List Char) : Reads (encode s) s := bytes_encode s

theorem Reads.append {t s t' s' : List Char} (h : Reads t s) (h' : Reads t' s') :
    Reads (t ++ t') (s ++ s') := by
  intro rest
  rw [List.append_assoc, h, h', utf8_append, List.append_assoc]

theorem reads_of_not_mem {s : List Char} (h : '%' ∉ s) : Reads s s := by
  intro rest
  induction s with
  | nil => rfl
  | cons c s ih =>
    rw [List.mem_cons, not_or] at h
    rw [List.cons_append, bytes_cons_of_ne (Ne.symm h.1), ih h.2, utf8_cons, List.append_assoc]

theorem Reads.intercalate {α : Type} {sep sep' : List Char} (between : Reads sep sep')
    {f g : α → List Char} {items : List α} (h : ∀ x ∈ items, Reads (f x) (g x)) :
    Reads (sep.intercalate (items.map f)) (sep'.intercalate (items.map g)) := by
  induction items with
  | nil => exact reads_nil
  | cons x items ih =>
    have first := h x List.mem_cons_self
    have rest := ih fun y hy => h y (List.mem_cons_of_mem x hy)
    cases items with
    | nil => simpa using first
    | cons y items =>
      simp only [List.map_cons, List.intercalate_cons_cons] at rest ⊢
      exact (first.append between).append rest

theorem Reads.decode_eq {t s : List Char} (h : Reads t s) : decode t = s := by
  have whole := h []
  rw [List.append_nil, bytes, List.append_nil] at whole
  rw [decode, whole, ofUtf8_utf8]

@[simp] theorem decode_encode (s : List Char) : decode (encode s) = s := (reads_encode s).decode_eq

theorem decode_of_not_mem {s : List Char} (h : '%' ∉ s) : decode s = s :=
  (reads_of_not_mem h).decode_eq

/-! ## Characters of encoded text -/

theorem keeps_or_percent_of_mem_encodeByte {b : UInt8} {c : Char} (h : c ∈ encodeByte b) :
    keeps c = true ∨ c = '%' := by
  have hb : b.toNat < 256 := b.toNat_lt
  simp only [encodeByte] at h
  split_ifs at h with kept
  · rw [List.mem_singleton] at h
    exact .inl (h ▸ kept)
  · simp only [List.mem_cons, List.not_mem_nil, or_false] at h
    obtain rfl | rfl | rfl := h
    · exact .inr rfl
    · exact .inl (keeps_upperHex (by omega))
    · exact .inl (keeps_upperHex (by omega))

theorem keeps_or_percent_of_mem_encode {s : List Char} {c : Char} (h : c ∈ encode s) :
    keeps c = true ∨ c = '%' := by
  obtain ⟨b, -, hc⟩ := List.mem_flatMap.mp h
  exact keeps_or_percent_of_mem_encodeByte hc

/-- A character that does not stand for itself occurs in no encoded text, but for the percent
sign. -/
theorem not_mem_encode {c : Char} (special : keeps c = false) (h : c ≠ '%') (s : List Char) :
    c ∉ encode s := by
  intro hc
  obtain kept | rfl := keeps_or_percent_of_mem_encode hc
  · exact Bool.false_ne_true (special ▸ kept)
  · exact h rfl

end Percent

@[simp] theorem percentDecode_percentEncode (s : String) : percentDecode (percentEncode s) = s := by
  rw [percentDecode, toList_percentEncode, Percent.decode_encode, String.ofList_toList]

theorem percentEncode_injective : Function.Injective percentEncode :=
  Function.LeftInverse.injective percentDecode_percentEncode

theorem percentDecode_of_not_mem {s : String} (h : '%' ∉ s.toList) : percentDecode s = s := by
  rw [percentDecode, Percent.decode_of_not_mem h, String.ofList_toList]

end RsqlQuery.Text

import Mathlib.Tactic.SplitIfs
import RsqlQuery.Text.Utf8

/-!
# Reading UTF-8 back

The reader of bytes gives back every text that was written as UTF-8. The first byte of a character
tells how many follow and between which bounds the second one lies, and each byte that follows adds
six bits to the value under way.

## Main statements

* `ofUtf8From_encodeChar` — the bytes of a character are read as that character.
* `ofUtf8_utf8` — the bytes of a text are read as that text.
-/

namespace RsqlQuery.Text

/-! ## One byte -/

theorem startChar_one {b : UInt8} (h : b.toNat < 0x80) :
    startChar b = ([Char.ofNat b.toNat], none) := by
  have small : b < 0x80 := h
  rw [startChar, if_pos small]

theorem startChar_two {b : UInt8} {n : Nat} (hb : b.toNat = n + 0xC0) (low : 2 ≤ n)
    (high : n < 0x20) : startChar b = ([], some { value := n, missing := 1 }) := by
  have digit : b.toNat - 0xC0 = n := by omega
  simp only [startChar, UInt8.lt_iff_toNat_lt, UInt8.reduceToNat, digit]
  rw [if_neg (by omega), if_neg (by omega), if_pos (by omega)]

theorem startChar_three {b : UInt8} {n : Nat} (hb : b.toNat = n + 0xE0) (high : n < 0x10) :
    startChar b = ([], some {
      value := n
      missing := 2
      low := if n = 0 then 0xA0 else 0x80
      high := if n = 0xD then 0x9F else 0xBF }) := by
  simp only [startChar, UInt8.lt_iff_toNat_lt, UInt8.reduceToNat, ← UInt8.toNat_inj, hb]
  rw [if_neg (by omega), if_neg (by omega), if_neg (by omega), if_pos (by omega)]
  simp

theorem startChar_four {b : UInt8} {n : Nat} (hb : b.toNat = n + 0xF0) (high : n < 0x5) :
    startChar b = ([], some {
      value := n
      missing := 3
      low := if n = 0 then 0x90 else 0x80
      high := if n = 0x4 then 0x8F else 0xBF }) := by
  simp only [startChar, UInt8.lt_iff_toNat_lt, UInt8.reduceToNat, ← UInt8.toNat_inj, hb]
  rw [if_neg (by omega), if_neg (by omega), if_neg (by omega), if_neg (by omega),
    if_pos (by omega)]
  simp

/-- A byte inside the bounds adds its six bits; the last one missing ends the character. -/
theorem Partial.next_of_bounds (p : Partial) {b : UInt8} {n : Nat} (hb : b.toNat = n + 0x80)
    (low : p.low.toNat ≤ n + 0x80) (high : n + 0x80 ≤ p.high.toNat) :
    p.next b =
      if p.missing ≤ 1 then ([Char.ofNat (p.value * 64 + n)], none)
      else ([], some { value := p.value * 64 + n, missing := p.missing - 1 }) := by
  have within : p.low ≤ b ∧ b ≤ p.high := by
    rw [UInt8.le_iff_toNat_le, UInt8.le_iff_toNat_le, hb]
    exact ⟨low, high⟩
  have digit : b.toNat - 0x80 = n := by omega
  rw [Partial.next, if_pos within, digit]

/-- Past the second byte of a character there is no narrower bound than that of six bits. -/
theorem Partial.next_of_lt (value missing : Nat) {b : UInt8} {n : Nat} (hb : b.toNat = n + 0x80)
    (hn : n < 0x40) :
    ({ value, missing } : Partial).next b =
      if missing ≤ 1 then ([Char.ofNat (value * 64 + n)], none)
      else ([], some { value := value * 64 + n, missing := missing - 1 }) :=
  Partial.next_of_bounds _ hb (by simp) (by simp; omega)

/-! ## One character -/

theorem ofUtf8From_one {b : UInt8} (h : b.toNat < 0x80) (rest : List UInt8) :
    ofUtf8From none (b :: rest) = Char.ofNat b.toNat :: ofUtf8From none rest := by
  simp [ofUtf8From, startChar_one h]

theorem ofUtf8From_two {b₁ b₂ : UInt8} {n₁ n₂ : Nat} (h₁ : b₁.toNat = n₁ + 0xC0)
    (h₂ : b₂.toNat = n₂ + 0x80) (low : 2 ≤ n₁) (high : n₁ < 0x20) (six₂ : n₂ < 0x40)
    (rest : List UInt8) :
    ofUtf8From none (b₁ :: b₂ :: rest) = Char.ofNat (n₁ * 64 + n₂) :: ofUtf8From none rest := by
  simp [ofUtf8From, startChar_two h₁ low high, Partial.next_of_lt _ _ h₂ six₂]

theorem ofUtf8From_three {b₁ b₂ b₃ : UInt8} {n₁ n₂ n₃ : Nat} (h₁ : b₁.toNat = n₁ + 0xE0)
    (h₂ : b₂.toNat = n₂ + 0x80) (h₃ : b₃.toNat = n₃ + 0x80) (high : n₁ < 0x10) (six₂ : n₂ < 0x40)
    (six₃ : n₃ < 0x40) (long : n₁ = 0 → 0x20 ≤ n₂) (surrogate : n₁ = 0xD → n₂ < 0x20)
    (rest : List UInt8) :
    ofUtf8From none (b₁ :: b₂ :: b₃ :: rest) =
      Char.ofNat ((n₁ * 64 + n₂) * 64 + n₃) :: ofUtf8From none rest := by
  simp only [ofUtf8From, startChar_three h₁ high]
  have least : (if n₁ = 0 then 0xA0 else 0x80 : UInt8).toNat ≤ n₂ + 0x80 := by
    split_ifs with first
    · have := long first
      simp
      omega
    · simp
  have greatest : n₂ + 0x80 ≤ (if n₁ = 0xD then 0x9F else 0xBF : UInt8).toNat := by
    split_ifs with last
    · have := surrogate last
      simp
      omega
    · simp
      omega
  rw [Partial.next_of_bounds _ h₂ least greatest]
  simp [ofUtf8From, Partial.next_of_lt _ _ h₃ six₃]

theorem ofUtf8From_four {b₁ b₂ b₃ b₄ : UInt8} {n₁ n₂ n₃ n₄ : Nat} (h₁ : b₁.toNat = n₁ + 0xF0)
    (h₂ : b₂.toNat = n₂ + 0x80) (h₃ : b₃.toNat = n₃ + 0x80) (h₄ : b₄.toNat = n₄ + 0x80)
    (high : n₁ < 0x5) (six₂ : n₂ < 0x40) (six₃ : n₃ < 0x40) (six₄ : n₄ < 0x40)
    (long : n₁ = 0 → 0x10 ≤ n₂) (beyond : n₁ = 4 → n₂ < 0x10) (rest : List UInt8) :
    ofUtf8From none (b₁ :: b₂ :: b₃ :: b₄ :: rest) =
      Char.ofNat (((n₁ * 64 + n₂) * 64 + n₃) * 64 + n₄) :: ofUtf8From none rest := by
  simp only [ofUtf8From, startChar_four h₁ high]
  have least : (if n₁ = 0 then 0x90 else 0x80 : UInt8).toNat ≤ n₂ + 0x80 := by
    split_ifs with first
    · have := long first
      simp
      omega
    · simp
  have greatest : n₂ + 0x80 ≤ (if n₁ = 0x4 then 0x8F else 0xBF : UInt8).toNat := by
    split_ifs with last
    · have := beyond last
      simp
      omega
    · simp
      omega
  rw [Partial.next_of_bounds _ h₂ least greatest]
  simp [ofUtf8From, Partial.next_of_lt _ _ h₃ six₃, Partial.next_of_lt _ _ h₄ six₄]

theorem toNat_ofNat_of_lt {n : Nat} (h : n < 0x100) : (UInt8.ofNat n).toNat = n :=
  UInt8.toNat_ofNat_of_lt' h

/-- One case for each length. What the bounds of the second byte refuse, the surrogates and the
values beyond the last character, is no character. -/
theorem ofUtf8From_encodeChar (c : Char) (rest : List UInt8) :
    ofUtf8From none (String.utf8EncodeChar c ++ rest) = c :: ofUtf8From none rest := by
  have valid : c.val.toNat < 0xD800 ∨ 0xDFFF < c.val.toNat ∧ c.val.toNat < 0x110000 := c.valid
  have value : Char.ofNat c.val.toNat = c := Char.ofNat_toNat c
  simp only [String.utf8EncodeChar]
  generalize c.val.toNat = v at valid value
  split_ifs with one two three
  · have byte : (UInt8.ofNat v).toNat = v := toNat_ofNat_of_lt (by omega)
    rw [List.cons_append, List.nil_append, ofUtf8From_one (by omega), byte, value]
  · have whole : v / 64 % 0x20 * 64 + v % 0x40 = v := by omega
    rw [List.cons_append, List.cons_append, List.nil_append,
      ofUtf8From_two (toNat_ofNat_of_lt (by omega)) (toNat_ofNat_of_lt (by omega)) (by omega)
        (by omega) (by omega), whole, value]
  · have whole : (v / 4096 % 0x10 * 64 + v / 64 % 0x40) * 64 + v % 0x40 = v := by omega
    rw [List.cons_append, List.cons_append, List.cons_append, List.nil_append,
      ofUtf8From_three (toNat_ofNat_of_lt (by omega)) (toNat_ofNat_of_lt (by omega))
        (toNat_ofNat_of_lt (by omega)) (by omega) (by omega) (by omega) (by omega) (by omega),
      whole, value]
  · have whole : ((v / 262144 % 0x08 * 64 + v / 4096 % 0x40) * 64 + v / 64 % 0x40) * 64
        + v % 0x40 = v := by omega
    rw [List.cons_append, List.cons_append, List.cons_append, List.cons_append, List.nil_append,
      ofUtf8From_four (toNat_ofNat_of_lt (by omega)) (toNat_ofNat_of_lt (by omega))
        (toNat_ofNat_of_lt (by omega)) (toNat_ofNat_of_lt (by omega)) (by omega) (by omega)
        (by omega) (by omega) (by omega) (by omega), whole, value]

theorem ofUtf8_utf8 (s : List Char) : ofUtf8 (utf8 s) = s := by
  induction s with
  | nil => rfl
  | cons c s ih => rw [utf8_cons, ofUtf8, ofUtf8From_encodeChar, ← ofUtf8, ih]

end RsqlQuery.Text

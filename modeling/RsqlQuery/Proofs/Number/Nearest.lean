import Mathlib.Data.Rat.Cast.Order
import Mathlib.Tactic.FieldSimp
import RsqlQuery.Proofs.Number.Magnitude

/-!
# The nearest number of a format

Rounding takes a fraction to the number of a format nearest to it; of two equally near ones it takes
the one with an even significand. Infinity counts as the number that would follow the largest finite
one, so a fraction overflows where it is at least as near to that. There is exactly one such number,
it grows with the fraction, and it is the one that the rounding of the library computes.

## Main definitions

* `BinaryFormat.IsNearest` — magnitude bits are those of the number nearest to a fraction.

## Main statements

* `BinaryFormat.IsNearest.mono`, `BinaryFormat.IsNearest.unique` — rounding respects the order, and
  has one result.
* `BinaryFormat.isNearest_iff` — the fractions that round to a number fill an interval.
* `BinaryFormat.isNearest_roundBits` — the rounding of the library is to the nearest number.
-/

namespace RsqlQuery.Number

namespace BinaryFormat

variable (f : BinaryFormat)

/-- No number of a format is nearer to a fraction, and another one is as near only if the last bit
is even. -/
structure IsNearest (q : ℚ) (bits : Nat) : Prop where
  le_infinityBits : bits ≤ f.infinityBits
  near : ∀ c ≤ f.infinityBits, |f.value bits - q| ≤ |f.value c - q|
  even : ∀ c ≤ f.infinityBits, c ≠ bits → |f.value c - q| = |f.value bits - q| → bits % 2 = 0

variable {f} {q r : ℚ} {b c : Nat}

theorem value_lt_value : f.value b < f.value c ↔ b < c := f.value_strictMono.lt_iff_lt

theorem value_le_value : f.value b ≤ f.value c ↔ b ≤ c := f.value_strictMono.le_iff_le

/-! ## Rounding and order -/

/-- A fraction that is not nearer to the lower of two numbers is not below their middle. -/
theorem add_le_two_mul {x y : ℚ} (h : x < y) (near : |y - q| ≤ |x - q|) : x + y ≤ 2 * q := by
  rcases abs_cases (y - q) with ⟨hy, _⟩ | ⟨hy, _⟩ <;>
    rcases abs_cases (x - q) with ⟨hx, _⟩ | ⟨hx, _⟩ <;> linarith

theorem two_mul_le_add {x y : ℚ} (h : x < y) (near : |x - q| ≤ |y - q|) : 2 * q ≤ x + y := by
  rcases abs_cases (y - q) with ⟨hy, _⟩ | ⟨hy, _⟩ <;>
    rcases abs_cases (x - q) with ⟨hx, _⟩ | ⟨hx, _⟩ <;> linarith

theorem abs_sub_eq_of_middle {x y : ℚ} (middle : x + y = 2 * q) : |x - q| = |y - q| := by
  rw [abs_sub_comm, show q - x = y - q by linarith]

/-- Of two fractions in order the greater one does not round to less. -/
theorem IsNearest.mono (hb : f.IsNearest q b) (hc : f.IsNearest r c) (le : q ≤ r) : b ≤ c := by
  by_contra greater
  rw [not_le] at greater
  have order := (value_lt_value (f := f)).mpr greater
  have atLeast := add_le_two_mul order (hb.near c hc.le_infinityBits)
  have atMost := two_mul_le_add order (hc.near b hb.le_infinityBits)
  -- Both fractions are the middle between the two numbers, which are even then.
  obtain rfl : q = r := by linarith
  have tie : |f.value c - q| = |f.value b - q| := abs_sub_eq_of_middle (by linarith)
  have evenB := hb.even c hc.le_infinityBits greater.ne tie
  have evenC := hc.even b hb.le_infinityBits greater.ne' tie.symm
  -- So there is a number between them, and that one is nearer.
  have inside : c + 1 < b := by omega
  have above : f.value c < f.value (c + 1) := value_lt_value.mpr (by omega)
  have below : f.value (c + 1) < f.value b := value_lt_value.mpr inside
  have member : c + 1 ≤ f.infinityBits := inside.le.trans hb.le_infinityBits
  have := add_le_two_mul below (hb.near (c + 1) member)
  linarith

theorem IsNearest.unique (hb : f.IsNearest q b) (hc : f.IsNearest q c) : b = c :=
  le_antisymm (hb.mono hc le_rfl) (hc.mono hb le_rfl)

/-- A number is nearest to its own value. -/
theorem isNearest_value (h : b ≤ f.infinityBits) : f.IsNearest (f.value b) b where
  le_infinityBits := h
  near c _ := by simp
  even c _ other tie := by
    rw [sub_self, abs_zero, abs_eq_zero, sub_eq_zero] at tie
    exact absurd (f.value_strictMono.injective tie) other

/-! ## Fractions between neighbours -/

/-- The lower neighbour, if the fraction is not nearer to the upper one. -/
theorem isNearest_lower (h : b ≤ f.infinityBits) (low : f.value b ≤ q)
    (near : q - f.value b ≤ f.value (b + 1) - q)
    (even : q - f.value b = f.value (b + 1) - q → b % 2 = 0) : f.IsNearest q b := by
  have own : |f.value b - q| = q - f.value b := by
    rw [abs_of_nonpos (by linarith)]
    ring
  refine ⟨h, fun c _ => ?_, fun c _ other tie => ?_⟩
  · rw [own]
    obtain below | above : c ≤ b ∨ b + 1 ≤ c := by omega
    · have order := (value_le_value (f := f)).mpr below
      rw [abs_of_nonpos (by linarith)]
      linarith
    · have order := (value_le_value (f := f)).mpr above
      rw [abs_of_nonneg (by linarith)]
      linarith
  · rw [own] at tie
    obtain below | above : c < b ∨ b + 1 ≤ c := by omega
    · have order := (value_lt_value (f := f)).mpr below
      rw [abs_of_nonpos (by linarith)] at tie
      linarith
    · have order := (value_le_value (f := f)).mpr above
      rw [abs_of_nonneg (by linarith)] at tie
      exact even (by linarith)

/-- The upper neighbour, if the fraction is not nearer to the lower one. -/
theorem isNearest_upper (h : b + 1 ≤ f.infinityBits) (high : q ≤ f.value (b + 1))
    (near : f.value (b + 1) - q ≤ q - f.value b)
    (even : f.value (b + 1) - q = q - f.value b → (b + 1) % 2 = 0) : f.IsNearest q (b + 1) := by
  have own : |f.value (b + 1) - q| = f.value (b + 1) - q := abs_of_nonneg (by linarith)
  refine ⟨h, fun c _ => ?_, fun c _ other tie => ?_⟩
  · rw [own]
    obtain below | above : c ≤ b ∨ b + 1 ≤ c := by omega
    · have order := (value_le_value (f := f)).mpr below
      rw [abs_of_nonpos (by linarith)]
      linarith
    · have order := (value_le_value (f := f)).mpr above
      rw [abs_of_nonneg (by linarith)]
      linarith
  · rw [own] at tie
    obtain below | above : c ≤ b ∨ b + 1 < c := by omega
    · have order := (value_le_value (f := f)).mpr below
      rw [abs_of_nonpos (by linarith)] at tie
      exact even (by linarith)
    · have order := (value_lt_value (f := f)).mpr above
      rw [abs_of_nonneg (by linarith)] at tie
      linarith

/-- A fraction beyond the place of infinity overflows. -/
theorem isNearest_infinityBits (h : f.value f.infinityBits ≤ q) :
    f.IsNearest q f.infinityBits := by
  have distance : ∀ c ≤ f.infinityBits, |f.value c - q| = q - f.value c := by
    intro c hc
    have order := (value_le_value (f := f)).mpr hc
    rw [abs_of_nonpos (by linarith)]
    ring
  refine ⟨le_rfl, fun c hc => ?_, fun c hc other tie => ?_⟩
  · have order := (value_le_value (f := f)).mpr hc
    rw [distance _ le_rfl, distance c hc]
    linarith
  · have order := (value_lt_value (f := f)).mpr (lt_of_le_of_ne hc other)
    rw [distance _ le_rfl, distance c hc] at tie
    linarith

/-- The fractions that round to a finite number reach to the middles between it and its neighbours,
and include them if its last bit is even. -/
theorem isNearest_iff (h : b + 1 < f.infinityBits) :
    f.IsNearest q (b + 1) ↔
      (f.value b + f.value (b + 1) ≤ 2 * q ∧ 2 * q ≤ f.value (b + 1) + f.value (b + 2)) ∧
      ((b + 1) % 2 = 1 →
        f.value b + f.value (b + 1) < 2 * q ∧ 2 * q < f.value (b + 1) + f.value (b + 2)) := by
  have below : f.value b < f.value (b + 1) := value_lt_value.mpr (by omega)
  have above : f.value (b + 1) < f.value (b + 2) := value_lt_value.mpr (by omega)
  constructor
  · intro nearest
    have low := add_le_two_mul below (nearest.near b (by omega))
    have high := two_mul_le_add above (nearest.near (b + 2) (by omega))
    refine ⟨⟨low, high⟩, fun odd => ⟨lt_of_le_of_ne low ?_, lt_of_le_of_ne high ?_⟩⟩
    · intro middle
      have even := nearest.even b (by omega) (by omega) (abs_sub_eq_of_middle middle)
      omega
    · intro middle
      have even := nearest.even (b + 2) (by omega) (by omega)
        (abs_sub_eq_of_middle middle.symm).symm
      omega
  · rintro ⟨⟨low, high⟩, strict⟩
    rcases le_total (f.value (b + 1)) q with left | right
    · refine isNearest_lower h.le left (by linarith) fun tie => ?_
      by_contra odd
      have := (strict (by omega)).2
      linarith
    · refine isNearest_upper h.le right (by linarith) fun tie => ?_
      by_contra odd
      have := (strict (by omega)).1
      linarith

/-! ## The rounding of the library -/

/-- Where a rounded quotient lies, and which way it was rounded. -/
theorem roundDiv_cases (num den : Nat) :
    (roundDiv num den = num / den ∧ 2 * (num % den) ≤ den ∧
      (2 * (num % den) = den → num / den % 2 = 0)) ∨
    (roundDiv num den = num / den + 1 ∧ den ≤ 2 * (num % den) ∧
      (2 * (num % den) = den → (num / den + 1) % 2 = 0)) := by
  unfold roundDiv
  dsimp only
  split_ifs <;> omega

/-- The significand of a quotient at the shift at which it fills its width. -/
theorem isNormal_div (u : Nat) :
    f.IsNormal (u / 2 ^ (u.log2 - f.fractionBits)) (u.log2 - f.fractionBits) := by
  constructor
  · by_cases small : u.log2 ≤ f.fractionBits
    · exact .inl (Nat.sub_eq_zero_of_le small)
    · refine .inr ((Nat.le_div_iff_mul_le (Nat.two_pow_pos _)).mpr ?_)
      rw [← pow_add, show f.fractionBits + (u.log2 - f.fractionBits) = u.log2 by omega]
      refine Nat.log2_self_le ?_
      rintro rfl
      simp at small
  · rw [Nat.div_lt_iff_lt_mul (Nat.two_pow_pos _), ← pow_add]
    calc u < 2 ^ (u.log2 + 1) := Nat.lt_log2_self
      _ ≤ 2 ^ (f.fractionBits + 1 + (u.log2 - f.fractionBits)) :=
        Nat.pow_le_pow_right (by omega) (by omega)

theorem magnitude_mod_two (significand shift : Nat) :
    f.magnitude significand shift % 2 = significand % 2 := by
  obtain ⟨n, hn⟩ : 2 ∣ 2 ^ f.fractionBits := dvd_pow_self 2 f.fractionBits_pos.ne'
  rw [magnitude, hn, Nat.mul_left_comm]
  omega

/-- How far a fraction lies from its neighbours, if the lower one has the quotient as
significand. -/
theorem sub_neighbours {num den w rest shift : Nat} (hd : 0 < den) (normal : f.IsNormal w shift)
    (split : den * 2 ^ shift * w + rest = num * 2 ^ f.scale) :
    num / den - f.value (f.magnitude w shift) = rest / (den * 2 ^ f.scale : ℚ) ∧
      f.value (f.magnitude w shift + 1) - num / den =
        ((den * 2 ^ shift : Nat) - rest) / (den * 2 ^ f.scale : ℚ) := by
  have cast : (den * 2 ^ shift * w + rest : ℚ) = num * 2 ^ f.scale := by exact_mod_cast split
  have hdq : (0 : ℚ) < den := by exact_mod_cast hd
  rw [value, value, normal.units, normal.units_add_one]
  push_cast
  constructor <;> field_simp <;> linarith

/-- A fraction that lies `rest` parts above one number, where the next number lies `step` parts
above it, rounds to the one that is not farther away, and in the middle to the even one. -/
theorem isNearest_of_rest {rest step : Nat} {unit : ℚ} (unit_pos : 0 < unit) (inside : rest < step)
    (low : q - f.value b = rest / unit) (high : f.value (b + 1) - q = (step - rest) / unit)
    (fits : b < f.infinityBits) :
    (2 * rest ≤ step → (2 * rest = step → b % 2 = 0) → f.IsNearest q b) ∧
      (step ≤ 2 * rest → (2 * rest = step → (b + 1) % 2 = 0) → f.IsNearest q (b + 1)) := by
  have rest_le : (rest : ℚ) ≤ step := by exact_mod_cast inside.le
  have below : 0 ≤ q - f.value b := by
    rw [low]
    positivity
  have above : 0 ≤ f.value (b + 1) - q := by
    rw [high]
    exact div_nonneg (by linarith) unit_pos.le
  have middle : ∀ {x y : ℚ}, x / unit = y / unit → x = y := fun tie =>
    (div_left_inj' unit_pos.ne').mp tie
  constructor <;> intro near even
  · refine isNearest_lower fits.le (by linarith) ?_ fun tie => even ?_
    · rw [low, high]
      gcongr
      have : (2 * rest : ℚ) ≤ step := by exact_mod_cast near
      linarith
    · rw [low, high] at tie
      have : (2 * rest : ℚ) = step := by linarith [middle tie]
      exact_mod_cast this
  · refine isNearest_upper fits (by linarith) ?_ fun tie => even ?_
    · rw [low, high]
      gcongr
      have : (step : ℚ) ≤ 2 * rest := by exact_mod_cast near
      linarith
    · rw [low, high] at tie
      have : (2 * rest : ℚ) = step := by linarith [middle tie]
      exact_mod_cast this

variable (f) in
/-- The rounding of the library is to the nearest number. -/
theorem isNearest_roundBits (num : Nat) {den : Nat} (hd : 0 < den) :
    f.IsNearest (num / den) (f.roundBits num den) := by
  set shift := (num * 2 ^ f.scale / den).log2 - f.fractionBits with hshift
  set step := den * 2 ^ shift with hstep
  set w := num * 2 ^ f.scale / step with hw
  have positive : 0 < step := by positivity
  have normal : f.IsNormal w shift := by
    rw [hw, hstep, ← Nat.div_div_eq_div_mul]
    exact isNormal_div _
  have parity := magnitude_mod_two (f := f) w shift
  obtain ⟨low, high⟩ := sub_neighbours hd normal (Nat.div_add_mod (num * 2 ^ f.scale) step)
  have rounded : f.roundBits num den =
      min (shift * 2 ^ f.fractionBits + roundDiv (num * 2 ^ f.scale) step) f.infinityBits := rfl
  have unit : (0 : ℚ) < den * 2 ^ f.scale := by positivity
  obtain fits | past := Nat.lt_or_ge (f.magnitude w shift) f.infinityBits
  · have ⟨down, up⟩ := isNearest_of_rest unit (Nat.mod_lt _ positive) low high fits
    rw [rounded]
    obtain ⟨cut, near, even⟩ | ⟨cut, near, even⟩ := roundDiv_cases (num * 2 ^ f.scale) step
    · rw [cut, ← hw, ← magnitude, min_eq_left fits.le]
      exact down near fun tie => parity.trans (even tie)
    · rw [cut, ← hw, ← add_assoc, ← magnitude, min_eq_left fits]
      exact up near fun tie => by have := even tie; omega
  · have large : f.infinityBits ≤
        shift * 2 ^ f.fractionBits + roundDiv (num * 2 ^ f.scale) step := by
      unfold magnitude at past
      obtain ⟨cut, -, -⟩ | ⟨cut, -, -⟩ := roundDiv_cases (num * 2 ^ f.scale) step <;> omega
    rw [rounded, min_eq_right large]
    refine isNearest_infinityBits ((value_le_value.mpr past).trans ?_)
    have : 0 ≤ num / den - f.value (f.magnitude w shift) := by
      rw [low]
      positivity
    linarith

/-- Every fraction that is not negative has a nearest number. -/
theorem exists_isNearest (h : 0 ≤ q) : ∃ b, f.IsNearest q b := by
  have nearest := f.isNearest_roundBits q.num.toNat q.den_pos
  have same : ((q.num.toNat : Nat) : ℚ) / q.den = q := by
    have num : ((q.num.toNat : Nat) : ℚ) = (q.num : ℚ) := by
      exact_mod_cast Int.toNat_of_nonneg (Rat.num_nonneg.mpr h)
    rw [num, Rat.num_div_den]
  rw [same] at nearest
  exact ⟨_, nearest⟩

/-- What lies between two fractions that round to a number rounds to it as well. -/
theorem IsNearest.between (hq : f.IsNearest q b) (hr : f.IsNearest r b) {x : ℚ} (nonneg : 0 ≤ q)
    (low : q ≤ x) (high : x ≤ r) : f.IsNearest x b := by
  obtain ⟨c, hc⟩ := exists_isNearest (f := f) (nonneg.trans low)
  obtain rfl : c = b := le_antisymm (hc.mono hr high) (hq.mono hc low)
  exact hc

end BinaryFormat

end RsqlQuery.Number

import RsqlQuery.Number.Shortest
import RsqlQuery.Proofs.Number.Nearest

/-!
# The interval of a number

The search for a shortest decimal counts in one unit, a power of ten that is fine enough for the
number, the middles to its neighbours and every decimal of interest to be whole. The interval it
searches holds exactly what rounds to the number. It stops at the coarsest grid that meets the
interval, on the point of that grid nearest to the number.

## Main definitions

* `Span.Proper` — the interval lies around its value and away from zero.
* `Span.off` — how far a point lies from the value.
* `Span.IsNearestPoint` — a point of a grid in the interval is as near to the value as any other.

## Main statements

* `BinaryFormat.contains_span_iff` — the interval of a number holds what rounds to it.
* `BinaryFormat.IsNearest.bounds` — the ends of the interval as fractions.
* `Span.search_spec` — what the search finds.
-/

namespace RsqlQuery.Number

/-! ## Intervals -/

namespace Span

variable {s : Span} {m n p : Nat}

/-- The value lies inside its interval, and the interval away from zero and below the double of the
value. -/
structure Proper (s : Span) : Prop where
  low_pos : 0 < s.low
  low_lt : s.low < s.value
  lt_high : s.value < s.high
  high_le : s.high ≤ 2 * s.value

theorem contains_iff : s.contains n = true ↔
    (s.low ≤ n ∧ n ≤ s.high) ∧ (s.closed = false → s.low < n ∧ n < s.high) := by
  unfold contains
  cases s.closed
  · simp only [Bool.false_eq_true, if_false, Bool.and_eq_true, decide_eq_true_eq, true_implies]
    omega
  · simp

theorem Proper.contains_value (h : s.Proper) : s.contains s.value = true := by
  have low := h.low_lt
  have high := h.lt_high
  exact contains_iff.mpr ⟨⟨low.le, high.le⟩, fun _ => ⟨low, high⟩⟩

theorem contains_between (hm : s.contains m = true) (hn : s.contains n = true) (low : m ≤ p)
    (high : p ≤ n) : s.contains p = true := by
  rw [contains_iff] at hm hn ⊢
  grind

/-- How far a point lies from the value. -/
def off (s : Span) (n : Nat) : Nat := (n - s.value) + (s.value - n)

/-- A point of a grid that lies in the interval and as near to the value as any other, and above it
if another one is just as near. -/
structure IsNearestPoint (s : Span) (step point : Nat) : Prop where
  inside : s.contains (point * step) = true
  nearest : ∀ q, s.contains (q * step) = true → s.off (point * step) ≤ s.off (q * step)
  tie : ∀ q, s.contains (q * step) = true → s.off (q * step) = s.off (point * step) → q ≤ point

section Neighbours

variable {below step q : Nat} (h : s.Proper) (le : below * step ≤ s.value)
  (lt : s.value < (below + 1) * step)
include h le lt

/-- A point of a grid lies in the interval only if the neighbour of the value on its side does, and
that one is at least as near. -/
theorem side_of_contains (hq : s.contains (q * step) = true) :
    (q ≤ below ∧ s.contains (below * step) = true ∧ s.off (below * step) ≤ s.off (q * step)) ∨
    (below + 1 ≤ q ∧ s.contains ((below + 1) * step) = true ∧
      s.off ((below + 1) * step) ≤ s.off (q * step)) := by
  have inside := h.contains_value
  unfold off
  obtain left | right : q ≤ below ∨ below + 1 ≤ q := by omega
  · have order := Nat.mul_le_mul_right step left
    exact .inl ⟨left, contains_between hq inside order le, by omega⟩
  · have order := Nat.mul_le_mul_right step right
    exact .inr ⟨right, contains_between inside hq lt.le order, by omega⟩

theorem isNearestPoint_below (hl : s.contains (below * step) = true)
    (nearer : s.contains ((below + 1) * step) = true →
      s.off (below * step) < s.off ((below + 1) * step)) :
    s.IsNearestPoint step below := by
  refine ⟨hl, fun q hq => ?_, fun q hq same => ?_⟩
  · obtain ⟨-, -, near⟩ | ⟨-, hr, near⟩ := side_of_contains h le lt hq
    · exact near
    · exact (nearer hr).le.trans near
  · obtain ⟨left, -, -⟩ | ⟨-, hr, near⟩ := side_of_contains h le lt hq
    · exact left
    · have := nearer hr
      omega

theorem isNearestPoint_above (hr : s.contains ((below + 1) * step) = true)
    (nearer : s.contains (below * step) = true →
      s.off ((below + 1) * step) ≤ s.off (below * step)) :
    s.IsNearestPoint step (below + 1) := by
  refine ⟨hr, fun q hq => ?_, fun q hq same => ?_⟩
  · obtain ⟨-, hl, near⟩ | ⟨-, -, near⟩ := side_of_contains h le lt hq
    · exact (nearer hl).trans near
    · exact near
  · by_contra beyond
    have order : (below + 2) * step ≤ q * step := Nat.mul_le_mul_right step (by omega)
    have positive : 0 < step := by
      by_contra none
      simp [Nat.eq_zero_of_not_pos none] at lt
    unfold off at same
    rw [Nat.add_mul] at order lt same
    omega

end Neighbours

/-- The pick on a grid is its nearest point in the interval, if any lies in there. -/
theorem pick?_spec (h : s.Proper) {step : Nat} (positive : 0 < step) :
    match s.pick? step with
    | some point => s.IsNearestPoint step point
    | none => ∀ q, s.contains (q * step) = false := by
  have le : s.value / step * step ≤ s.value := Nat.div_mul_le_self _ _
  have lt : s.value < (s.value / step + 1) * step := by
    rw [Nat.mul_comm]
    exact Nat.lt_mul_div_succ _ positive
  unfold pick?
  dsimp only
  generalize s.value / step = below at le lt ⊢
  cases hl : s.contains (below * step) <;> cases hr : s.contains ((below + 1) * step)
  · intro q
    by_contra hq
    rcases side_of_contains h le lt (by simpa using hq) with ⟨-, held, -⟩ | ⟨-, held, -⟩ <;>
      simp_all
  · exact isNearestPoint_above h le lt hr (by simp [hl])
  · exact isNearestPoint_below h le lt hl (by simp [hr])
  · by_cases nearer : s.value - below * step < (below + 1) * step - s.value
    · rw [if_pos nearer]
      refine isNearestPoint_below h le lt hl fun _ => ?_
      unfold off
      omega
    · rw [if_neg nearer]
      refine isNearestPoint_above h le lt hr fun _ => ?_
      unfold off
      omega

/-- What the search finds: the nearest point of the coarsest grid that meets the interval. -/
theorem search_spec (h : s.Proper) (power : Nat) :
    let found := s.search power
    s.IsNearestPoint (10 ^ found.2) found.1 ∧ found.2 ≤ power ∧
      ∀ p ≤ power, found.2 < p → ∀ q, s.contains (q * 10 ^ p) = false := by
  induction power with
  | zero =>
    refine ⟨⟨?_, ?_, ?_⟩, le_rfl, by omega⟩
    · simpa [search] using h.contains_value
    · simp [search, off]
    · simp only [search, off]
      omega
  | succ power ih =>
    have grid := pick?_spec h (show 0 < 10 ^ (power + 1) by positivity)
    rw [search, tenPow_eq]
    cases found : s.pick? (10 ^ (power + 1)) with
    | some point =>
      rw [found] at grid
      refine ⟨grid, le_rfl, fun p hp lt => ?_⟩
      exact absurd lt (Nat.not_lt.mpr hp)
    | none =>
      rw [found] at grid
      obtain ⟨nearest, le, coarser⟩ := ih
      refine ⟨nearest, Nat.le_succ_of_le le, fun p hp lt q => ?_⟩
      obtain rfl | lower : p = power + 1 ∨ p ≤ power := by omega
      · exact grid q
      · exact coarser p lower lt q

end Span

/-! ## The interval of a number -/

namespace BinaryFormat

variable {f : BinaryFormat} {significand shift n : Nat}

variable (f) in
/-- How fine the unit of the search is, as a negative power of ten. -/
def precision : Nat := f.scale + 2

variable (f) in
/-- One smallest positive number, in a quarter of which the ends of intervals are counted. -/
theorem tenPow_precision : 10 ^ f.precision = 4 * (5 ^ f.precision * 2 ^ f.scale) := by
  rw [show (10 : Nat) = 5 * 2 by norm_num, mul_pow, precision, pow_add 2]
  ring

variable (f) in
/-- The unit in which the ends of the interval of a number are counted. -/
theorem span_eq (significand shift : Nat) :
    let unit := 5 ^ f.precision * 2 ^ shift
    let gap := if significand = 2 ^ f.fractionBits ∧ 0 < shift then 1 else 2
    f.span significand shift =
      ⟨(4 * significand - gap) * unit, 4 * significand * unit, (4 * significand + 2) * unit,
        significand % 2 == 0⟩ := rfl

variable (f shift) in
theorem span_proper (positive : 0 < significand) : (f.span significand shift).Proper := by
  have unit : 0 < 5 ^ f.precision * 2 ^ shift := by positivity
  rw [span_eq]
  refine ⟨?_, ?_, ?_, ?_⟩ <;> dsimp only
  · refine Nat.mul_pos ?_ unit
    split_ifs <;> omega
  · refine Nat.mul_lt_mul_of_pos_right ?_ unit
    split_ifs <;> omega
  · exact Nat.mul_lt_mul_of_pos_right (by omega) unit
  · rw [← Nat.mul_assoc 2]
    exact Nat.mul_le_mul_right _ (by omega)

/-- The lower neighbour of a number is nearer if the number starts a new shift. -/
theorem units_pred (h : f.IsNormal significand shift) (positive : 0 < significand) :
    ∃ b, b + 1 = f.magnitude significand shift ∧
      2 * (f.units b + significand * 2 ^ shift) =
        (4 * significand - if significand = 2 ^ f.fractionBits ∧ 0 < shift then 1 else 2) *
          2 ^ shift := by
  split_ifs with start
  · obtain ⟨rfl, shifted⟩ := start
    obtain ⟨k, rfl⟩ : ∃ k, shift = k + 1 := ⟨shift - 1, by omega⟩
    have width : 0 < 2 ^ f.fractionBits := Nat.two_pow_pos _
    refine ⟨f.magnitude (2 ^ (f.fractionBits + 1) - 1) k, ?_, ?_⟩
    · rw [magnitude, magnitude, pow_succ]
      zify [show 1 ≤ 2 ^ f.fractionBits * 2 by omega]
      ring
    · rw [units_magnitude (.inr (by rw [pow_succ]; omega)) (by omega), pow_succ, pow_succ]
      zify [show 1 ≤ 2 ^ f.fractionBits * 2 by omega, show 1 ≤ 4 * 2 ^ f.fractionBits by omega]
      ring
  · obtain ⟨m, rfl⟩ : ∃ m, significand = m + 1 := ⟨significand - 1, by omega⟩
    refine ⟨f.magnitude m shift, rfl, ?_⟩
    have full : shift = 0 ∨ 2 ^ f.fractionBits ≤ m := by
      have := h.full
      omega
    rw [units_magnitude full (by have := h.lt; omega), show 4 * (m + 1) - 2 = 4 * m + 2 by omega]
    ring

/-- The interval of a number holds the points whose fractions round to it. -/
theorem contains_span_iff (h : f.IsFinite significand shift) (positive : 0 < significand) :
    (f.span significand shift).contains n = true ↔
      f.IsNearest (n / 10 ^ f.precision) (f.magnitude significand shift) := by
  obtain ⟨b, succ, middle⟩ := units_pred h.toIsNormal positive
  have finite : b + 1 < f.infinityBits := succ ▸ h.finite
  have own : f.units (b + 1) = significand * 2 ^ shift := succ ▸ h.toIsNormal.units
  have next : f.units (b + 2) = (significand + 1) * 2 ^ shift := by
    rw [← h.toIsNormal.units_add_one, ← succ]
  -- Twice the fraction and the sums of neighbours, over one denominator.
  have fine : (0 : ℚ) < 2 * 5 ^ f.precision * 2 ^ f.scale := by positivity
  have twice : 2 * (n / 10 ^ f.precision : ℚ) = n / (2 * 5 ^ f.precision * 2 ^ f.scale) := by
    have unit : (10 : ℚ) ^ f.precision = 4 * (5 ^ f.precision * 2 ^ f.scale) := by
      exact_mod_cast f.tenPow_precision
    rw [unit]
    field_simp
    ring
  have sum : ∀ c d, f.value c + f.value d =
      (2 * (f.units c + f.units d) * 5 ^ f.precision : Nat) /
        (2 * 5 ^ f.precision * 2 ^ f.scale) := by
    intro c d
    unfold value
    push_cast
    field_simp
  rw [← succ, isNearest_iff finite, twice, sum, sum, div_le_div_iff_of_pos_right fine,
    div_le_div_iff_of_pos_right fine, div_lt_div_iff_of_pos_right fine,
    div_lt_div_iff_of_pos_right fine, own, next, middle]
  have low : (f.span significand shift).low =
      (4 * significand - if significand = 2 ^ f.fractionBits ∧ 0 < shift then 1 else 2) *
        2 ^ shift * 5 ^ f.precision := by
    rw [span_eq]
    ring
  have high : (f.span significand shift).high =
      2 * (significand * 2 ^ shift + (significand + 1) * 2 ^ shift) * 5 ^ f.precision := by
    rw [span_eq]
    ring
  have parity : (f.span significand shift).closed = false ↔ (b + 1) % 2 = 1 := by
    rw [span_eq, succ, magnitude_mod_two]
    simp
  rw [Span.contains_iff, low, high, parity]
  norm_cast

/-- The fractions that round to a number, between the ends of its interval. -/
theorem IsNearest.bounds (h : f.IsFinite significand shift) (positive : 0 < significand) {q : ℚ}
    (hq : f.IsNearest q (f.magnitude significand shift)) :
    (4 * significand - 2) * (2 ^ shift / 2 ^ f.scale) ≤ 4 * q ∧
      4 * q ≤ (4 * significand + 2) * (2 ^ shift / 2 ^ f.scale) := by
  obtain ⟨b, succ, middle⟩ := units_pred h.toIsNormal positive
  have own : f.units (b + 1) = significand * 2 ^ shift := succ ▸ h.toIsNormal.units
  have next : f.units (b + 2) = (significand + 1) * 2 ^ shift := by
    rw [← h.toIsNormal.units_add_one, ← succ]
  have finite : b + 1 < f.infinityBits := succ ▸ h.finite
  rw [← succ, isNearest_iff finite] at hq
  obtain ⟨⟨low, high⟩, -⟩ := hq
  have sum : ∀ c, f.value c + f.value (b + 1) =
      (f.units c + significand * 2 ^ shift : Nat) / 2 ^ f.scale := by
    intro c
    rw [value, value, own, ← add_div]
    push_cast
    rfl
  rw [sum] at low
  rw [add_comm, sum, next] at high
  have lower : (4 * significand - 2) * (2 ^ shift / 2 ^ f.scale) ≤
      2 * ((f.units b + significand * 2 ^ shift : Nat) / 2 ^ f.scale : ℚ) := by
    rw [← mul_div_assoc, ← mul_div_assoc]
    refine div_le_div_of_nonneg_right ?_ (by positivity)
    have gap : 4 * significand * 2 ^ shift ≤
        2 * (f.units b + significand * 2 ^ shift) + 2 * 2 ^ shift := by
      rw [middle, ← Nat.add_mul]
      refine Nat.mul_le_mul_right _ ?_
      split_ifs <;> omega
    have : (4 * significand * 2 ^ shift : ℚ) ≤
        2 * (f.units b + significand * 2 ^ shift : Nat) + 2 * 2 ^ shift := by
      exact_mod_cast gap
    linarith
  have upper : 2 * ((((significand + 1) * 2 ^ shift + significand * 2 ^ shift : Nat) : ℚ) /
      2 ^ f.scale) = (4 * significand + 2) * (2 ^ shift / 2 ^ f.scale) := by
    push_cast
    ring
  constructor <;> linarith

theorem value_span (h : f.IsFinite significand shift) : f.value (f.magnitude significand shift) =
    (f.span significand shift).value / 10 ^ f.precision := by
  have unit : (10 : ℚ) ^ f.precision = 4 * (5 ^ f.precision * 2 ^ f.scale) := by
    exact_mod_cast f.tenPow_precision
  rw [value, h.toIsNormal.units, span_eq, unit]
  push_cast
  field_simp

/-- The distance of a point from a number is that in the interval. -/
theorem abs_sub_value (h : f.IsFinite significand shift) (n : Nat) :
    |(n / 10 ^ f.precision : ℚ) - f.value (f.magnitude significand shift)| =
      (f.span significand shift).off n / 10 ^ f.precision := by
  rw [value_span h, ← sub_div, abs_div, abs_of_pos (by positivity : (0 : ℚ) < 10 ^ _)]
  congr 1
  unfold Span.off
  obtain le | le := le_total n (f.span significand shift).value
  · rw [Nat.sub_eq_zero_of_le le, Nat.zero_add, Nat.cast_sub le, abs_sub_comm, abs_of_nonneg]
    exact sub_nonneg.mpr (Nat.cast_le.mpr le)
  · rw [Nat.sub_eq_zero_of_le le, Nat.add_zero, Nat.cast_sub le, abs_of_nonneg]
    exact sub_nonneg.mpr (Nat.cast_le.mpr le)

end BinaryFormat

end RsqlQuery.Number

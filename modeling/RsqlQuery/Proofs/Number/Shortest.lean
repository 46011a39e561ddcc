import RsqlQuery.Proofs.Number.Decimal
import RsqlQuery.Proofs.Number.Interval

/-!
# Shortest decimals

Of all decimals that round to a number, the shortest ones have the fewest digits, and the one the
library takes is the nearest of those. The search finds it because a decimal with fewer digits, or
with as many but on another grid, would leave a power of ten between itself and the point found, and
that power lies on a coarser grid. Only around a few of the smallest numbers is that not a coarser
grid, and there it is checked that the power is the nearer of the two.

## Main definitions

* `BinaryFormat.IsShortest` — the nearest of the shortest decimals that round to a number.
* `BinaryFormat.ClosePowers` — what is checked around the smallest numbers.

## Main statements

* `BinaryFormat.isShortest_shortest` — the search finds such a decimal.
* `BinaryFormat.IsShortest.unique` — there is only one.
* `BinaryFormat.IsShortest.digits_le` — how many digits it has at most.
* `BinaryFormat.value_eq_of_isNearest` — few digits tell decimals apart.
-/

namespace RsqlQuery.Number

/-! ## Points with few digits -/

namespace Span

variable {s : Span}

/-- A grid that is coarser than the value is long has no point but zero as far as the interval. -/
theorem Proper.le_of_contains (h : s.Proper) {p q : Nat} (inside : s.contains (q * 10 ^ p) = true) :
    p ≤ decimalLength s.value := by
  by_contra coarse
  have bounds := (contains_iff.mp inside).1
  have low := h.low_pos
  have high := h.high_le
  have value := lt_tenPow_decimalLength s.value
  have step : 10 ^ (decimalLength s.value + 1) ≤ 10 ^ p :=
    Nat.pow_le_pow_right (by decide) (Nat.not_le.mp coarse)
  obtain ⟨n, rfl⟩ : ∃ n, q = n + 1 := Nat.exists_eq_succ_of_ne_zero (by rintro rfl; omega)
  rw [pow_succ] at step
  rw [Nat.add_mul] at bounds
  omega

/-- A grid that is finer than the interval is wide has a point in it. -/
theorem exists_contains {step : Nat} (positive : 0 < step) (fine : s.low + step < s.high) :
    ∃ q, s.contains (q * step) = true := by
  have past : s.low < (s.low / step + 1) * step := by
    rw [Nat.mul_comm]
    exact Nat.lt_mul_div_succ _ positive
  have within : (s.low / step + 1) * step ≤ s.low + step := by
    rw [Nat.add_mul, Nat.one_mul]
    exact Nat.add_le_add_right (Nat.div_mul_le_self _ _) _
  refine ⟨s.low / step + 1, contains_iff.mpr ⟨?_, fun _ => ?_⟩⟩ <;> omega

/-- If the grid on which the value has so many digits and one more is finer than the interval is
wide, then a point with so many digits and one more is in the interval. -/
theorem Proper.exists_contains_length_le (h : s.Proper) {digits : Nat}
    (fine : ∀ step, 10 ^ digits * step ≤ s.value → s.low + step < s.high) :
    ∃ q p, s.contains (q * 10 ^ p) = true ∧ decimalLength q ≤ digits + 1 := by
  obtain short | long := le_total (decimalLength s.value) (digits + 1)
  · exact ⟨s.value, 0, by simpa using h.contains_value, short⟩
  obtain ⟨p, length⟩ := Nat.exists_eq_add_of_le long
  have below : 10 ^ digits * 10 ^ p ≤ s.value := by
    have := tenPow_le_of_decimalLength (h.low_pos.trans h.low_lt)
    rwa [length, show digits + 1 + p - 1 = digits + p by omega, pow_add] at this
  have above : s.value < 10 ^ (digits + 1 + p) := length ▸ lt_tenPow_decimalLength s.value
  obtain ⟨q, inside⟩ := exists_contains (by positivity) (fine _ below)
  obtain few | many := Nat.lt_or_ge q (10 ^ (digits + 1))
  · exact ⟨q, p, inside, (decimalLength_le_iff (by omega)).mpr few⟩
  · -- Then the next power of ten lies between the value and the point.
    have next : 10 ^ (digits + 1 + p) ≤ q * 10 ^ p := by
      rw [pow_add]
      exact Nat.mul_le_mul_right _ many
    refine ⟨1, digits + 1 + p, ?_, by rw [decimalLength_one]; omega⟩
    rw [Nat.one_mul]
    exact contains_between h.contains_value inside above.le next

end Span

namespace BinaryFormat

variable {f : BinaryFormat} {significand shift bits : Nat} {d e : Decimal}

variable (f) in
/-- A decimal that rounds to a number, of those with the fewest digits, of those as near to the
number as any, and of those the greatest. -/
structure IsShortest (bits : Nat) (d : Decimal) : Prop where
  isNearest : f.IsNearest d.value bits
  length_le : ∀ e : Decimal, f.IsNearest e.value bits →
    decimalLength d.significand ≤ decimalLength e.significand
  near : ∀ e : Decimal, f.IsNearest e.value bits →
    decimalLength e.significand = decimalLength d.significand →
    |d.value - f.value bits| ≤ |e.value - f.value bits|
  tie : ∀ e : Decimal, f.IsNearest e.value bits →
    decimalLength e.significand = decimalLength d.significand →
    |e.value - f.value bits| = |d.value - f.value bits| → e.value ≤ d.value

theorem significand_pos (positive : 0 < bits) (h : f.IsNearest d.value bits) :
    0 < d.significand := by
  by_contra none
  obtain zero : d.significand = 0 := by omega
  have start : f.value 0 = 0 := by simp [value, units]
  rw [Decimal.value, zero, Nat.cast_zero, zero_mul, ← start] at h
  have := h.unique (isNearest_value (Nat.zero_le _))
  omega

/-- A number has only one shortest decimal. -/
theorem IsShortest.unique (positive : 0 < bits) (hd : f.IsShortest bits d)
    (he : f.IsShortest bits e) : d = e := by
  have length : decimalLength d.significand = decimalLength e.significand :=
    le_antisymm (hd.length_le e he.isNearest) (he.length_le d hd.isNearest)
  have off : |d.value - f.value bits| = |e.value - f.value bits| :=
    le_antisymm (hd.near e he.isNearest length.symm) (he.near d hd.isNearest length)
  have same : d.value = e.value :=
    le_antisymm (he.tie d hd.isNearest length off) (hd.tie e he.isNearest length.symm off.symm)
  exact Decimal.eq_of_value_eq (significand_pos positive hd.isNearest) same length

/-! ## The decimal found by the search -/

variable (f) in
/-- The fraction of a point of a grid of the search. -/
theorem value_grid (point power : Nat) :
    (⟨point, power - f.precision⟩ : Decimal).value =
      (point * 10 ^ power : Nat) / 10 ^ f.precision := by
  rw [Decimal.value, zpow_sub₀ (by norm_num), zpow_natCast, zpow_natCast]
  push_cast
  ring

variable (f) in
/-- Where one of the first nine numbers lies just below a power of ten that rounds to it, that power
is at most a nineteenth part above it. -/
structure ClosePowers : Prop where
  nine_lt : 9 < 2 ^ f.fractionBits
  close : ∀ m ≤ 9, ∀ p, 0 < m → 4 * m * 5 ^ f.precision < 10 ^ p →
    10 ^ p ≤ (4 * m + 2) * 5 ^ f.precision → 19 * 10 ^ p ≤ 20 * (4 * m * 5 ^ f.precision)

/-- Only one power of ten is to be looked at. -/
theorem closePowers_of {p : Nat} (nine_lt : 9 < 2 ^ f.fractionBits)
    (low : 10 ^ (p - 1) ≤ 4 * 5 ^ f.precision) (high : 38 * 5 ^ f.precision < 10 ^ (p + 1))
    (close : ∀ m ≤ 9, 0 < m → 4 * m * 5 ^ f.precision < 10 ^ p →
      10 ^ p ≤ (4 * m + 2) * 5 ^ f.precision → 19 * 10 ^ p ≤ 20 * (4 * m * 5 ^ f.precision)) :
    f.ClosePowers := by
  refine ⟨nine_lt, fun m hm q positive above inside => ?_⟩
  obtain less | rfl | more : q ≤ p - 1 ∨ q = p ∨ p + 1 ≤ q := by omega
  · have power : 10 ^ q ≤ 10 ^ (p - 1) := Nat.pow_le_pow_right (by decide) less
    have first : 4 * 1 * 5 ^ f.precision ≤ 4 * m * 5 ^ f.precision := by gcongr; omega
    omega
  · exact close m hm positive above inside
  · have power : 10 ^ (p + 1) ≤ 10 ^ q := Nat.pow_le_pow_right (by decide) more
    have last : (4 * m + 2) * 5 ^ f.precision ≤ 38 * 5 ^ f.precision := by gcongr; omega
    omega

theorem closePowers_binary64 : binary64.ClosePowers := by
  apply closePowers_of (p := 753) <;> decide +kernel

theorem closePowers_binary32 : binary32.ClosePowers := by
  apply closePowers_of (p := 107) <;> decide +kernel

section Search

variable (h : f.IsFinite significand shift) (positive : 0 < significand)
include h positive

variable (f shift) in
omit h in
/-- The point the search finds, on the coarsest of all grids that meet the interval. -/
theorem exists_shortest : ∃ point power : Nat,
    f.shortest significand shift = ⟨point, power - f.precision⟩ ∧
      (f.span significand shift).IsNearestPoint (10 ^ power) point ∧
      ∀ p q, (f.span significand shift).contains (q * 10 ^ p) = true → p ≤ power := by
  have proper := span_proper f shift positive
  set s := f.span significand shift
  obtain ⟨grid, -, coarser⟩ := Span.search_spec proper (decimalLength s.value)
  refine ⟨_, _, rfl, grid, fun p q inside => ?_⟩
  by_contra beyond
  have := coarser p (proper.le_of_contains inside) (Nat.not_le.mp beyond) q
  simp_all

/-- The interval of a number spans a tenth of its upper part only for the first nine numbers. -/
theorem significand_le_nine {q r : ℚ} (hq : f.IsNearest q (f.magnitude significand shift))
    (hr : f.IsNearest r (f.magnitude significand shift)) (gap : 10 * q ≤ 9 * r) :
    significand ≤ 9 := by
  have low := (hq.bounds h positive).1
  have high := (hr.bounds h positive).2
  have unit : (0 : ℚ) < 2 ^ shift / 2 ^ f.scale := by positivity
  have ends : 10 * (4 * significand - 2 : ℚ) ≤ 9 * (4 * significand + 2) := by
    refine le_of_mul_le_mul_right ?_ unit
    linarith
  have few : (significand : ℚ) < 10 := by linarith
  have : significand < 10 := by exact_mod_cast few
  omega

/-- Where the first nine numbers lie, a power of ten that rounds to a number from above is close. -/
theorem ClosePowers.le_of_lt (powers : f.ClosePowers) (few : significand ≤ 9) {power : Nat}
    (hp : f.IsNearest (10 ^ power / 10 ^ f.precision) (f.magnitude significand shift))
    (above : f.value (f.magnitude significand shift) < 10 ^ power / 10 ^ f.precision) :
    19 * (10 ^ power / 10 ^ f.precision) ≤ 20 * f.value (f.magnitude significand shift) := by
  obtain rfl : shift = 0 := by
    have := h.full
    have := powers.nine_lt
    omega
  have fine : (0 : ℚ) < 10 ^ f.precision := by positivity
  have own : f.value (f.magnitude significand 0) =
      (4 * significand * 5 ^ f.precision : Nat) / 10 ^ f.precision := by
    rw [value_span h, span_eq, pow_zero, mul_one]
  have point : (10 ^ power / 10 ^ f.precision : ℚ) = (10 ^ power : Nat) / 10 ^ f.precision := by
    push_cast
    rfl
  rw [own, point, div_lt_div_iff_of_pos_right fine, Nat.cast_lt] at above
  rw [point, ← contains_span_iff h positive] at hp
  have inside : 10 ^ power ≤ (4 * significand + 2) * 5 ^ f.precision := by
    simpa [span_eq] using (Span.contains_iff.mp hp).1.2
  have close := powers.close significand few power positive above inside
  rw [own, point, ← mul_div_assoc, ← mul_div_assoc, div_le_div_iff_of_pos_right fine]
  exact_mod_cast close

/-- A power of ten that rounds to a number is at least as near to it as a decimal that lies below
that power by a tenth of it or more. -/
theorem ClosePowers.abs_sub_le (powers : f.ClosePowers) {power : Nat} {q : ℚ}
    (hp : f.IsNearest (10 ^ power / 10 ^ f.precision) (f.magnitude significand shift))
    (hq : f.IsNearest q (f.magnitude significand shift))
    (gap : 10 * q ≤ 9 * (10 ^ power / 10 ^ f.precision)) :
    |10 ^ power / 10 ^ f.precision - f.value (f.magnitude significand shift)| ≤
      |q - f.value (f.magnitude significand shift)| := by
  have few := significand_le_nine h positive hq hp gap
  have close := powers.le_of_lt h positive few hp
  have positive : (0 : ℚ) < 10 ^ power / 10 ^ f.precision := by positivity
  generalize f.value (f.magnitude significand shift) = v at *
  generalize (10 ^ power / 10 ^ f.precision : ℚ) = top at *
  obtain below | above := le_or_gt top v
  · rw [abs_of_nonpos (by linarith), abs_of_nonpos (by linarith)]
    linarith
  · have := close above
    rw [abs_of_nonneg (by linarith), abs_of_nonpos (by linarith)]
    linarith

variable (f shift) in
omit h in
theorem magnitude_pos : 0 < f.magnitude significand shift := by
  rw [magnitude]
  omega

theorem isNearest_shortest : f.IsNearest (f.shortest significand shift).value
    (f.magnitude significand shift) := by
  obtain ⟨point, power, found, grid, -⟩ := exists_shortest f shift positive
  rw [found, value_grid]
  exact (contains_span_iff h positive).mp grid.inside

theorem significand_shortest_pos : 0 < (f.shortest significand shift).significand :=
  significand_pos (magnitude_pos f shift positive) (isNearest_shortest h positive)

/-- No decimal that rounds to a number lies on a coarser grid than the one that was found. -/
theorem exponent_le (he : f.IsNearest e.value (f.magnitude significand shift)) :
    e.exponent ≤ (f.shortest significand shift).exponent := by
  obtain ⟨point, power, found, -, coarsest⟩ := exists_shortest f shift positive
  rw [found]
  by_contra less
  dsimp only at less
  obtain ⟨p, hp⟩ : ∃ p : Nat, e.exponent = p - f.precision :=
    ⟨(e.exponent + f.precision).toNat, by omega⟩
  have value : e.value = (e.significand * 10 ^ p : Nat) / 10 ^ f.precision := by
    rw [← value_grid, ← hp]
  rw [value, ← contains_span_iff h positive] at he
  have := coarsest p _ he
  omega

/-- So no power of ten beyond that grid lies between the two. -/
theorem le_exponent (he : f.IsNearest e.value (f.magnitude significand shift)) {n : Int}
    (above : e.value ≤ 10 ^ n) (below : 10 ^ n ≤ (f.shortest significand shift).value) :
    f.IsNearest (10 ^ n) (f.magnitude significand shift) ∧
      n ≤ (f.shortest significand shift).exponent := by
  have nearest : f.IsNearest (10 ^ n) (f.magnitude significand shift) :=
    he.between (isNearest_shortest h positive) e.value_nonneg above below
  rw [← Decimal.value_tenPow] at nearest
  exact ⟨Decimal.value_tenPow n ▸ nearest, exponent_le h positive nearest⟩

theorem length_shortest_le (he : f.IsNearest e.value (f.magnitude significand shift)) :
    decimalLength (f.shortest significand shift).significand ≤ decimalLength e.significand := by
  by_contra less
  have finer := exponent_le h positive he
  have order : e.value ≤ 10 ^ ((f.shortest significand shift).point - 1) := by
    refine e.value_lt.le.trans (zpow_le_zpow_right₀ (by norm_num) ?_)
    unfold Decimal.point
    omega
  have below := Decimal.le_value (significand_shortest_pos h positive)
  have coarse := (le_exponent h positive he order below).2
  have := decimalLength_pos e.significand
  unfold Decimal.point at coarse
  omega

/-- On the grid of the decimal that was found there is none nearer. -/
theorem near_of_exponent_eq (he : f.IsNearest e.value (f.magnitude significand shift))
    (same : e.exponent = (f.shortest significand shift).exponent) :
    |(f.shortest significand shift).value - f.value (f.magnitude significand shift)| ≤
      |e.value - f.value (f.magnitude significand shift)| ∧
    (|e.value - f.value (f.magnitude significand shift)| =
      |(f.shortest significand shift).value - f.value (f.magnitude significand shift)| →
        e.value ≤ (f.shortest significand shift).value) := by
  obtain ⟨point, power, found, grid, -⟩ := exists_shortest f shift positive
  have fine : (0 : ℚ) < 10 ^ f.precision := by positivity
  have value : e.value = (e.significand * 10 ^ power : Nat) / 10 ^ f.precision := by
    rw [found] at same
    rw [← value_grid, Decimal.value, same]
    rfl
  rw [value, ← contains_span_iff h positive] at he
  rw [found, value, value_grid, abs_sub_value h, abs_sub_value h,
    div_le_div_iff_of_pos_right fine, div_le_div_iff_of_pos_right fine, div_left_inj' fine.ne']
  refine ⟨Nat.cast_le.mpr (grid.nearest _ he), fun tie => Nat.cast_le.mpr ?_⟩
  exact Nat.mul_le_mul_right _ (grid.tie _ he (Nat.cast_injective tie))

/-- A decimal of the same length on a finer grid has one digit, and lies below the power of ten that
is the grid. -/
theorem near_of_exponent_lt (powers : f.ClosePowers)
    (he : f.IsNearest e.value (f.magnitude significand shift))
    (length : decimalLength e.significand =
      decimalLength (f.shortest significand shift).significand)
    (finer : e.exponent < (f.shortest significand shift).exponent) :
    |(f.shortest significand shift).value - f.value (f.magnitude significand shift)| ≤
      |e.value - f.value (f.magnitude significand shift)| ∧
    e.value ≤ (f.shortest significand shift).value := by
  have order : e.value ≤ 10 ^ ((f.shortest significand shift).point - 1) := by
    refine e.value_lt.le.trans (zpow_le_zpow_right₀ (by norm_num) ?_)
    unfold Decimal.point
    omega
  have below := Decimal.le_value (significand_shortest_pos h positive)
  obtain ⟨nearest, coarse⟩ := le_exponent h positive he order below
  have one : decimalLength (f.shortest significand shift).significand = 1 := by
    have := decimalLength_pos (f.shortest significand shift).significand
    unfold Decimal.point at coarse
    omega
  have step : (f.shortest significand shift).point - 1 =
      (f.shortest significand shift).exponent := by
    rw [Decimal.point, one]
    omega
  rw [step] at order below nearest
  refine ⟨?_, order.trans below⟩
  refine le_trans (b := |10 ^ (f.shortest significand shift).exponent -
    f.value (f.magnitude significand shift)|) ?_ ?_
  · rw [← Decimal.value_tenPow] at nearest ⊢
    exact (near_of_exponent_eq h positive nearest rfl).1
  · obtain ⟨point, power, found, -, -⟩ := exists_shortest f shift positive
    have grid : (10 : ℚ) ^ (f.shortest significand shift).exponent =
        10 ^ power / 10 ^ f.precision := by
      rw [found, zpow_sub₀ (by norm_num), zpow_natCast, zpow_natCast]
    have digit : (e.significand : ℚ) ≤ 9 := by
      have := lt_tenPow_decimalLength e.significand
      rw [length, one] at this
      exact_mod_cast Nat.le_of_lt_succ this
    have tenth : 10 * (10 : ℚ) ^ e.exponent ≤ 10 ^ (f.shortest significand shift).exponent := by
      rw [← zpow_one_add₀ (by norm_num)]
      exact zpow_le_zpow_right₀ (by norm_num) (by omega)
    rw [grid] at nearest tenth ⊢
    refine powers.abs_sub_le h positive nearest he ?_
    calc 10 * e.value = e.significand * (10 * 10 ^ e.exponent) := by
          rw [Decimal.value]
          ring
      _ ≤ 9 * (10 ^ power / 10 ^ f.precision) := by gcongr

/-- Of the decimals with as many digits none is nearer than the one that was found. -/
theorem near_shortest (powers : f.ClosePowers)
    (he : f.IsNearest e.value (f.magnitude significand shift))
    (length : decimalLength e.significand =
      decimalLength (f.shortest significand shift).significand) :
    |(f.shortest significand shift).value - f.value (f.magnitude significand shift)| ≤
      |e.value - f.value (f.magnitude significand shift)| ∧
    (|e.value - f.value (f.magnitude significand shift)| =
      |(f.shortest significand shift).value - f.value (f.magnitude significand shift)| →
        e.value ≤ (f.shortest significand shift).value) := by
  obtain finer | same := lt_or_eq_of_le (exponent_le h positive he)
  · obtain ⟨near, le⟩ := near_of_exponent_lt h positive powers he length finer
    exact ⟨near, fun _ => le⟩
  · exact near_of_exponent_eq h positive he same

/-- The search finds a shortest decimal. -/
theorem isShortest_shortest (powers : f.ClosePowers) :
    f.IsShortest (f.magnitude significand shift) (f.shortest significand shift) where
  isNearest := isNearest_shortest h positive
  length_le _ he := length_shortest_le h positive he
  near _ he length := (near_shortest h positive powers he length).1
  tie _ he length := (near_shortest h positive powers he length).2

/-! ## How many digits it takes -/

/-- The interval of a number is wider than the number divided by the bound of significands. -/
theorem span_wide {step : Nat}
    (le : 2 ^ (f.fractionBits + 1) * step ≤ (f.span significand shift).value) :
    (f.span significand shift).low + step < (f.span significand shift).high := by
  rw [span_eq] at le ⊢
  dsimp only at le ⊢
  have unit_pos : 0 < 5 ^ f.precision * 2 ^ shift := by positivity
  generalize 5 ^ f.precision * 2 ^ shift = unit at *
  split_ifs with start
  · have : 2 * step ≤ 4 * unit := by
      refine Nat.le_of_mul_le_mul_left ?_ positive
      rw [pow_succ, ← start.1] at le
      linarith
    zify [show 1 ≤ 4 * significand by omega]
    linarith
  · have : step < 4 * unit := by
      refine Nat.lt_of_mul_lt_mul_left (a := 2 ^ (f.fractionBits + 1)) (le.trans_lt ?_)
      rw [Nat.mul_comm 4, Nat.mul_assoc]
      exact Nat.mul_lt_mul_of_pos_right h.lt (by omega)
    zify [show 2 ≤ 4 * significand by omega]
    linarith

/-- If all significands fit so many digits, with one digit more there is a decimal that rounds to
each number. -/
theorem exists_isNearest_length_le {digits : Nat} (fit : 2 ^ (f.fractionBits + 1) ≤ 10 ^ digits) :
    ∃ e : Decimal, f.IsNearest e.value (f.magnitude significand shift) ∧
      decimalLength e.significand ≤ digits + 1 := by
  have fine : ∀ step, 10 ^ digits * step ≤ (f.span significand shift).value →
      (f.span significand shift).low + step < (f.span significand shift).high := fun step le =>
    span_wide h positive ((Nat.mul_le_mul_right step fit).trans le)
  obtain ⟨q, p, inside, length⟩ := (span_proper f shift positive).exists_contains_length_le fine
  refine ⟨⟨q, p - f.precision⟩, ?_, length⟩
  rw [value_grid]
  exact (contains_span_iff h positive).mp inside

end Search

theorem IsShortest.digits_le (hd : f.IsShortest (f.magnitude significand shift) d)
    (h : f.IsFinite significand shift) (positive : 0 < significand) (digits : Nat)
    (fit : 2 ^ (f.fractionBits + 1) ≤ 10 ^ digits) :
    decimalLength d.significand ≤ digits + 1 := by
  obtain ⟨e, he, length⟩ := exists_isNearest_length_le h positive fit
  exact (hd.length_le e he).trans length

/-- Two decimals with few digits round to the same number only if they are equal, as long as its
significand fills its width. -/
theorem value_eq_of_isNearest (h : f.IsFinite significand shift)
    (full : 2 ^ f.fractionBits ≤ significand) (digits : Nat)
    (fit : 10 ^ digits < 2 ^ f.fractionBits)
    (hd : f.IsNearest d.value (f.magnitude significand shift))
    (he : f.IsNearest e.value (f.magnitude significand shift))
    (lengthD : decimalLength d.significand ≤ digits)
    (lengthE : decimalLength e.significand ≤ digits) : d.value = e.value := by
  wlog lt : d.value < e.value generalizing d e
  · obtain same | gt := (not_lt.mp lt).eq_or_lt
    · exact same.symm
    · exact (this he hd lengthE lengthD gt).symm
  have positive : 0 < significand := lt_of_lt_of_le (Nat.two_pow_pos _) full
  have low := (hd.bounds h positive).1
  have high := (he.bounds h positive).2
  have apart := Decimal.value_lt_mul_sub lt lengthD lengthE
  have unit_pos : (0 : ℚ) < 2 ^ shift / 2 ^ f.scale := by positivity
  have width : (10 ^ digits + 1 : ℚ) ≤ significand := by exact_mod_cast fit.trans_le full
  generalize (2 ^ shift / 2 ^ f.scale : ℚ) = unit at *
  have power : (0 : ℚ) < 10 ^ digits := by positivity
  have spread : 10 ^ digits * (4 * (e.value - d.value)) ≤ 10 ^ digits * (4 * unit) := by
    gcongr
    linarith
  have : (4 * (10 ^ digits + 1) - 2) * unit ≤ (4 * significand - 2) * unit := by gcongr
  linarith

end BinaryFormat

end RsqlQuery.Number

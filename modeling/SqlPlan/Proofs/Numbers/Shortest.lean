import Mathlib.Tactic.FieldSimp
import Mathlib.Tactic.Linarith
import SqlPlan.Number.Shortest
import SqlPlan.Proofs.Numbers.Magnitude

/-!
# The shortest decimal rounds to its number

The search for the shortest decimal always ends on a grid that has a point of
the rounding range, and on none finer than a grid that the number itself lies
on.  So the decimal has no fraction exactly when the number is whole, and it
stands on the same side of the widest whole part that is written out.
-/

namespace SqlPlan

/-- `30103 / 100000` is close to the logarithm of two to the base ten: rounded down to whole
powers, it is nowhere more than four powers of two too large. -/
theorem ten_zpow_le {power : ℤ} (least : -1100 ≤ power) (greatest : power ≤ 1100) :
    (10 : ℚ) ^ (power * 30103 / 100000) ≤ 2 ^ (power + 4) := by
  generalize floor : power * 30103 / 100000 = exponent
  -- `10 ^ 3` is just below `2 ^ 10`, and `10 ^ 28` just above `2 ^ 93`.
  rcases le_total 0 exponent with nonneg | nonpos
  · have cubes : ((10 : ℚ) ^ exponent) ^ (3 : ℤ) ≤ (2 ^ (power + 4)) ^ (3 : ℤ) :=
      calc ((10 : ℚ) ^ exponent) ^ (3 : ℤ) = (10 ^ (3 : ℤ)) ^ exponent := zpow_comm _ _ _
        _ ≤ (2 ^ (10 : ℤ)) ^ exponent :=
            zpow_le_zpow_left₀ nonneg (by positivity) (by norm_num)
        _ = 2 ^ (10 * exponent) := (zpow_mul _ _ _).symm
        _ ≤ 2 ^ ((power + 4) * 3) := zpow_le_zpow_right₀ (by norm_num) (by omega)
        _ = (2 ^ (power + 4)) ^ (3 : ℤ) := zpow_mul _ _ _
    exact (zpow_le_zpow_iff_left₀ (by positivity) (by positivity) (by norm_num)).mp cubes
  · have powers : ((10 : ℚ) ^ exponent) ^ (28 : ℤ) ≤ (2 ^ (power + 4)) ^ (28 : ℤ) :=
      calc ((10 : ℚ) ^ exponent) ^ (28 : ℤ) = (10 ^ (28 : ℤ)) ^ exponent := zpow_comm _ _ _
        _ = ((10 ^ (28 : ℤ)) ^ (-exponent))⁻¹ := by rw [zpow_neg, inv_inv]
        _ ≤ ((2 ^ (93 : ℤ)) ^ (-exponent))⁻¹ := by
            apply inv_anti₀ (by positivity)
            exact zpow_le_zpow_left₀ (by omega) (by positivity) (by norm_num)
        _ = 2 ^ (93 * exponent) := by rw [zpow_neg, inv_inv, zpow_mul]
        _ ≤ 2 ^ ((power + 4) * 28) := zpow_le_zpow_right₀ (by norm_num) (by omega)
        _ = (2 ^ (power + 4)) ^ (28 : ℤ) := zpow_mul _ _ _
    exact (zpow_le_zpow_iff_left₀ (by positivity) (by positivity) (by norm_num)).mp powers

/-- The number that a decimal stands for. -/
def Decimal.value (decimal : Decimal) : ℚ := decimal.digits * 10 ^ decimal.exponent

namespace Number

namespace Rounding

variable {range : Rounding} {decimal : Decimal} {exponent : ℤ}

def lowest (range : Rounding) : ℚ := range.low / range.denominator

def middle (range : Rounding) : ℚ := range.value / range.denominator

def highest (range : Rounding) : ℚ := range.high / range.denominator

section Comparing

variable (positive : 0 < range.denominator)

include positive

/-- The comparisons on a grid are those of the fractions, all multiplied by one factor. -/
theorem exists_factor (exponent : ℤ) :
    ∃ factor : ℚ, 0 < factor ∧
      (∀ digits : ℕ, ((digits * (range.denominator * Nat.pow 10 exponent.toNat) : ℕ) : ℚ) =
        digits * 10 ^ exponent * factor) ∧
      ∀ bound : ℕ, ((bound * Nat.pow 10 (-exponent).toNat : ℕ) : ℚ) =
        bound / range.denominator * factor := by
  have denominator : (0 : ℚ) < range.denominator := by exact_mod_cast positive
  refine ⟨range.denominator * 10 ^ (-exponent).toNat, by positivity, ?_, ?_⟩
  · intro digits
    rw [zpow_eq_div, Nat.pow_eq]
    push_cast
    field_simp
  · intro bound
    rw [Nat.pow_eq]
    push_cast
    field_simp

theorem le_point_iff (decimal : Decimal) (bound : ℕ) :
    bound * Nat.pow 10 (-decimal.exponent).toNat ≤
        decimal.digits * (range.denominator * Nat.pow 10 decimal.exponent.toNat) ↔
      (bound / range.denominator : ℚ) ≤ decimal.value := by
  obtain ⟨factor, factorPositive, points, bounds⟩ := exists_factor positive decimal.exponent
  rw [← @Nat.cast_le ℚ, points, bounds, mul_le_mul_iff_left₀ factorPositive, Decimal.value]

theorem point_le_iff (decimal : Decimal) (bound : ℕ) :
    decimal.digits * (range.denominator * Nat.pow 10 decimal.exponent.toNat) ≤
        bound * Nat.pow 10 (-decimal.exponent).toNat ↔
      decimal.value ≤ (bound / range.denominator : ℚ) := by
  obtain ⟨factor, factorPositive, points, bounds⟩ := exists_factor positive decimal.exponent
  rw [← @Nat.cast_le ℚ, points, bounds, mul_le_mul_iff_left₀ factorPositive, Decimal.value]

theorem bounds_of_contains (contains : range.contains decimal = true) :
    range.lowest ≤ decimal.value ∧ decimal.value ≤ range.highest := by
  unfold Rounding.contains at contains
  split at contains
  · simp only [Bool.and_eq_true, decide_eq_true_eq] at contains
    exact ⟨(le_point_iff positive decimal range.low).mp contains.1,
      (point_le_iff positive decimal range.high).mp contains.2⟩
  · simp only [Bool.and_eq_true, decide_eq_true_eq] at contains
    exact ⟨(le_point_iff positive decimal range.low).mp contains.1.le,
      (point_le_iff positive decimal range.high).mp contains.2.le⟩

theorem contains_of_between (above : range.lowest < decimal.value)
    (below : decimal.value < range.highest) : range.contains decimal = true := by
  have abovePoint := not_le.mp (mt (point_le_iff positive decimal range.low).mp above.not_ge)
  have belowPoint := not_le.mp (mt (le_point_iff positive decimal range.high).mp below.not_ge)
  unfold Rounding.contains
  split
  · simp only [Bool.and_eq_true, decide_eq_true_eq]
    exact ⟨abovePoint.le, belowPoint.le⟩
  · simp only [Bool.and_eq_true, decide_eq_true_eq]
    exact ⟨abovePoint, belowPoint⟩

end Comparing

/-! ## Grids -/

theorem onGrid?_eq_some (found : range.onGrid? exponent = some decimal) :
    decimal.exponent = exponent ∧ range.contains decimal = true := by
  unfold onGrid? at found
  dsimp only at found
  split at found
  case h_1 below above =>
    cases found
    split_ifs
    · exact ⟨rfl, below⟩
    · exact ⟨rfl, above⟩
    · exact ⟨rfl, below⟩
    · exact ⟨rfl, above⟩
  case h_2 below above =>
    cases found
    exact ⟨rfl, below⟩
  case h_3 below above =>
    cases found
    exact ⟨rfl, above⟩
  case h_4 => cases found

/-- The last point of a grid that is not above the number. -/
def floorOn (range : Rounding) (exponent : ℤ) : ℕ :=
  range.value * Nat.pow 10 (-exponent).toNat / (range.denominator * Nat.pow 10 exponent.toNat)

theorem isSome_onGrid? (contains : range.contains ⟨range.floorOn exponent, exponent⟩ = true ∨
      range.contains ⟨range.floorOn exponent + 1, exponent⟩ = true) :
    (range.onGrid? exponent).isSome = true := by
  unfold floorOn at contains
  unfold onGrid?
  dsimp only
  split
  case h_4 below above =>
    rw [below, above] at contains
    simp at contains
  all_goals rfl

section Searching

variable (positive : 0 < range.denominator) (below : range.lowest < range.middle)
  (above : range.middle < range.highest)

include positive

theorem floorOn_le (exponent : ℤ) : range.floorOn exponent * (10 : ℚ) ^ exponent ≤ range.middle :=
  (point_le_iff positive ⟨range.floorOn exponent, exponent⟩ range.value).mp
    (Nat.div_mul_le_self _ _)

theorem lt_floorOn (exponent : ℤ) :
    range.middle < (range.floorOn exponent + 1) * (10 : ℚ) ^ exponent := by
  have step : 0 < range.denominator * Nat.pow 10 exponent.toNat :=
    Nat.mul_pos positive (Nat.pow_pos (by decide))
  have next : range.value * Nat.pow 10 (-exponent).toNat <
      (range.floorOn exponent + 1) * (range.denominator * Nat.pow 10 exponent.toNat) := by
    rw [Nat.add_mul, Nat.one_mul]
    exact Nat.lt_div_mul_add step
  have beyond := not_le.mp
    (mt (point_le_iff positive ⟨range.floorOn exponent + 1, exponent⟩ range.value).mpr next.not_ge)
  rw [Decimal.value, Nat.cast_succ] at beyond
  exact beyond

include below above

/-- A grid that the number lies on has a point of the range: the number. -/
theorem isSome_onGrid?_of_eq {count : ℕ} (onGrid : range.middle = count * 10 ^ exponent) :
    (range.onGrid? exponent).isSome = true := by
  have step : (0 : ℚ) < 10 ^ exponent := by positivity
  have floor : range.floorOn exponent = count := by
    have atMost := floorOn_le positive exponent
    have beyond := lt_floorOn positive exponent
    rw [onGrid] at atMost beyond
    have atMost' := le_of_mul_le_mul_right atMost step
    have beyond' := lt_of_mul_lt_mul_right beyond step.le
    norm_cast at atMost' beyond'
    omega
  apply isSome_onGrid?
  left
  rw [floor]
  apply contains_of_between positive
  · rwa [Decimal.value, ← onGrid]
  · rwa [Decimal.value, ← onGrid]

omit above in
/-- So has one that is finer than the upper half of the range: the next point above the number. -/
theorem isSome_onGrid?_of_lt (fine : (10 : ℚ) ^ exponent < range.highest - range.middle) :
    (range.onGrid? exponent).isSome = true := by
  have atMost := floorOn_le positive exponent
  have beyond := lt_floorOn positive exponent
  have next : Decimal.value ⟨range.floorOn exponent + 1, exponent⟩ =
      (range.floorOn exponent + 1) * 10 ^ exponent := by
    rw [Decimal.value, Nat.cast_succ]
  apply isSome_onGrid?
  right
  apply contains_of_between positive
  · rw [next]
    exact below.trans beyond
  · rw [next]
    linarith

end Searching

/-- The search ends on the first grid that has a point of the range. -/
theorem search_of_isSome {index grids : ℕ} (within : index < grids)
    (found : (range.onGrid? (exponent - index)).isSome = true) :
    exponent - index ≤ (range.search grids exponent).exponent ∧
      range.contains (range.search grids exponent) = true := by
  induction grids generalizing index exponent with
  | zero => omega
  | succ grids induction =>
      unfold search
      split
      case h_1 decimal here =>
        obtain ⟨rfl, contains⟩ := onGrid?_eq_some here
        exact ⟨by omega, contains⟩
      case h_2 here =>
        cases index with
        | zero =>
            rw [Nat.cast_zero, sub_zero, here] at found
            cases found
        | succ index =>
            have shifted : exponent - (index + 1 : ℕ) = exponent - 1 - index := by omega
            rw [shifted] at found ⊢
            exact induction (by omega) found

end Rounding

variable {exponent : Fin 2047} {fraction : Fin (Nat.pow 2 52)}

/-! ## The range of a number -/

theorem significand_lt : significand exponent fraction < 2 ^ 53 := by
  have bounded : fraction.val < 2 ^ 52 := fraction.isLt
  unfold significand
  split
  · omega
  · calc Nat.pow 2 52 + fraction.val < 2 ^ 52 + 2 ^ 52 := Nat.add_lt_add_left bounded _
      _ = 2 ^ 53 := by norm_num

/-- All but the least scale belongs to significands of full width. -/
theorem le_significand_of_scale (least : -1074 < scale exponent) :
    2 ^ 52 ≤ significand exponent fraction := by
  unfold significand
  unfold scale at least
  split at least
  · omega
  · rename_i normal
    rw [if_neg normal]
    exact Nat.le_add_right _ _

theorem scale_bounds (exponent : Fin 2047) : -1074 ≤ scale exponent ∧ scale exponent ≤ 971 := by
  have bounded := exponent.isLt
  unfold scale
  split <;> omega

theorem denominator_rounding : 0 < (rounding exponent fraction).denominator :=
  Nat.pow_pos (by decide)

/-- The bounds of the range are quarters of the distance to the next number. -/
theorem quarters_div (count : ℕ) :
    ((count * Nat.pow 2 (scale exponent - 2).toNat : ℕ) : ℚ) /
        (Nat.pow 2 (2 - scale exponent).toNat : ℕ) = count / 4 * 2 ^ scale exponent := by
  have unit : (2 : ℚ) ^ (scale exponent - 2).toNat / 2 ^ (2 - scale exponent).toNat =
      2 ^ scale exponent / 4 := by
    rw [← neg_sub (scale exponent) 2, ← zpow_eq_div, zpow_sub₀ two_ne_zero]
    norm_num
  rw [Nat.pow_eq, Nat.pow_eq]
  push_cast
  rw [mul_div_assoc, unit]
  ring

theorem middle_rounding : (rounding exponent fraction).middle = magnitude exponent fraction := by
  unfold Rounding.middle rounding magnitude
  rw [quarters_div]
  push_cast
  ring

theorem highest_rounding :
    (rounding exponent fraction).highest =
      (significand exponent fraction + 1 / 2) * 2 ^ scale exponent := by
  unfold Rounding.highest rounding
  rw [quarters_div]
  push_cast
  ring

section Nonzero

variable (nonzero : significand exponent fraction ≠ 0)

include nonzero

theorem lowest_rounding :
    (significand exponent fraction - 1 / 2) * 2 ^ scale exponent ≤
        (rounding exponent fraction).lowest ∧
      (rounding exponent fraction).lowest < magnitude exponent fraction := by
  have unit : (0 : ℚ) < 2 ^ scale exponent := by positivity
  unfold Rounding.lowest rounding magnitude
  rw [quarters_div, mul_le_mul_iff_left₀ unit, mul_lt_mul_iff_left₀ unit]
  split
  all_goals
    rw [Nat.cast_sub (by omega)]
    push_cast
    constructor <;> linarith

/-! ## The decimal that the search finds -/

omit nonzero in
/-- Some power of two is above the number, and the search starts by its size. -/
theorem exists_top (exponent : Fin 2047) (fraction : Fin (Nat.pow 2 52)) :
    ∃ top : ℤ, magnitude exponent fraction < 2 ^ top ∧ top ≤ scale exponent + 53 ∧
      scale exponent < top ∧
      shortest exponent fraction =
        (rounding exponent fraction).search 24 (top * 30103 / 100000 + 1) := by
  refine ⟨(significand exponent fraction).log2 + scale exponent + 1, ?_, ?_, ?_, rfl⟩
  · have bounded : (significand exponent fraction : ℚ) <
        2 ^ ((significand exponent fraction).log2 + 1) := by
      exact_mod_cast Nat.lt_log2_self
    have split : (2 : ℚ) ^ ((significand exponent fraction).log2 + scale exponent + 1) =
        2 ^ ((significand exponent fraction).log2 + 1) * 2 ^ scale exponent := by
      rw [← zpow_natCast, ← zpow_add₀ two_ne_zero]
      congr 1
      push_cast
      ring
    rw [split]
    exact mul_lt_mul_of_pos_right bounded (by positivity)
  · have width : (significand exponent fraction).log2 < 53 := by
      by_cases zero : significand exponent fraction = 0
      · rw [zero]
        decide
      · exact (Nat.log2_lt zero).mpr significand_lt
    omega
  · omega

omit nonzero in
/-- The finest grid that is tried is finer than half the distance to the next number. -/
theorem finest_lt {top : ℤ} (least : scale exponent < top) (greatest : top ≤ scale exponent + 53) :
    (10 : ℚ) ^ (top * 30103 / 100000 + 1 - (23 : ℕ)) < 1 / 2 * 2 ^ scale exponent := by
  have bounds := scale_bounds exponent
  calc (10 : ℚ) ^ (top * 30103 / 100000 + 1 - (23 : ℕ))
      = 10 ^ (top * 30103 / 100000) / 10 ^ 22 := by
        rw [← zpow_natCast, ← zpow_sub₀ (by norm_num)]
        congr 1
        push_cast
        ring
    _ ≤ 2 ^ (top + 4) / 10 ^ 22 := by
        gcongr
        exact ten_zpow_le (by omega) (by omega)
    _ ≤ 2 ^ (scale exponent + 57) / 10 ^ 22 := by
        gcongr 2 ^ ?_ / _
        · norm_num
        · omega
    _ = 2 ^ 57 / 10 ^ 22 * 2 ^ scale exponent := by
        rw [zpow_add₀ two_ne_zero]
        norm_num
        ring
    _ < 1 / 2 * 2 ^ scale exponent := by
        gcongr ?_ * _
        norm_num

theorem isSome_finest {top : ℤ} (least : scale exponent < top)
    (greatest : top ≤ scale exponent + 53) :
    ((rounding exponent fraction).onGrid?
      (top * 30103 / 100000 + 1 - (23 : ℕ))).isSome = true := by
  apply Rounding.isSome_onGrid?_of_lt denominator_rounding
  · rw [middle_rounding]
    exact (lowest_rounding nonzero).2
  · rw [highest_rounding, middle_rounding, magnitude]
    have fine := finest_lt least greatest
    linarith

theorem contains_shortest :
    (rounding exponent fraction).contains (shortest exponent fraction) = true := by
  obtain ⟨top, -, greatest, least, shortest⟩ := exists_top exponent fraction
  rw [shortest]
  exact (Rounding.search_of_isSome (by decide) (isSome_finest nonzero least greatest)).2

/-- No grid finer than one that the number lies on is reached. -/
theorem le_exponent_shortest {place size : ℤ} {count : ℕ}
    (large : 2 ^ size ≤ magnitude exponent fraction)
    (onGrid : magnitude exponent fraction = count * 10 ^ place)
    (coarse : place ≤ (size + 1) * 30103 / 100000 + 1) :
    place ≤ (shortest exponent fraction).exponent := by
  obtain ⟨top, below, greatest, least, shortest⟩ := exists_top exponent fraction
  have above : size < top := (zpow_lt_zpow_iff_right₀ (by norm_num)).mp (large.trans_lt below)
  have finest :=
    Rounding.search_of_isSome (by decide : 23 < 24) (isSome_finest nonzero least greatest)
  rw [← shortest] at finest
  by_cases within : (top * 30103 / 100000 + 1 - place).toNat < 24
  · have index : top * 30103 / 100000 + 1 - ((top * 30103 / 100000 + 1 - place).toNat : ℕ) =
        place := by omega
    have found : ((rounding exponent fraction).onGrid? place).isSome = true := by
      apply Rounding.isSome_onGrid?_of_eq denominator_rounding
      · rw [middle_rounding]
        exact (lowest_rounding nonzero).2
      · rw [middle_rounding, highest_rounding, magnitude]
        have unit : (0 : ℚ) < 2 ^ scale exponent := by positivity
        linarith
      · rw [middle_rounding, onGrid]
    rw [← index] at found
    have reached := (Rounding.search_of_isSome within found).1
    rwa [← shortest, index] at reached
  · omega

theorem shortest_bounds :
    (significand exponent fraction - 1 / 2) * 2 ^ scale exponent ≤
        (shortest exponent fraction).value ∧
      (shortest exponent fraction).value ≤
        (significand exponent fraction + 1 / 2) * 2 ^ scale exponent := by
  have bounds := Rounding.bounds_of_contains denominator_rounding (contains_shortest nonzero)
  rw [highest_rounding] at bounds
  exact ⟨(lowest_rounding nonzero).1.trans bounds.1, bounds.2⟩

/-- A multiple of the distance between numbers that the decimal reaches, the number reaches. -/
theorem le_significand {count : ℕ}
    (atMost : count * 2 ^ scale exponent ≤ (shortest exponent fraction).value) :
    count ≤ significand exponent fraction := by
  have upper := le_of_mul_le_mul_right (atMost.trans (shortest_bounds nonzero).2) (by positivity)
  have strict : (count : ℚ) < (significand exponent fraction + 1 : ℕ) := by
    push_cast
    linarith
  exact Nat.lt_succ_iff.mp (by exact_mod_cast strict)

theorem significand_le {count : ℕ}
    (atLeast : (shortest exponent fraction).value ≤ count * 2 ^ scale exponent) :
    significand exponent fraction ≤ count := by
  have lower := le_of_mul_le_mul_right ((shortest_bounds nonzero).1.trans atLeast) (by positivity)
  have strict : (significand exponent fraction : ℚ) < (count + 1 : ℕ) := by
    push_cast
    linarith
  exact Nat.lt_succ_iff.mp (by exact_mod_cast strict)

theorem digits_shortest_pos : 0 < (shortest exponent fraction).digits := by
  have one : (1 : ℚ) ≤ significand exponent fraction := by
    exact_mod_cast Nat.one_le_iff_ne_zero.mpr nonzero
  have positive : 0 < (significand exponent fraction - 1 / 2 : ℚ) * 2 ^ scale exponent :=
    mul_pos (by linarith) (by positivity)
  have value := positive.trans_le (shortest_bounds nonzero).1
  apply Nat.pos_of_ne_zero
  intro zero
  rw [Decimal.value, zero, Nat.cast_zero, zero_mul] at value
  exact lt_irrefl 0 value

theorem ten_zpow_le_value {place : ℤ} (coarse : place ≤ (shortest exponent fraction).exponent) :
    10 ^ place ≤ (shortest exponent fraction).value := by
  have one : (1 : ℚ) ≤ (shortest exponent fraction).digits := by
    exact_mod_cast digits_shortest_pos nonzero
  calc (10 : ℚ) ^ place ≤ 10 ^ (shortest exponent fraction).exponent :=
        zpow_le_zpow_right₀ (by norm_num) coarse
    _ ≤ (shortest exponent fraction).digits * 10 ^ (shortest exponent fraction).exponent :=
        le_mul_of_one_le_left (by positivity) one

omit nonzero in
/-- A multiple of a power of two is one of every smaller power. -/
theorem exists_multiple (count : ℕ) {small large : ℤ} (smaller : small ≤ large) :
    ∃ multiple : ℕ, (multiple * 2 ^ small : ℚ) = count * 2 ^ large := by
  obtain ⟨power, isPower⟩ := Int.eq_ofNat_of_zero_le (sub_nonneg.mpr smaller)
  refine ⟨count * 2 ^ power, ?_⟩
  have split : (2 : ℚ) ^ large = 2 ^ power * 2 ^ small := by
    rw [← zpow_natCast, ← zpow_add₀ two_ne_zero]
    congr 1
    omega
  rw [split]
  push_cast
  ring

/-- The decimal of a number has no fraction exactly when the number has none. -/
theorem exponent_shortest_nonneg_iff :
    0 ≤ (shortest exponent fraction).exponent ↔
      ∃ whole : ℕ, magnitude exponent fraction = whole := by
  constructor
  · intro nonneg
    rcases le_total 0 (scale exponent) with up | down
    · obtain ⟨whole, isWhole⟩ := exists_multiple (significand exponent fraction) up
      exact ⟨whole, by rw [magnitude, ← isWhole, zpow_zero, mul_one]⟩
    · obtain ⟨power, isPower⟩ := Int.eq_ofNat_of_zero_le nonneg
      obtain ⟨multiple, isMultiple⟩ :=
        exists_multiple ((shortest exponent fraction).digits * 10 ^ power) down
      have value : (shortest exponent fraction).value = multiple * 2 ^ scale exponent := by
        rw [isMultiple, Decimal.value, isPower, zpow_natCast]
        push_cast
        ring
      -- Both are multiples of the distance between numbers, and less than one multiple apart.
      have same : significand exponent fraction = multiple :=
        (significand_le nonzero value.le).antisymm (le_significand nonzero value.ge)
      refine ⟨(shortest exponent fraction).digits * 10 ^ power, ?_⟩
      rw [magnitude, same, isMultiple, zpow_zero, mul_one]
  · rintro ⟨whole, isWhole⟩
    have positive := magnitude_pos nonzero
    have one : 2 ^ (0 : ℤ) ≤ magnitude exponent fraction := by
      rw [isWhole] at positive ⊢
      exact_mod_cast positive
    have onGrid : magnitude exponent fraction = whole * 10 ^ (0 : ℤ) := by
      rw [isWhole, zpow_zero, mul_one]
    exact le_exponent_shortest nonzero one onGrid (by decide)

/-- The widest whole part is itself a number, so rounding does not carry a number across it. -/
theorem le_value_shortest_iff :
    10 ^ 21 ≤ (shortest exponent fraction).value ↔ 10 ^ 21 ≤ magnitude exponent fraction := by
  have bounds := shortest_bounds nonzero
  -- `10 ^ 21` is `7629394531250000 · 2 ^ 17`, and any number of a larger scale is above it.
  by_cases fine : scale exponent ≤ 17
  · obtain ⟨multiple, isMultiple⟩ := exists_multiple 7629394531250000 fine
    have widest : (multiple * 2 ^ scale exponent : ℚ) = 10 ^ 21 := by
      rw [isMultiple]
      norm_num
    rw [← widest]
    constructor
    · intro atLeast
      have reached : (multiple : ℚ) ≤ significand exponent fraction := by
        exact_mod_cast le_significand nonzero atLeast
      exact mul_le_mul_of_nonneg_right reached (by positivity)
    · intro atLeast
      rcases atLeast.eq_or_lt with equal | less
      · have large : 2 ^ (69 : ℤ) ≤ magnitude exponent fraction := by
          rw [← equal, widest]
          norm_num
        have onGrid : magnitude exponent fraction = (1 : ℕ) * 10 ^ (21 : ℤ) := by
          rw [← equal, widest]
          norm_num
        rw [widest]
        exact ten_zpow_le_value nonzero (le_exponent_shortest nonzero large onGrid (by decide))
      · by_contra below
        have reached : (significand exponent fraction : ℚ) ≤ multiple := by
          exact_mod_cast significand_le nonzero (not_le.mp below).le
        exact less.not_ge (mul_le_mul_of_nonneg_right reached (by positivity))
  · have full : (2 ^ 52 : ℚ) ≤ significand exponent fraction := by
      exact_mod_cast le_significand_of_scale (by omega)
    have unit : (2 : ℚ) ^ (18 : ℤ) ≤ 2 ^ scale exponent :=
      zpow_le_zpow_right₀ (by norm_num) (by omega)
    have beyond : (10 ^ 21 : ℚ) ≤ (significand exponent fraction - 1 / 2) * 2 ^ scale exponent :=
      calc (10 ^ 21 : ℚ) ≤ (2 ^ 52 - 1 / 2) * 2 ^ (18 : ℤ) := by norm_num
        _ ≤ (significand exponent fraction - 1 / 2) * 2 ^ scale exponent := by
            gcongr
            linarith
    have above : (significand exponent fraction - 1 / 2) * 2 ^ scale exponent ≤
        magnitude exponent fraction :=
      mul_le_mul_of_nonneg_right (by linarith) (by positivity)
    exact iff_of_true (beyond.trans bounds.1) (beyond.trans above)

end Nonzero

end Number

end SqlPlan

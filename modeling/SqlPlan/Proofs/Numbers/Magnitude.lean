import Mathlib.Algebra.Order.Field.Power
import Mathlib.Algebra.Order.Floor.Semifield
import Mathlib.Data.Rat.Floor
import Mathlib.Tactic.Positivity
import Mathlib.Tactic.Ring
import SqlPlan.Number

/-!
# The values of numbers

The rational that the fields of a finite number stand for.  What is computed
from the fields by whole numbers alone, a whole part or whether there is a
fraction, is said of that rational.
-/

namespace SqlPlan

theorem zpow_eq_div (base : ℚ) (power : ℤ) :
    base ^ power = base ^ power.toNat / base ^ (-power).toNat := by
  rcases power.eq_nat_or_neg with ⟨count, rfl | rfl⟩ <;> simp

namespace Number

variable {exponent : Fin 2047} {fraction : Fin (Nat.pow 2 52)}

def magnitude (exponent : Fin 2047) (fraction : Fin (Nat.pow 2 52)) : ℚ :=
  significand exponent fraction * 2 ^ scale exponent

theorem magnitude_nonneg : 0 ≤ magnitude exponent fraction := by
  unfold magnitude
  positivity

theorem magnitude_pos (nonzero : significand exponent fraction ≠ 0) :
    0 < magnitude exponent fraction :=
  mul_pos (by exact_mod_cast Nat.pos_of_ne_zero nonzero) (by positivity)

theorem magnitude_eq_div :
    magnitude exponent fraction =
      (significand exponent fraction * Nat.pow 2 (scale exponent).toNat : ℕ) /
        (Nat.pow 2 (-scale exponent).toNat : ℕ) := by
  rw [magnitude, zpow_eq_div, Nat.pow_eq, Nat.pow_eq]
  push_cast
  rw [mul_div_assoc]

theorem isInteger_iff (negative : Bool) :
    (finite negative exponent fraction).isInteger = true ↔
      ∃ whole : ℕ, magnitude exponent fraction = whole := by
  have denominator : (0 : ℚ) < (Nat.pow 2 (-scale exponent).toNat : ℕ) := by
    exact_mod_cast Nat.pow_pos two_pos
  rw [isInteger, beq_iff_eq, ← Nat.dvd_iff_mod_eq_zero]
  constructor
  · rintro ⟨part, isPart⟩
    refine ⟨part * Nat.pow 2 (scale exponent).toNat, ?_⟩
    rw [magnitude_eq_div, div_eq_iff denominator.ne', isPart]
    push_cast
    ring
  · rintro ⟨whole, isWhole⟩
    rw [magnitude_eq_div, div_eq_iff denominator.ne'] at isWhole
    rcases le_total 0 (scale exponent) with up | down
    · rw [Int.toNat_of_nonpos (neg_nonpos.mpr up)]
      exact one_dvd _
    · have one : Nat.pow 2 (scale exponent).toNat = 1 := by
        rw [Int.toNat_of_nonpos down]
      rw [one, mul_one] at isWhole
      exact Dvd.intro_left whole (by exact_mod_cast isWhole.symm)

theorem whole?_finite (negative : Bool) :
    (finite negative exponent fraction).whole? = some ⌊magnitude exponent fraction⌋₊ := by
  rw [magnitude_eq_div, Nat.floor_div_eq_div]
  rfl

theorem whole?_lt_iff (negative : Bool) (bound : ℕ) :
    (∀ whole ∈ (finite negative exponent fraction).whole?, whole < bound) ↔
      magnitude exponent fraction < bound := by
  simp only [whole?_finite, Option.mem_some_iff, forall_eq']
  exact Nat.floor_lt magnitude_nonneg

/-! ## Positive numbers -/

/-- The value of a finite number; the others count as zero. -/
def value : Number → ℚ
  | .finite false exponent fraction => magnitude exponent fraction
  | .finite true exponent fraction => -magnitude exponent fraction
  | .infinite _ | .nan => 0

variable {number : Number} (positive : number.isPositive = true)

include positive

theorem exists_of_isPositive :
    ∃ exponent fraction, number = .finite false exponent fraction ∧
      0 < magnitude exponent fraction := by
  cases number with
  | nan => cases positive
  | infinite negative => cases positive
  | finite negative exponent fraction =>
      cases negative with
      | true => cases positive
      | false => exact ⟨exponent, fraction, rfl, magnitude_pos (bne_iff_ne.mp positive)⟩

theorem value_pos : 0 < number.value := by
  obtain ⟨exponent, fraction, rfl, above⟩ := exists_of_isPositive positive
  exact above

theorem isInteger_iff_value : number.isInteger = true ↔ ∃ whole : ℕ, number.value = whole := by
  obtain ⟨exponent, fraction, rfl, _⟩ := exists_of_isPositive positive
  exact isInteger_iff false

theorem whole?_eq_floor : number.whole? = some ⌊number.value⌋₊ := by
  obtain ⟨exponent, fraction, rfl, _⟩ := exists_of_isPositive positive
  exact whole?_finite false

theorem value_of_toNat? {whole : ℕ} (isWhole : number.toNat? = some whole) :
    number.value = whole := by
  unfold toNat? at isWhole
  split at isWhole
  · rename_i natural
    rw [Bool.and_eq_true, isInteger_iff_value positive] at natural
    obtain ⟨other, same⟩ := natural.1
    rw [whole?_eq_floor positive, same, Nat.floor_natCast] at isWhole
    cases isWhole
    exact same
  · cases isWhole

end Number

end SqlPlan

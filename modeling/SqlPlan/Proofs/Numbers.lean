import SqlPlan.Dialect.Registry
import SqlPlan.Expr.Sql
import SqlPlan.Proofs.Numbers.Literal
import SqlPlan.Proofs.Numbers.Shortest

/-!
# Numbers are numeric literals

The text of a finite number is one numeric literal, and with the float marking
it has a fraction or an exponent.  The exception is a whole number too wide to
be written out: its text already has an exponent, and the fraction that the
marking adds behind it makes it no literal at all.
-/

namespace SqlPlan

/-- A whole number is written out exactly below the power of ten of the widest whole part. -/
theorem Decimal.point_le_widestWhole_iff {decimal : Decimal} (positive : 0 < decimal.digits)
    (whole : 0 ≤ decimal.exponent) :
    decimal.point ≤ widestWhole ↔ decimal.value < 10 ^ 21 := by
  obtain ⟨power, isPower⟩ := Int.eq_ofNat_of_zero_le whole
  have isPoint : decimal.point = (Nat.toDigits 10 decimal.digits).length + power := by
    rw [point, isPower]
    rfl
  have isValue : decimal.value = (decimal.digits * 10 ^ power : ℕ) := by
    rw [value, isPower]
    push_cast
    rw [zpow_natCast]
  have widest : widestWhole = 21 := rfl
  have cast : decimal.value < 10 ^ 21 ↔ decimal.digits * 10 ^ power < 10 ^ 21 := by
    rw [isValue]
    exact_mod_cast Iff.rfl
  rw [cast]
  by_cases narrow : power < 21
  · have split : 10 ^ 21 = 10 ^ (21 - power) * 10 ^ power := by
      rw [← pow_add, Nat.sub_add_cancel narrow.le]
    have digits : (Nat.toDigits 10 decimal.digits).length ≤ 21 - power ↔
        decimal.digits < 10 ^ (21 - power) :=
      Nat.length_toDigits_le_iff (by decide) (by omega)
    rw [split, Nat.mul_lt_mul_right (by positivity), ← digits]
    omega
  · have length : 0 < (Nat.toDigits 10 decimal.digits).length :=
      List.length_pos_iff.mpr Nat.toDigits_ne_nil
    have above : 10 ^ 21 ≤ decimal.digits * 10 ^ power :=
      calc 10 ^ 21 ≤ 10 ^ power := Nat.pow_le_pow_right (by decide) (by omega)
        _ ≤ decimal.digits * 10 ^ power := Nat.le_mul_of_pos_left _ positive
    omega

namespace Number

/-- A number with a fraction is less than the widest significand. -/
theorem whole_lt_of_not_isInteger {number : Number} (fractional : number.isInteger ≠ true) :
    ∀ whole ∈ number.whole?, whole < 10 ^ 21 := by
  intro whole isWhole
  cases number with
  | nan => cases isWhole
  | infinite => cases isWhole
  | finite negative exponent fraction =>
      cases isWhole
      have negativeScale : scale exponent < 0 := by
        by_contra nonneg
        apply fractional
        rw [isInteger, Int.toNat_of_nonpos (by omega), beq_iff_eq]
        exact Nat.mod_one _
      rw [Int.toNat_of_nonpos negativeScale.le]
      calc significand exponent fraction * Nat.pow 2 0 / Nat.pow 2 (-scale exponent).toNat
          ≤ significand exponent fraction * Nat.pow 2 0 := Nat.div_le_self _ _
        _ = significand exponent fraction := Nat.mul_one _
        _ < 2 ^ 53 := significand_lt
        _ < 10 ^ 21 := by decide

theorem exists_literal {number : Number} (finite : number.isFinite = true) :
    ∃ literal : NumericLiteral, literal.chars = number.chars ∧
      (literal.isInexact = true ↔
        ¬(number.isInteger = true ∧ ∀ whole ∈ number.whole?, whole < 10 ^ 21)) ∧
      (number.isInteger = true → literal.isInexact = true →
        literal.exponent.isSome = true) := by
  cases number with
  | nan => cases finite
  | infinite => cases finite
  | finite negative exponent fraction =>
      rw [chars]
      split
      · rename_i zero
        have isInteger : (Number.finite negative exponent fraction).isInteger = true := by
          rw [isInteger, zero, Nat.zero_mod]
          rfl
        have below : ∀ whole ∈ (Number.finite negative exponent fraction).whole?,
            whole < 10 ^ 21 := by
          intro whole isWhole
          rw [whole?, zero, Nat.zero_mul, Nat.zero_div] at isWhole
          cases isWhole
          decide
        refine ⟨⟨false, .zero, none, none⟩, rfl, ?_, ?_⟩
        · exact iff_of_false (by decide) (not_not.mpr ⟨isInteger, below⟩)
        · intro _ inexact
          cases inexact
      · rename_i nonzero
        obtain ⟨literal, spelled, inexact, marked⟩ := (shortest exponent fraction).exists_literal
        have whole : (Number.finite negative exponent fraction).isInteger = true ↔
            0 ≤ (shortest exponent fraction).exponent :=
          (isInteger_iff negative).trans (exponent_shortest_nonneg_iff nonzero).symm
        have narrow : (∀ whole ∈ (Number.finite negative exponent fraction).whole?,
            whole < 10 ^ 21) ↔ (shortest exponent fraction).value < 10 ^ 21 := by
          rw [whole?_lt_iff, ← not_le, ← not_le, le_value_shortest_iff nonzero]
          norm_num
        refine ⟨{ literal with negative := negative }, ?_, ?_, ?_⟩
        · rw [NumericLiteral.chars, ← spelled]
          rfl
        · rw [whole, narrow]
          refine inexact.trans (not_congr (and_congr_right fun isWhole => ?_))
          exact Decimal.point_le_widestWhole_iff (digits_shortest_pos nonzero) isWhole
        · rw [whole]
          exact marked

end Number

namespace Expr

/-- The text of a finite number is a numeric literal, inexact under the float marking, unless the
marking adds a fraction to a whole number that is written with an exponent. -/
theorem literalText_numeric_iff (dialect : Dialect) {number : Number}
    (finite : number.isFinite = true) (mark : Option NumericMark) :
    ∃ text, literalText dialect { value := .number number, mark } = .ok text ∧
      ((∃ literal : NumericLiteral, literal.chars = text.toList ∧
          (mark = some .float → literal.isInexact = true)) ↔
        (mark = some .float → ∀ whole ∈ number.whole?, whole < 10 ^ 21)) := by
  obtain ⟨literal, spelled, inexact, marked⟩ := Number.exists_literal finite
  simp only [literalText, finite, if_true]
  refine ⟨_, rfl, ?_⟩
  split
  · rename_i suffixed
    have text : (number.text ++ ".0").toList = literal.chars ++ ['.', '0'] := by
      rw [spelled]
      simp [Number.text]
    rw [text]
    by_cases below : ∀ whole ∈ number.whole?, whole < 10 ^ 21
    · have digitsOnly : literal.isInexact = false :=
        Bool.eq_false_iff.mpr fun isInexact => inexact.mp isInexact ⟨suffixed.2, below⟩
      apply iff_of_true
      · exact ⟨_, literal.chars_fraction digitsOnly, fun _ => rfl⟩
      · exact fun _ => below
    · have isInexact : literal.isInexact = true := inexact.mpr fun written => below written.2
      apply iff_of_false
      · rintro ⟨other, otherSpelled, -⟩
        exact literal.chars_ne_append (marked suffixed.2 isInexact) other otherSpelled
      · exact fun all => below (all suffixed.1)
  · rename_i plain
    have fractional : mark = some .float → number.isInteger ≠ true :=
      fun isFloat isInteger => plain ⟨isFloat, isInteger⟩
    have text : number.text.toList = literal.chars := by
      rw [spelled]
      simp [Number.text]
    rw [text]
    apply iff_of_true
    · refine ⟨literal, rfl, fun isFloat => inexact.mpr fun written => ?_⟩
      exact fractional isFloat written.1
    · exact fun isFloat => Number.whole_lt_of_not_isInteger (fractional isFloat)

/-- The last number below the widest whole part, `999999999999999868928`, is written out. -/
theorem literalText_numeric_iff_widest :
    (Number.finite false 1092 3125794903879503).isFinite = true ∧
      ∃ text, literalText .postgres
          { value := .number (.finite false 1092 3125794903879503), mark := some .float } =
            .ok text ∧
        ∃ literal : NumericLiteral, literal.chars = text.toList ∧ literal.isInexact = true := by
  have below : ∀ whole ∈ (Number.finite false 1092 3125794903879503).whole?, whole < 10 ^ 21 := by
    intro whole isWhole
    cases isWhole
    decide
  obtain ⟨text, written, isLiteral⟩ := literalText_numeric_iff .postgres
    (rfl : (Number.finite false 1092 3125794903879503).isFinite = true) (some .float)
  obtain ⟨literal, spelled, inexact⟩ := isLiteral.mpr fun _ => below
  exact ⟨rfl, text, written, literal, spelled, inexact rfl⟩

/-- The next number has an exponent, and behind it the fraction of the float marking. -/
theorem literalText_float_beyond_widest :
    literalText .postgres
        { value := .number (.finite false 1092 3125794903879504), mark := some .float } =
      .ok "1e+21.0" ∧
      ¬∃ literal : NumericLiteral, literal.chars = "1e+21.0".toList := by
  constructor
  · have digits : (Number.finite false 1092 3125794903879504).text = "1e+21" := by decide +kernel
    have isInteger : (Number.finite false 1092 3125794903879504).isInteger = true := by decide
    simp only [literalText, Number.isFinite, digits, isInteger, and_self, if_true]
    rfl
  · rintro ⟨literal, spelled⟩
    have marked : literal.chars = ['1'] ++ 'e' :: ['+', '2', '1', '.', '0'] := spelled
    exact NumericLiteral.point_notMem marked (by decide)

end Expr

end SqlPlan

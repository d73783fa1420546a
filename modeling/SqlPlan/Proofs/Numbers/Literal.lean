import Mathlib.Data.List.Basic
import SqlPlan.Number.Text

/-!
# Numeric literals

A numeric literal is an optional minus sign, digits, an optional fraction and
an optional exponent.  Every decimal is written as one.  A fraction can be
added behind a literal that has neither a fraction nor an exponent, and behind
an exponent nothing can.
-/

namespace SqlPlan

structure Digits where
  chars : List Char
  nonempty : chars ≠ []
  isDigit : ∀ char ∈ chars, char.isDigit = true

/-- What follows the mark of an exponent. -/
structure Power where
  sign : List Char
  digits : Digits
  isSign : sign ∈ [[], ['+'], ['-']]

structure NumericLiteral where
  negative : Bool
  whole : Digits
  fraction : Option Digits
  exponent : Option Power

namespace Digits

variable {char : Char}

theorem notMem (digits : Digits) (noDigit : char.isDigit = false) : char ∉ digits.chars := by
  intro member
  rw [digits.isDigit char member] at noDigit
  cases noDigit

theorem isDigit_zero : ∀ char ∈ ['0'], char.isDigit = true := List.forall_mem_singleton.mpr rfl

def zero : Digits := ⟨['0'], List.cons_ne_nil _ _, isDigit_zero⟩

end Digits

namespace Power

def chars (power : Power) : List Char := power.sign ++ power.digits.chars

theorem notMem {char : Char} (power : Power) (noDigit : char.isDigit = false)
    (noSign : char ∉ ['+', '-']) : char ∉ power.chars := by
  have notSign : char ∉ power.sign := by
    intro member
    have isSign := power.isSign
    simp only [List.mem_cons, List.not_mem_nil, or_false] at isSign noSign
    rcases isSign with empty | plus | minus
    · rw [empty] at member
      cases member
    · rw [plus] at member
      exact noSign (.inl (List.mem_singleton.mp member))
    · rw [minus] at member
      exact noSign (.inr (List.mem_singleton.mp member))
  rw [chars, List.mem_append, not_or]
  exact ⟨notSign, power.digits.notMem noDigit⟩

end Power

namespace NumericLiteral

def fractionChars (literal : NumericLiteral) : List Char :=
  literal.fraction.elim [] fun digits => '.' :: digits.chars

def exponentChars (literal : NumericLiteral) : List Char :=
  literal.exponent.elim [] fun power => 'e' :: power.chars

def unsigned (literal : NumericLiteral) : List Char :=
  literal.whole.chars ++ literal.fractionChars ++ literal.exponentChars

def chars (literal : NumericLiteral) : List Char :=
  (if literal.negative then ['-'] else []) ++ literal.unsigned

/-- What stands before the exponent. -/
def mantissa (literal : NumericLiteral) : List Char :=
  (if literal.negative then ['-'] else []) ++ literal.whole.chars ++ literal.fractionChars

/-- Digits alone are a whole number. -/
def isInexact (literal : NumericLiteral) : Bool :=
  literal.fraction.isSome || literal.exponent.isSome

variable {literal : NumericLiteral}

theorem isInexact_eq_false_iff :
    literal.isInexact = false ↔ literal.fraction = none ∧ literal.exponent = none := by
  rw [isInexact, Bool.or_eq_false_iff, Option.isSome_eq_false_iff, Option.isSome_eq_false_iff,
    Option.isNone_iff_eq_none, Option.isNone_iff_eq_none]

theorem chars_fraction (digitsOnly : literal.isInexact = false) :
    ({ literal with fraction := some .zero } : NumericLiteral).chars =
      literal.chars ++ ['.', '0'] := by
  obtain ⟨noFraction, noExponent⟩ := isInexact_eq_false_iff.mp digitsOnly
  simp [chars, unsigned, fractionChars, exponentChars, noFraction, noExponent, Digits.zero]

theorem chars_eq_append (literal : NumericLiteral) :
    literal.chars = literal.mantissa ++ literal.exponentChars := by
  simp [chars, unsigned, mantissa]

theorem mark_notMem_mantissa (literal : NumericLiteral) : 'e' ∉ literal.mantissa := by
  have noSign : 'e' ∉ if literal.negative then ['-'] else [] := by
    split <;> decide
  have noFraction : 'e' ∉ literal.fractionChars := by
    unfold fractionChars
    cases literal.fraction with
    | none => exact List.not_mem_nil
    | some digits => exact List.not_mem_cons_of_ne_of_not_mem (by decide) (digits.notMem rfl)
  simp only [mantissa, List.mem_append, not_or]
  exact ⟨⟨noSign, literal.whole.notMem rfl⟩, noFraction⟩

/-- No point follows the mark of an exponent. -/
theorem point_notMem {before after : List Char} (marked : literal.chars = before ++ 'e' :: after) :
    '.' ∉ after := by
  have noMark := literal.mark_notMem_mantissa
  rw [chars_eq_append] at marked
  cases isExponent : literal.exponent with
  | none =>
      rw [exponentChars, isExponent, Option.elim_none, List.append_nil] at marked
      rw [marked] at noMark
      exact absurd (List.mem_append_right before List.mem_cons_self) noMark
  | some power =>
      rw [exponentChars, isExponent, Option.elim_some] at marked
      have noSecond : 'e' ∉ power.chars := power.notMem rfl (by decide)
      rw [← ((List.append_cons_inj_of_notMem noMark noSecond).mp marked).2.2]
      exact power.notMem rfl (by decide)

/-- No fraction follows an exponent. -/
theorem chars_ne_append (marked : literal.exponent.isSome = true) (other : NumericLiteral) :
    other.chars ≠ literal.chars ++ ['.', '0'] := by
  obtain ⟨power, isPower⟩ := Option.isSome_iff_exists.mp marked
  intro spelled
  have marked : other.chars = literal.mantissa ++ 'e' :: (power.chars ++ ['.', '0']) := by
    rw [spelled, chars_eq_append, exponentChars, isPower, Option.elim_some, List.append_assoc,
      List.cons_append]
  exact point_notMem marked (List.mem_append_right _ List.mem_cons_self)

end NumericLiteral

/-! ## Decimals -/

namespace Decimal

theorem isDigit_toDigits (value : Nat) :
    ∀ char ∈ Nat.toDigits 10 value, char.isDigit = true :=
  fun _ member => Nat.isDigit_of_mem_toDigits (by decide) (by decide) member

theorem isDigit_zeros (count : Int) : ∀ char ∈ zeros count, char.isDigit = true := by
  intro char member
  rw [List.eq_of_mem_replicate member]
  decide

def row (decimal : Decimal) : Digits :=
  ⟨Nat.toDigits 10 decimal.digits, Nat.toDigits_ne_nil, isDigit_toDigits decimal.digits⟩

/-- How many digits stand before the point. -/
def point (decimal : Decimal) : Int := decimal.row.chars.length + decimal.exponent

theorem chars_eq (decimal : Decimal) :
    decimal.chars =
      if 0 < decimal.point ∧ decimal.point ≤ widestWhole then
        if 0 ≤ decimal.exponent then decimal.row.chars ++ zeros decimal.exponent
        else decimal.row.chars.take decimal.point.toNat ++
          '.' :: decimal.row.chars.drop decimal.point.toNat
      else if deepestPoint < decimal.point ∧ decimal.point ≤ 0 then
        '0' :: '.' :: (zeros (-decimal.point) ++ decimal.row.chars)
      else scientific decimal.row.chars (decimal.point - 1) :=
  rfl

theorem point_pos {decimal : Decimal} (whole : 0 ≤ decimal.exponent) : 0 < decimal.point := by
  have length := List.length_pos_iff.mpr decimal.row.nonempty
  unfold point
  omega

theorem exists_scientific (digits : Digits) (power : Int) :
    ∃ literal : NumericLiteral, literal.unsigned = scientific digits.chars power ∧
      literal.exponent.isSome = true := by
  have isSign : [if power < 0 then '-' else '+'] ∈ [[], ['+'], ['-']] := by
    split <;> decide
  let exponent : Power :=
    ⟨[if power < 0 then '-' else '+'],
      ⟨Nat.toDigits 10 power.natAbs, Nat.toDigits_ne_nil, isDigit_toDigits _⟩, isSign⟩
  obtain ⟨row, nonempty, isDigit⟩ := digits
  cases row with
  | nil => exact absurd rfl nonempty
  | cons first row =>
      cases row with
      | nil => exact ⟨⟨false, ⟨[first], nonempty, isDigit⟩, none, some exponent⟩, rfl, rfl⟩
      | cons second rest =>
          rw [List.forall_mem_cons] at isDigit
          let whole : Digits :=
            ⟨[first], List.cons_ne_nil _ _, List.forall_mem_singleton.mpr isDigit.1⟩
          let fraction : Digits := ⟨second :: rest, List.cons_ne_nil _ _, isDigit.2⟩
          exact ⟨⟨false, whole, some fraction, some exponent⟩, rfl, rfl⟩

theorem exists_digits (decimal : Decimal) :
    ∃ literal : NumericLiteral,
      literal.unsigned = decimal.row.chars ++ zeros decimal.exponent ∧
        literal.isInexact = false := by
  have nonempty := List.append_ne_nil_of_left_ne_nil decimal.row.nonempty (zeros decimal.exponent)
  have isDigit := List.forall_mem_append.mpr ⟨decimal.row.isDigit, isDigit_zeros decimal.exponent⟩
  refine ⟨⟨false, ⟨_, nonempty, isDigit⟩, none, none⟩, ?_, rfl⟩
  exact (List.append_nil _).trans (List.append_nil _)

theorem exists_pointed {whole fraction : List Char} (someWhole : whole ≠ [])
    (someFraction : fraction ≠ []) (isDigit : ∀ char ∈ whole ++ fraction, char.isDigit = true) :
    ∃ literal : NumericLiteral, literal.unsigned = whole ++ '.' :: fraction ∧
      literal.isInexact = true := by
  rw [List.forall_mem_append] at isDigit
  exact ⟨⟨false, ⟨whole, someWhole, isDigit.1⟩, some ⟨fraction, someFraction, isDigit.2⟩, none⟩,
    List.append_nil _, rfl⟩

/-- A decimal is written as a literal: as digits alone where it is a whole number that is not
too wide, and a wider whole number with an exponent. -/
theorem exists_literal (decimal : Decimal) :
    ∃ literal : NumericLiteral, literal.unsigned = decimal.chars ∧
      (literal.isInexact = true ↔ ¬(0 ≤ decimal.exponent ∧ decimal.point ≤ widestWhole)) ∧
      (0 ≤ decimal.exponent → literal.isInexact = true → literal.exponent.isSome = true) := by
  have isPoint : decimal.point = decimal.row.chars.length + decimal.exponent := rfl
  have positive := @point_pos decimal
  rw [chars_eq]
  split
  · rename_i positional
    split
    · rename_i whole
      obtain ⟨literal, spelled, digitsOnly⟩ := decimal.exists_digits
      have notInexact := Bool.eq_false_iff.mp digitsOnly
      exact ⟨literal, spelled, iff_of_false notInexact (not_not.mpr ⟨whole, positional.2⟩),
        fun _ inexact => absurd inexact notInexact⟩
    · rename_i notWhole
      have before : decimal.row.chars.take decimal.point.toNat ≠ [] := by
        rw [Ne, List.take_eq_nil_iff, not_or]
        exact ⟨by omega, decimal.row.nonempty⟩
      have after : decimal.row.chars.drop decimal.point.toNat ≠ [] := by
        rw [Ne, List.drop_eq_nil_iff]
        omega
      have isDigit := decimal.row.isDigit
      rw [← List.take_append_drop decimal.point.toNat decimal.row.chars] at isDigit
      obtain ⟨literal, spelled, inexact⟩ := exists_pointed before after isDigit
      exact ⟨literal, spelled, iff_of_true inexact fun written => notWhole written.1,
        fun whole => absurd whole notWhole⟩
  · rename_i outside
    have unwritten : ¬(0 ≤ decimal.exponent ∧ decimal.point ≤ widestWhole) :=
      fun written => outside ⟨positive written.1, written.2⟩
    split
    · rename_i small
      have isDigit := List.forall_mem_append.mpr ⟨Digits.isDigit_zero, List.forall_mem_append.mpr
        ⟨isDigit_zeros (-decimal.point), decimal.row.isDigit⟩⟩
      obtain ⟨literal, spelled, inexact⟩ := exists_pointed (List.cons_ne_nil _ _)
        (List.append_ne_nil_of_right_ne_nil _ decimal.row.nonempty) isDigit
      refine ⟨literal, spelled, iff_of_true inexact unwritten, fun whole => ?_⟩
      have := positive whole
      omega
    · obtain ⟨literal, spelled, marked⟩ := exists_scientific decimal.row (decimal.point - 1)
      have inexact : literal.isInexact = true := by
        rw [NumericLiteral.isInexact, marked, Bool.or_true]
      exact ⟨literal, spelled, iff_of_true inexact unwritten, fun _ _ => marked⟩

end Decimal

end SqlPlan

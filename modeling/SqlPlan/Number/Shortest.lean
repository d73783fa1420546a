import SqlPlan.Number

/-!
# The shortest decimal that reads back

Every finite number is the rounding of a whole interval of reals.  The
shortest decimal of a number is the point of that interval on the coarsest
decimal grid that has one; of two such points the nearer is taken, and of two
equally near the one with an even last digit.
-/

namespace SqlPlan

/-- The decimal `digits · 10 ^ exponent`. -/
structure Decimal where
  digits : Nat
  exponent : Int
deriving DecidableEq

namespace Number

/-- The reals that round to one magnitude: the fractions between `low` and
`high` over one denominator, the ends included when `closed`. -/
structure Rounding where
  low : Nat
  value : Nat
  high : Nat
  denominator : Nat
  closed : Bool

/-- Below a power of two the next number is only half as far away as above it. -/
def rounding (exponent : Fin 2047) (fraction : Fin (Nat.pow 2 52)) : Rounding :=
  let quarters := 4 * significand exponent fraction
  let below := if fraction.val = 0 ∧ 1 < exponent.val then 1 else 2
  let unit := Nat.pow 2 (scale exponent - 2).toNat
  { low := (quarters - below) * unit
    value := quarters * unit
    high := (quarters + 2) * unit
    denominator := Nat.pow 2 (2 - scale exponent).toNat
    closed := significand exponent fraction % 2 == 0 }

namespace Rounding

/-- Whether `digits · 10 ^ exponent` rounds to the number. -/
def contains (range : Rounding) (decimal : Decimal) : Bool :=
  let point := decimal.digits * (range.denominator * Nat.pow 10 decimal.exponent.toNat)
  let low := range.low * Nat.pow 10 (-decimal.exponent).toNat
  let high := range.high * Nat.pow 10 (-decimal.exponent).toNat
  if range.closed then low ≤ point && point ≤ high else low < point && point < high

/-- The point of the grid of step `10 ^ exponent` that stands for the number,
if the grid has one. -/
def onGrid? (range : Rounding) (exponent : Int) : Option Decimal :=
  let value := range.value * Nat.pow 10 (-exponent).toNat
  let step := range.denominator * Nat.pow 10 exponent.toNat
  let below : Decimal := ⟨value / step, exponent⟩
  let above : Decimal := ⟨value / step + 1, exponent⟩
  let rest := 2 * (value % step)
  let nearer :=
    if rest < step then below
    else if step < rest then above
    else if below.digits % 2 = 0 then below else above
  match range.contains below, range.contains above with
  | true, true => some nearer
  | true, false => some below
  | false, true => some above
  | false, false => none

/-- Tries ever finer grids; the last resort is the whole part of the value. -/
def search (range : Rounding) : Nat → Int → Decimal
  | 0, _ => ⟨range.value / range.denominator, 0⟩
  | grids + 1, exponent =>
      match range.onGrid? exponent with
      | some decimal => decimal
      | none => search range grids (exponent - 1)

end Rounding

/-- The first grid is coarser than the number; twenty-four grids pass seventeen
digits, and seventeen always suffice. -/
def shortest (exponent : Fin 2047) (fraction : Fin (Nat.pow 2 52)) : Decimal :=
  let top := ((significand exponent fraction).log2 : Int) + scale exponent + 1
  (rounding exponent fraction).search 24 (top * 30103 / 100000 + 1)

end Number

end SqlPlan

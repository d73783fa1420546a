import SqlPlan.Number

/-!
# The binary64 number nearest to a ratio

Ratios of natural numbers and decimals are rounded to the nearest binary64
number, a half to the even neighbour.  The position of a magnitude among all
magnitudes is its code: codes count up through the fractions and carry into
the exponent, so rounding up across a power of two needs no separate case.
-/

namespace SqlPlan.Number

/-- The magnitude in position `code`; positions past the last one are infinite. -/
def ofCode (negative : Bool) (code : Nat) : Number :=
  if bounded : code / Nat.pow 2 52 < 2047 then
    .finite negative ⟨code / Nat.pow 2 52, bounded⟩
      ⟨code % Nat.pow 2 52, Nat.mod_lt _ (Nat.two_pow_pos 52)⟩
  else
    .infinite negative

def zero : Number := ofCode false 0

/-- The whole number nearest to a quotient, a half to the even one. -/
def nearestWhole (numerator denominator : Nat) : Nat :=
  let floor := numerator / denominator
  let rest := 2 * (numerator % denominator)
  if rest < denominator then floor
  else if denominator < rest then floor + 1
  else floor + floor % 2

/-- The number nearest to `numerator / denominator`, for a positive denominator. -/
def ofRatio (negative : Bool) (numerator denominator : Nat) : Number :=
  if numerator = 0 then
    ofCode negative 0
  else
    let top : Int := (numerator.log2 : Int) - denominator.log2
    let least := top - 53
    let quotient := numerator * Nat.pow 2 (-least).toNat / (denominator * Nat.pow 2 least.toNat)
    let scale := max (if quotient < Nat.pow 2 53 then least else least + 1) (-1074)
    let significand :=
      nearestWhole (numerator * Nat.pow 2 (-scale).toNat) (denominator * Nat.pow 2 scale.toNat)
    ofCode negative ((scale + 1074).toNat * Nat.pow 2 52 + significand)

def ofNat (value : Nat) : Number := ofRatio false value 1

/-- The number nearest to `digits · 10 ^ exponent`.  Magnitudes far outside the
range are decided by their number of digits alone. -/
def ofDecimal (negative : Bool) (digits : Nat) (exponent : Int) : Number :=
  let magnitude := ((Nat.toDigits 10 digits).length : Int) + exponent
  if digits = 0 then ofCode negative 0
  else if magnitude < -330 then ofCode negative 0
  else if 310 < magnitude then .infinite negative
  else ofRatio negative (digits * Nat.pow 10 exponent.toNat) (Nat.pow 10 (-exponent).toNat)

end SqlPlan.Number

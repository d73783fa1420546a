/-!
# Binary64 numbers

A number is a finite binary64 value, an infinity, or not a number.  A finite
value is held by its fields, so every value of the type is a real binary64
number and two numbers are the same value exactly when their fields agree,
the two zeros apart.  All arithmetic on the fields is exact.
-/

namespace SqlPlan

inductive Number where
  | nan
  | infinite (negative : Bool)
  | finite (negative : Bool) (exponent : Fin 2047) (fraction : Fin (Nat.pow 2 52))
deriving DecidableEq

namespace Number

/-- The whole number that a power of two scales to the magnitude. -/
def significand (exponent : Fin 2047) (fraction : Fin (Nat.pow 2 52)) : Nat :=
  if exponent.val = 0 then fraction.val else Nat.pow 2 52 + fraction.val

/-- The power of two that scales the significand to the magnitude. -/
def scale (exponent : Fin 2047) : Int :=
  if exponent.val = 0 then -1074 else (exponent.val : Int) - 1075

def isFinite : Number → Bool
  | .finite _ _ _ => true
  | _ => false

def isZero : Number → Bool
  | .finite _ exponent fraction => significand exponent fraction == 0
  | _ => false

/-- Finite and above zero. -/
def isPositive : Number → Bool
  | .finite false exponent fraction => significand exponent fraction != 0
  | _ => false

def isInteger : Number → Bool
  | .finite _ exponent fraction =>
      significand exponent fraction % Nat.pow 2 (-scale exponent).toNat == 0
  | _ => false

/-- The whole part of the magnitude of a finite number. -/
def whole? : Number → Option Nat
  | .finite _ exponent fraction =>
      some (significand exponent fraction * Nat.pow 2 (scale exponent).toNat /
        Nat.pow 2 (-scale exponent).toNat)
  | _ => none

/-- The natural number that a number is, zero of either sign included. -/
def toNat? (number : Number) : Option Nat :=
  if number.isInteger && (number.isPositive || number.isZero) then number.whole? else none

/-- Equality of values: the two zeros are one value, and not-a-number equals nothing. -/
def same : Number → Number → Bool
  | .finite negative exponent fraction, .finite negative' exponent' fraction' =>
      exponent == exponent' && fraction == fraction' &&
        (negative == negative' || significand exponent fraction == 0)
  | .infinite negative, .infinite negative' => negative == negative'
  | _, _ => false

end Number

end SqlPlan

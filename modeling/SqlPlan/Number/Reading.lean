import SqlPlan.Number.Rounding
import SqlPlan.Text.Blank

/-!
# Reading numbers

A text is read as a signed decimal with an optional fraction and power of
ten, as a signed infinity, or as whole digits in base two, eight or sixteen.
Blank ends are ignored, blank text is zero, and any other text is not a number.
-/

namespace SqlPlan.Number

def digit? (char : Char) : Option Nat :=
  if char.isDigit then some (char.toNat - '0'.toNat)
  else if 'a' ≤ char ∧ char ≤ 'f' then some (char.toNat - 'a'.toNat + 10)
  else if 'A' ≤ char ∧ char ≤ 'F' then some (char.toNat - 'A'.toNat + 10)
  else none

/-- The value of a text made of digits below the base only. -/
def digitsValue? (base : Nat) (total : Nat) : List Char → Option Nat
  | [] => some total
  | char :: rest =>
      match digit? char with
      | some digit => if digit < base then digitsValue? base (total * base + digit) rest else none
      | none => none

/-- A nonempty text of digits below the base. -/
def natural? (base : Nat) : List Char → Option Nat
  | [] => none
  | char :: rest => digitsValue? base 0 (char :: rest)

def power? : List Char → Option Int
  | '-' :: digits => (natural? 10 digits).map fun value => -(value : Int)
  | '+' :: digits => (natural? 10 digits).map Int.ofNat
  | digits => (natural? 10 digits).map Int.ofNat

/-- The power of ten that follows the digits, zero when nothing does. -/
def suffix? : List Char → Option Int
  | [] => some 0
  | mark :: digits => if mark == 'e' || mark == 'E' then power? digits else none

def readMagnitude (negative : Bool) (chars : List Char) : Number :=
  if chars = "Infinity".toList then
    .infinite negative
  else
    let whole := chars.takeWhile Char.isDigit
    let rest := chars.dropWhile Char.isDigit
    let (fraction, rest) := match rest with
      | '.' :: rest => (rest.takeWhile Char.isDigit, rest.dropWhile Char.isDigit)
      | _ => ([], rest)
    match natural? 10 (whole ++ fraction), suffix? rest with
    | some digits, some power => ofDecimal negative digits (power - fraction.length)
    | _, _ => .nan

/-- The base announced by the letter after a leading zero. -/
def base? : Char → Option Nat
  | 'b' | 'B' => some 2
  | 'o' | 'O' => some 8
  | 'x' | 'X' => some 16
  | _ => none

def read (text : String) : Number :=
  match Text.trimmed text with
  | [] => zero
  | '-' :: chars => readMagnitude true chars
  | '+' :: chars => readMagnitude false chars
  | '0' :: mark :: digits =>
      match base? mark with
      | some base => ((natural? base digits).map ofNat).getD .nan
      | none => readMagnitude false ('0' :: mark :: digits)
  | chars => readMagnitude false chars

end SqlPlan.Number

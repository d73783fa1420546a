import SqlPlan.Number.Shortest

/-!
# Numbers as text

A number is written with the digits of its shortest decimal: positionally
when its point falls at most six places left or twenty-one places right of
the first digit, and with an exponent otherwise.  The sign of zero is not
written.
-/

namespace SqlPlan

namespace Decimal

/-- The widest whole part that is written out. -/
def widestWhole : Int := 21

/-- Below this place of the point a fraction is written with an exponent. -/
def deepestPoint : Int := -6

def zeros (count : Int) : List Char := List.replicate count.toNat '0'

/-- Mantissa with a point after its first digit, then the signed power of ten. -/
def scientific (digits : List Char) (power : Int) : List Char :=
  let mantissa := match digits with
    | first :: second :: rest => first :: '.' :: second :: rest
    | _ => digits
  let sign := if power < 0 then '-' else '+'
  mantissa ++ 'e' :: sign :: Nat.toDigits 10 power.natAbs

def chars (decimal : Decimal) : List Char :=
  let digits := Nat.toDigits 10 decimal.digits
  let point := (digits.length : Int) + decimal.exponent
  if 0 < point ∧ point ≤ widestWhole then
    if 0 ≤ decimal.exponent then
      digits ++ zeros decimal.exponent
    else
      digits.take point.toNat ++ '.' :: digits.drop point.toNat
  else if deepestPoint < point ∧ point ≤ 0 then
    '0' :: '.' :: (zeros (-point) ++ digits)
  else
    scientific digits (point - 1)

end Decimal

namespace Number

def chars : Number → List Char
  | .nan => "NaN".toList
  | .infinite negative => (if negative then ['-'] else []) ++ "Infinity".toList
  | .finite negative exponent fraction =>
      if significand exponent fraction = 0 then ['0']
      else (if negative then ['-'] else []) ++ (shortest exponent fraction).chars

def text (number : Number) : String := String.ofList number.chars

end Number

end SqlPlan

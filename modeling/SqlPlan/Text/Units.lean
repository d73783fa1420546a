/-!
# UTF-16 units

The length of a text in UTF-16 units, and the units themselves as an order
key: characters beyond the basic plane count as two units.
-/

namespace SqlPlan.Text

def charUnits (char : Char) : List Nat :=
  if char.toNat < 0x10000 then
    [char.toNat]
  else
    let offset := char.toNat - 0x10000
    [0xD800 + offset / 0x400, 0xDC00 + offset % 0x400]

def units (text : String) : List Nat :=
  text.toList.flatMap charUnits

/-- The character of a text that is exactly one unit long. -/
def singleUnit? (text : String) : Option Char :=
  match text.toList with
  | [char] => if (charUnits char).length = 1 then some char else none
  | _ => none

end SqlPlan.Text

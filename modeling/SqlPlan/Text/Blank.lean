/-!
# Blank text

Blank characters are the spaces and line ends of Unicode and the byte order
mark.  The next-line control and the zero-width space are not blank.
-/

namespace SqlPlan.Text

/-- First and last code points of the runs of blank characters. -/
def blankRanges : List (Nat × Nat) :=
  [(0x09, 0x0D), (0x20, 0x20), (0xA0, 0xA0), (0x1680, 0x1680), (0x2000, 0x200A),
    (0x2028, 0x2029), (0x202F, 0x202F), (0x205F, 0x205F), (0x3000, 0x3000), (0xFEFF, 0xFEFF)]

def isBlankChar (char : Char) : Bool :=
  blankRanges.any fun (first, last) => first ≤ char.toNat && char.toNat ≤ last

/-- Whether nothing but blank characters is in a text. -/
def isBlank (text : String) : Bool :=
  text.toList.all isBlankChar

/-- The characters between the blank ends of a text. -/
def trimmed (text : String) : List Char :=
  ((text.toList.dropWhile isBlankChar).reverse.dropWhile isBlankChar).reverse

end SqlPlan.Text

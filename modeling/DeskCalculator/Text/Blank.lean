/-!
# Blank characters

The characters that separate words without showing, and the removal of those at the two ends of a
text.
-/

namespace DeskCalculator
namespace Text

/-- The blank characters as inclusive ranges of code points: the controls that move the writing
position, the information separators, and the spaces and separators of the wider alphabet. -/
def blankRanges : List (Nat × Nat) :=
  [(0x09, 0x0D), (0x1C, 0x20), (0x85, 0x85), (0xA0, 0xA0), (0x1680, 0x1680), (0x2000, 0x200A),
    (0x2028, 0x2029), (0x202F, 0x202F), (0x205F, 0x205F), (0x3000, 0x3000)]

/-- Whether a character is blank. -/
def isBlank (c : Char) : Bool :=
  blankRanges.any fun (first, last) => decide (first ≤ c.toNat ∧ c.toNat ≤ last)

/-- Whether a character is blank and is no information separator; these are the blanks that may
surround an integer. -/
def isSpacing (c : Char) : Bool :=
  isBlank c && !decide (0x1C ≤ c.toNat ∧ c.toNat ≤ 0x1F)

/-- Remove the characters of a class from both ends. -/
def trim (removed : Char → Bool) (text : List Char) : List Char :=
  ((text.dropWhile removed).reverse.dropWhile removed).reverse

/-- A text without the blanks at its ends. -/
def strip (text : String) : String := String.ofList (trim isBlank text.toList)

end Text
end DeskCalculator

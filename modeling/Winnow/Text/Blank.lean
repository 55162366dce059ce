/-
Winnow/Text/Blank.lean

White space: the twenty-five characters with the Unicode property of that
name, and the text left when those at both ends are dropped.
-/
import Winnow.Text.Ranges

namespace Winnow.Text

/-- Code points of white space. -/
def blankRanges : Ranges :=
  [(0x09, 0x0D), (0x20, 0x20), (0x85, 0x85), (0xA0, 0xA0), (0x1680, 0x1680), (0x2000, 0x200A),
   (0x2028, 0x2029), (0x202F, 0x202F), (0x205F, 0x205F), (0x3000, 0x3000)]

/-- Whether a character is white space. -/
def isBlank (c : Char) : Bool := blankRanges.covers c.toNat

/-- The characters between the first and the last that are not white space. -/
def trimBlank (cs : List Char) : List Char :=
  ((cs.dropWhile isBlank).reverse.dropWhile isBlank).reverse

end Winnow.Text

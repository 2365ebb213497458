import Tabletop.Text.Ranges

/-!
# Blank characters

The characters with the Unicode property `White_Space`: what a text is trimmed of, and what an
interpolation must not consist of alone.
-/

namespace Tabletop.Text

/-- The 25 code points that have the property `White_Space`. -/
def blanks : Ranges :=
  [(0x09, 0x0D), (0x20, 0x20), (0x85, 0x85), (0xA0, 0xA0), (0x1680, 0x1680), (0x2000, 0x200A),
   (0x2028, 0x2029), (0x202F, 0x202F), (0x205F, 0x205F), (0x3000, 0x3000)]

/-- Whether a character leaves nothing on the page. -/
def isBlank (c : Char) : Bool :=
  blanks.covers c

/-- A text without the blanks at its two ends. -/
def trim (cs : List Char) : List Char :=
  ((cs.dropWhile isBlank).reverse.dropWhile isBlank).reverse

end Tabletop.Text

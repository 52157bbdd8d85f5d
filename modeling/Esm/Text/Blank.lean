-- SUMMARY: White space and line ends.
import Esm.Text.CodePoints

/-!
# Blank characters

`isWhitespace` is the Unicode property `White_Space`. Module text also treats the byte order mark as
blank, wherever it stands. Only a line feed or a carriage return ends a line.
-/

namespace Esm.Text

def whitespaceRanges : CodePoints :=
  [(0x9, 0xD), (0x20, 0x20), (0x85, 0x85), (0xA0, 0xA0), (0x1680, 0x1680), (0x2000, 0x200A),
    (0x2028, 0x2029), (0x202F, 0x202F), (0x205F, 0x205F), (0x3000, 0x3000)]

/-- The Unicode property `White_Space`. -/
def isWhitespace (c : Char) : Bool := whitespaceRanges.has c.toNat

/-- White space between tokens: the property, and the byte order mark. -/
def isBlank (c : Char) : Bool := isWhitespace c || c == '\ufeff'

/-- The characters that end a line comment and break a quoted literal. -/
def isLineEnd (c : Char) : Bool := c == '\n' || c == '\r'

end Esm.Text

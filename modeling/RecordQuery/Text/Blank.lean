import RecordQuery.Text.Ranges

/-!
# Blanks

`Text.isBlank` is the property `White_Space` of Unicode: the characters that separate lexemes.
-/

set_option autoImplicit false

namespace RecordQuery
namespace Text

/-- The blank characters, as ranges of code points in ascending order. -/
def blankRanges : Ranges :=
  [(0x9, 0xD), (0x20, 0x20), (0x85, 0x85), (0xA0, 0xA0), (0x1680, 0x1680), (0x2000, 0x200A),
   (0x2028, 0x2029), (0x202F, 0x202F), (0x205F, 0x205F), (0x3000, 0x3000)]

/-- Whether `c` separates lexemes and is skipped between them. -/
def isBlank (c : Char) : Bool :=
  blankRanges.contains c.toNat

end Text
end RecordQuery

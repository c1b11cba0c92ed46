import CodeAtlas.Text.Ranges

/-!
# Blank characters

The characters of the standard's property `White_Space`, and trimming of text by them.
-/

namespace CodeAtlas.Text

/-- Every blank code point: the controls U+0009 to U+000D, the space, and the spaces and line
separators beyond ASCII. -/
def blankRanges : Ranges :=
  [(0x09, 0x0d), (0x20, 0x20), (0x85, 0x85), (0xa0, 0xa0), (0x1680, 0x1680), (0x2000, 0x200a),
    (0x2028, 0x2029), (0x202f, 0x202f), (0x205f, 0x205f), (0x3000, 0x3000)]

/-- The character is blank. -/
def isBlank (c : Char) : Bool :=
  blankRanges.contains c.toNat

end CodeAtlas.Text

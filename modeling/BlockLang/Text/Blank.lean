import BlockLang.Text.CodeRange

/-!
# Blank characters

The blank characters are those with the Unicode property White_Space together with
the four information separators U+001C to U+001F. Trimming the end of a source line
removes all of them. Around a numeral the information separators do not count as
blank, which `isNumeralBlank` expresses.
-/

namespace BlockLang.Text

namespace Blank

/-- The ranges of all blank characters. -/
def ranges : List CodeRange :=
  [(0x9, 0xd), (0x1c, 0x20), (0x85, 0x85), (0xa0, 0xa0), (0x1680, 0x1680), (0x2000, 0x200a),
   (0x2028, 0x2029), (0x202f, 0x202f), (0x205f, 0x205f), (0x3000, 0x3000)]

end Blank

def isBlank (c : Char) : Bool :=
  CodeRange.covers Blank.ranges c

/-- Whether the character may surround a numeral: it is blank and no information
separator. -/
def isNumeralBlank (c : Char) : Bool :=
  isBlank c && !(0x1c ≤ c.toNat && c.toNat ≤ 0x1f)

end BlockLang.Text

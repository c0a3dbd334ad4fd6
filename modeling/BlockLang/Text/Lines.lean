import BlockLang.Text.Blank

/-!
# Lines of a text

Two readings of line ends are in use. A file is read with every carriage return, alone
or before a line feed, turned into a line feed. To show a line of a source text, the text
is broken at every kind of line end that Unicode knows: line feed, carriage return, the
two together, vertical tab, form feed, the separators U+001C to U+001E, next line, and
the line and paragraph separators.
-/

namespace BlockLang.Text

/-- Whether the character ends a line by itself. -/
def isLineEnd (c : Char) : Bool :=
  CodeRange.covers [(0xa, 0xd), (0x1c, 0x1e), (0x85, 0x85), (0x2028, 0x2029)] c

namespace Lines

/-- Breaks the rest of a text, given the characters of the current line, latest first.
A line end closes the current line; text after the last line end is a line if there is
any. -/
def breakFrom (current : List Char) : List Char → List (List Char)
  | [] => if current.isEmpty then [] else [current.reverse]
  | '\r' :: '\n' :: rest => current.reverse :: breakFrom [] rest
  | c :: rest =>
    if isLineEnd c then current.reverse :: breakFrom [] rest else breakFrom (c :: current) rest

end Lines

/-- The lines of a text without their line ends. -/
def lines (text : String) : List String :=
  (Lines.breakFrom [] text.toList).map String.ofList

def trimEnd (text : String) : String :=
  String.ofList (text.toList.reverse.dropWhile isBlank).reverse

/-- Turns a carriage return, with a line feed after it or alone, into one line feed. -/
def unifyLineEnds : List Char → List Char
  | [] => []
  | '\r' :: '\n' :: rest => '\n' :: unifyLineEnds rest
  | '\r' :: rest => '\n' :: unifyLineEnds rest
  | c :: rest => c :: unifyLineEnds rest

end BlockLang.Text

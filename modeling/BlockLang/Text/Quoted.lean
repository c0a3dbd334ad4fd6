import BlockLang.Text.Printable

/-!
# Quoted text

Messages show a text between quotes on one line. An apostrophe is the usual quote; a
text that holds apostrophes and no double quote stands between double quotes. The quote
in use and the backslash are escaped by a backslash, line feed, carriage return and tab
have letter escapes, and every other character that is not printable is written by its
code point in lower-case hexadecimal, two, four or eight digits wide.
-/

namespace BlockLang.Text

namespace Quoted

/-- The apostrophe, the quote of most texts. -/
def apostrophe : Char := '\x27'

def delimiter (text : List Char) : Char :=
  if text.contains apostrophe && !text.contains '"' then '"' else apostrophe

/-- The hexadecimal digits of a number, padded with zeros to the given width. -/
def hex (width n : Nat) : List Char :=
  let digits := Nat.toDigits 16 n
  List.replicate (width - digits.length) '0' ++ digits

/-- The escape of a character by its code point, in the shortest of three widths. -/
def codePoint (c : Char) : List Char :=
  if c.toNat < 0x100 then '\\' :: 'x' :: hex 2 c.toNat
  else if c.toNat < 0x10000 then '\\' :: 'u' :: hex 4 c.toNat
  else '\\' :: 'U' :: hex 8 c.toNat

def escape (quote c : Char) : List Char :=
  if c = quote ∨ c = '\\' then ['\\', c]
  else if c = '\n' then ['\\', 'n']
  else if c = '\r' then ['\\', 'r']
  else if c = '\t' then ['\\', 't']
  else if isPrintable c then [c]
  else codePoint c

end Quoted

/-- The text between quotes, with everything escaped that would not be shown as
itself. -/
def quoted (text : String) : String :=
  let quote := Quoted.delimiter text.toList
  String.ofList (quote :: text.toList.flatMap (Quoted.escape quote) ++ [quote])

end BlockLang.Text

import BlockLang.Text.Blank
import BlockLang.Text.DecimalDigit

/-!
# Numerals

The decimal writing of integers. Reading accepts the digits of every script, blanks
around the numeral, one sign directly before the digits and single underscores between
digits. Both directions have a limit on the number of digits: a longer numeral is not
read, leading zeros included, and a longer integer is not written.
-/

namespace BlockLang.Numeral

open BlockLang.Text

def digitLimit : Nat := 4300

/-- Why a text is not read as an integer: it does not have the form of a numeral, or it has too
many digits, whose number is kept. -/
inductive ReadError
  | malformed
  | tooLong (digits : Nat)
deriving DecidableEq, Repr

/-- Takes a sign off a text and says whether it was a minus. -/
def splitSign : List Char → Bool × List Char
  | '+' :: rest => (false, rest)
  | '-' :: rest => (true, rest)
  | text => (false, text)

def isDigitPart (c : Char) : Bool :=
  isDecimalDigit c || c == '_'

/-- Whether digits are present and every underscore stands between two digits. -/
def isGrouped : List Char → Bool
  | [] => false
  | [c] => c != '_'
  | c :: d :: rest => c != '_' && (if d = '_' then isGrouped rest else isGrouped (d :: rest))

/-- The number that a sequence of digit values denotes in base ten. -/
def value (digits : List Nat) : Nat :=
  digits.foldl (fun n d => 10 * n + d) 0

/-- Reads a numeral. The grouping of the digits is looked at first, then their number,
then what follows them. -/
def read (text : String) : Except ReadError Int :=
  let (negative, unsigned) := splitSign (text.toList.dropWhile isNumeralBlank)
  let part := unsigned.takeWhile isDigitPart
  let digits := part.filterMap digitValue?
  if !isGrouped part then .error .malformed
  else if digitLimit < digits.length then .error (.tooLong digits.length)
  else if !(unsigned.dropWhile isDigitPart).all isNumeralBlank then .error .malformed
  else .ok (if negative then -(value digits : Int) else value digits)

/-- The decimal writing of an integer of any size: a minus if it is negative, then its
digits without leading zeros. -/
def decimal (n : Int) : String :=
  if n < 0 then "-" ++ Nat.repr n.natAbs else Nat.repr n.natAbs

/-- The decimal writing of an integer, if it has few enough digits. -/
def write? (n : Int) : Option String :=
  if digitLimit < (Nat.repr n.natAbs).length then none else some (decimal n)

end BlockLang.Numeral

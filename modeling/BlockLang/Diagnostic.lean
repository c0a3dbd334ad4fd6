import BlockLang.Text.Lines
import BlockLang.Token

/-!
# Diagnostics

A diagnostic is a message about a place in a source text. It is shown with the source
line it refers to and a caret below the column, as long as the source has such a line.

A diagnostic made by hand may refer to any column. A caret can only be drawn below a
column that a signed 64-bit word can hold, and only as far to the right as a line can
reach; `Diagnostic.draw` refuses the others. The columns of a source text are never that
far.
-/

namespace BlockLang

structure Diagnostic where
  message : String
  position : Position
deriving DecidableEq, Repr

namespace Diagnostic

/-- The diagnostic about a token, which refers to the place where the token starts. -/
def ofToken (message : String) (token : Token) : Diagnostic :=
  ⟨message, token.position⟩

def line (d : Diagnostic) : Int := d.position.line

def column (d : Diagnostic) : Int := d.position.column

/-- The diagnostic on one line. -/
def summary (d : Diagnostic) : String :=
  "Semantic error at line " ++ Numeral.decimal d.line ++ ":" ++ Numeral.decimal d.column ++
    " -> " ++ d.message

/-- The line of a text with the given number, counted from one. -/
def lineOf? (lines : List String) (line : Int) : Option String :=
  if 1 ≤ line then lines[(line - 1).toNat]? else none

/-- The diagnostic with the line of the source it refers to, without blanks at the end,
and a caret below its column. Without such a line it is the summary alone. -/
def renderAt (d : Diagnostic) (lines : List String) : String :=
  match lineOf? lines d.line with
  | none => d.summary
  | some text =>
    let indent := String.ofList (List.replicate d.column.toNat ' ')
    d.summary ++ "\n    " ++ Text.trimEnd text ++ "\n    " ++ indent ++ "^"

def render (d : Diagnostic) (source : String) : String :=
  d.renderAt (Text.lines source)

/-- Diagnostics as they are shown for one source text, whose lines are taken once. -/
def renderAll (source : String) (ds : List Diagnostic) : List String :=
  let lines := Text.lines source
  ds.map (·.renderAt lines)

/-- Why a caret cannot be drawn: no word holds the column, or no line reaches to it. -/
inductive CaretError
  | outOfRange
  | tooFar
deriving DecidableEq, Repr

namespace CaretError

/-- The class under which the refusal is reported. -/
def label : CaretError → String
  | .outOfRange => "OverflowError"
  | .tooFar => "MemoryError"

/-- The message about the refusal, which is empty for a line that is too long. -/
def message : CaretError → String
  | .outOfRange => "cannot fit 'int' into an index-sized integer"
  | .tooFar => ""

end CaretError

/-- The greatest column that a line reaches to. -/
def columnLimit : Int := 0x100000000

/-- The number of columns from zero on that a signed 64-bit word can hold. -/
def wordLimit : Int := 0x8000000000000000

/-- Why no caret can be drawn below a column, if so. -/
def caretError? (column : Int) : Option CaretError :=
  if column < -wordLimit ∨ wordLimit ≤ column then some .outOfRange
  else if columnLimit < column then some .tooFar
  else none

/-- The diagnostic as it is shown for a source text, unless a caret belongs to it and
cannot be drawn. -/
def draw (d : Diagnostic) (source : String) : Except CaretError String :=
  match lineOf? (Text.lines source) d.line, caretError? d.column with
  | some _, some e => .error e
  | _, _ => .ok (d.render source)

theorem renderAll_eq_map (source : String) (ds : List Diagnostic) :
    renderAll source ds = ds.map (·.render source) := rfl

end Diagnostic

end BlockLang

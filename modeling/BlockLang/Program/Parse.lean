import BlockLang.Lexeme.Scan
import BlockLang.Program.Draft

/-!
# Reading programs

A source text is read by feeding its lexemes to a draft. The first fault in source order
is reported: a lexeme that no program can have where it stands, else the character at
which scanning stopped, else the end of the text if the program is not complete there.
-/

namespace BlockLang

/-- Why a source text is no program: a character on the given line that starts no piece of
source text, a lexeme that no program can have where it stands, or an early end. -/
inductive SyntaxError
  | illegal (c : Char) (line : Int)
  | unexpected (l : Lexeme)
  | unexpectedEnd
deriving DecidableEq, Repr

def SyntaxError.message : SyntaxError → String
  | .illegal c line =>
    "Illegal character " ++ Text.quoted (String.singleton c) ++ " at line " ++
      Numeral.decimal line
  | .unexpected l =>
    "Syntax error at '" ++ l.token.text ++ "' (type: " ++ l.kind.label ++ ") on line " ++
      Numeral.decimal l.token.line
  | .unexpectedEnd => "Syntax error at EOF"

namespace Program

def ofScan (scan : Scan) : Except SyntaxError Program :=
  match Draft.empty.feedAll scan.lexemes with
  | .error l => .error (.unexpected l)
  | .ok draft =>
    match scan.illegal, draft.program? with
    | some c, _ => .error (.illegal c scan.stop.line)
    | none, none => .error .unexpectedEnd
    | none, some program => .ok program

/-- Reads a program from its source text. -/
def parse (source : String) : Except SyntaxError Program :=
  ofScan (.ofSource source)

end Program

end BlockLang

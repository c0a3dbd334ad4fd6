import BlockLang.Numeral
import BlockLang.Text.Quoted

/-!
# Tokens

A token is a piece of source text together with the place where it starts. Trees may be
built by hand, so a token may hold any text and any integers for its place.
-/

namespace BlockLang

/-- A place in a source text. Lines are counted from one and are ended by line feeds
only; columns are counted in code points from zero. -/
structure Position where
  line : Int
  column : Int
deriving DecidableEq, Repr

namespace Position

/-- The place where every text starts. -/
def start : Position := ⟨1, 0⟩

/-- The place after one character. -/
def advance (p : Position) (c : Char) : Position :=
  if c = '\n' then ⟨p.line + 1, 0⟩ else ⟨p.line, p.column + 1⟩

/-- The place after a text. -/
def after (p : Position) (text : List Char) : Position :=
  text.foldl advance p

@[simp] theorem after_nil (p : Position) : p.after [] = p := rfl

@[simp] theorem after_cons (p : Position) (c : Char) (text : List Char) :
    p.after (c :: text) = (p.advance c).after text := rfl

theorem after_append (p : Position) (first second : List Char) :
    p.after (first ++ second) = (p.after first).after second :=
  List.foldl_append

end Position

/-- A piece of source text and the place where it starts. -/
structure Token where
  text : String
  position : Position
deriving DecidableEq, Repr

namespace Token

/-- The line on which the token starts. -/
def line (t : Token) : Int := t.position.line

/-- The column at which the token starts. -/
def column (t : Token) : Int := t.position.column

/-- The printed form of a token: its quoted text and its place. -/
def render (t : Token) : String :=
  "Token(" ++ Text.quoted t.text ++ "@" ++ Numeral.decimal t.line ++ ":" ++
    Numeral.decimal t.column ++ ")"

end Token

end BlockLang

import BlockLang.Lexeme.Piece

/-!
# Scanning a source text

Scanning gives the lexemes of a source text with their places. It stops at the end of
the text or at the first character that starts no piece; the place where it stopped is
kept, so that the line is known in both cases.
-/

namespace BlockLang

/-- The outcome of scanning: the lexemes found, the place where scanning stopped, and the
character that stopped it, if any. -/
structure Scan where
  lexemes : List Lexeme
  stop : Position
  illegal : Option Char
deriving DecidableEq, Repr

namespace Scan

/-- Gives each piece that is no gap its place, given the lexemes before, latest first,
and the place where the first piece starts. The place after all pieces is kept. -/
def locateFrom (before : List Lexeme) (start : Position) :
    List Piece → List Lexeme × Position
  | [] => (before.reverse, start)
  | ⟨none, text⟩ :: rest => locateFrom before (start.after text) rest
  | ⟨some kind, text⟩ :: rest =>
    locateFrom (⟨kind, ⟨String.ofList text, start⟩⟩ :: before) (start.after text) rest

/-- The lexemes of pieces that follow each other from the start of a text, and the place
after them. -/
def locate (pieces : List Piece) : List Lexeme × Position :=
  locateFrom [] .start pieces

def ofSource (source : String) : Scan :=
  let (pieces, rest) := Piece.split source.toList
  let (lexemes, stop) := locate pieces
  ⟨lexemes, stop, rest.head?⟩

end Scan

end BlockLang

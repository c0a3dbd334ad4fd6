import BlockLang.Lexeme
import BlockLang.Text.WordChar

/-!
# Pieces of a source text

A source text is cut from the left into pieces. A piece is the text of a lexeme or a gap:
a blank, a run of line feeds, or a comment. `Piece.next?` cuts off one piece, and
`Piece.split` cuts until the text ends or nothing can be cut off.
-/

namespace BlockLang

open BlockLang.Text

/-- A piece of source text: the text of a lexeme of the given kind, or a gap if there is
no kind. -/
structure Piece where
  kind : Option Lexeme.Kind
  text : List Char
deriving DecidableEq, Repr

namespace Piece

/-- The characters that may stand between lexemes on one line. -/
def isSpace (c : Char) : Bool :=
  c == ' ' || c == '\t' || c == '\r'

/-- Whether a character stays within its line. -/
def isInLine (c : Char) : Bool :=
  c != '\n'

/-- How many characters reach to the end of the first `*/` in a text, counted on from
`count`. -/
def closing? (count : Nat) : List Char → Option Nat
  | '*' :: '/' :: _ => some (count + 2)
  | _ :: rest => closing? (count + 1) rest
  | [] => none

/-- The length of the piece that a slash starts together with the text after it: a
comment that reaches to the end of its line, or one that reaches to the first `*/`. -/
def comment? : List Char → Option Nat
  | '/' :: rest => some (2 + (rest.takeWhile isInLine).length)
  | '*' :: rest => closing? 2 rest
  | _ => none

/-- The kind and length of the piece at the start of a text. Spaces are looked for
first, then numbers, words, line feeds, comments and single characters. -/
def measure? : List Char → Option (Option Lexeme.Kind × Nat)
  | [] => none
  | c :: rest =>
    if isSpace c then some (none, 1)
    else if isDecimalDigit c then
      some (some .number, 1 + (rest.takeWhile isDecimalDigit).length)
    else if isWordStart c then
      let word := c :: rest.takeWhile isWordChar
      some (some (.ofWord (String.ofList word)), word.length)
    else if c = '\n' then some (none, 1 + (rest.takeWhile (· == '\n')).length)
    else if c = '/' then (comment? rest).map (none, ·)
    else (Lexeme.Kind.ofChar? c).map fun kind => (some kind, 1)

/-- The piece at the start of a text and the text after it. -/
def next? (text : List Char) : Option (Piece × List Char) :=
  (measure? text).map fun (kind, length) => (⟨kind, text.take length⟩, text.drop length)

theorem closing?_le {text : List Char} {count length : Nat}
    (h : closing? count text = some length) : count + 2 ≤ length := by
  fun_induction closing? count text with
  | case1 => grind
  | case2 => grind
  | case3 => grind

theorem comment?_pos {text : List Char} {length : Nat}
    (h : comment? text = some length) : 0 < length := by
  fun_cases comment? text with
  | case1 => grind [comment?]
  | case2 rest =>
    have := closing?_le (by simpa [comment?] using h)
    omega
  | case3 => grind [comment?]

/-- A piece has at least one character. -/
theorem measure?_pos {text : List Char} {kind : Option Lexeme.Kind} {length : Nat}
    (h : measure? text = some (kind, length)) : 0 < text.length ∧ 0 < length := by
  fun_cases measure? text with
  | case1 => simp [measure?] at h
  | case2 => grind [measure?]
  | case3 => grind [measure?]
  | case4 => grind [measure?]
  | case5 => grind [measure?]
  | case6 rest =>
    cases hc : comment? rest with
    | none => grind [measure?]
    | some n => grind [measure?, comment?_pos hc]
  | case7 c =>
    cases hc : Lexeme.Kind.ofChar? c with
    | none => grind [measure?]
    | some k => grind [measure?]

/-- Cutting off a piece loses no character and leaves a shorter text. -/
theorem next?_eq_some {text rest : List Char} {piece : Piece}
    (h : next? text = some (piece, rest)) :
    piece.text ++ rest = text ∧ rest.length < text.length := by
  simp only [next?, Option.map_eq_some_iff, Prod.exists, Prod.mk.injEq] at h
  obtain ⟨kind, length, hm, rfl, rfl⟩ := h
  have hpos := measure?_pos hm
  simp only [List.take_append_drop, List.length_drop, true_and]
  omega

/-- Cuts a text into pieces, given the pieces cut before, latest first. What remains is
empty, or starts with a character at which no piece can be cut off. -/
def splitFrom (before : List Piece) (text : List Char) : List Piece × List Char :=
  match h : next? text with
  | none => (before.reverse, text)
  | some (piece, rest) =>
    have := (next?_eq_some h).2
    splitFrom (piece :: before) rest
termination_by text.length

/-- Cuts a text into pieces as far as possible. -/
def split (text : List Char) : List Piece × List Char :=
  splitFrom [] text

end Piece

end BlockLang

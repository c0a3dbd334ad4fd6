import BlockLang.Lexeme.Scan
import Mathlib.Data.Prod.Lex

/-!
# Laws of scanning

Scanning cuts a text into pieces and gives each piece its place. Every piece has at least
one character, so the place moves forward with each of them, and the lexemes of a source
text stand at increasing places. The kind of a lexeme that is no number and no identifier
fixes its text.
-/

namespace BlockLang

open Lexeme (Kind)

namespace Position

/-- Places are ordered by their lines, and on one line by their columns. -/
instance : LinearOrder Position :=
  LinearOrder.lift' (fun p => toLex (p.line, p.column)) (by
    rintro ⟨_, _⟩ ⟨_, _⟩ same
    cases same
    rfl)

theorem lt_iff {p q : Position} :
    p < q ↔ p.line < q.line ∨ p.line = q.line ∧ p.column < q.column :=
  Prod.Lex.toLex_lt_toLex

theorem lt_advance (p : Position) (c : Char) : p < p.advance c := by
  rw [lt_iff, advance]
  split
  · exact .inl (Int.lt_succ p.line)
  · exact .inr ⟨rfl, Int.lt_succ p.column⟩

theorem le_after (p : Position) (text : List Char) : p ≤ p.after text := by
  induction text generalizing p with
  | nil => exact le_rfl
  | cons c rest ih => exact (p.lt_advance c).le.trans (ih (p.advance c))

theorem lt_after (p : Position) {text : List Char} (nonempty : text ≠ []) :
    p < p.after text := by
  cases text with
  | nil => exact absurd rfl nonempty
  | cons c rest => exact (p.lt_advance c).trans_le ((p.advance c).le_after rest)

end Position

namespace Lexeme

/-- The only text of a kind; numbers and identifiers have many. -/
def Kind.spelling? : Kind → Option String
  | .identifier | .number => none
  | .plus => some "+"
  | .minus => some "-"
  | .intWord => some "int"
  | .booleanWord => some "boolean"
  | .ifWord => some "if"
  | .printWord => some "print"
  | .trueWord => some "true"
  | .falseWord => some "false"
  | .equals => some "="
  | .semicolon => some ";"
  | .leftParen => some "("
  | .rightParen => some ")"
  | .leftBrace => some "\x7b"
  | .rightBrace => some "\x7d"

/-- The text of the lexeme is that of its kind, if the kind has only one. -/
def Spelled (l : Lexeme) : Prop :=
  ∀ text, l.kind.spelling? = some text → l.token.text = text

namespace Kind

theorem spelling?_ofWord {word text : String} (h : (ofWord word).spelling? = some text) :
    word = text := by
  unfold ofWord at h
  split_ifs at h with isInt isBoolean isIf isPrint isTrue isFalse
  · exact isInt.trans (Option.some.inj h)
  · exact isBoolean.trans (Option.some.inj h)
  · exact isIf.trans (Option.some.inj h)
  · exact isPrint.trans (Option.some.inj h)
  · exact isTrue.trans (Option.some.inj h)
  · exact isFalse.trans (Option.some.inj h)
  · cases h

theorem spelling?_of_ofChar? {c : Char} {kind : Kind} (h : ofChar? c = some kind) :
    kind.spelling? = some (String.ofList [c]) := by
  unfold ofChar? at h
  split at h <;> cases h <;> rfl

end Kind

end Lexeme

namespace Piece

/-- The text of a piece is that of its kind, if the kind has only one. -/
theorem measure?_spelling {text : List Char} {kind : Kind} {length : Nat} {word : String}
    (h : measure? text = some (some kind, length)) (only : kind.spelling? = some word) :
    String.ofList (text.take length) = word := by
  cases text with
  | nil => cases h
  | cons c rest =>
      simp only [measure?] at h
      split_ifs at h with space digit letter newline slash
      · cases h
      · cases h
        cases only
      · simp only [Option.some.injEq, Prod.mk.injEq] at h
        obtain ⟨rfl, rfl⟩ := h
        have taken : (c :: rest).take (c :: rest.takeWhile Text.isWordChar).length =
            c :: rest.takeWhile Text.isWordChar := by
          rw [List.length_cons, List.take_succ_cons,
            ← List.prefix_iff_eq_take.mp (List.takeWhile_prefix Text.isWordChar)]
        rw [taken]
        exact Kind.spelling?_ofWord only
      · cases h
      · simp at h
      · simp only [Option.map_eq_some_iff, Prod.mk.injEq, Option.some.injEq] at h
        obtain ⟨_, single, rfl, rfl⟩ := h
        rw [Kind.spelling?_of_ofChar? single] at only
        exact Option.some.inj only

/-- What holds of every piece that is cut off: it has a character, and it is spelled as its
kind wants. -/
structure Cut (piece : Piece) : Prop where
  nonempty : piece.text ≠ []
  spelled : ∀ kind word, piece.kind = some kind → kind.spelling? = some word →
    String.ofList piece.text = word

theorem cut_of_next? {text rest : List Char} {piece : Piece}
    (h : next? text = some (piece, rest)) : Cut piece := by
  refine ⟨?_, ?_⟩
  · intro empty
    obtain ⟨same, shorter⟩ := next?_eq_some h
    rw [empty, List.nil_append] at same
    exact absurd shorter (same ▸ lt_irrefl _)
  · intro kind word known only
    simp only [next?, Option.map_eq_some_iff, Prod.exists, Prod.mk.injEq] at h
    obtain ⟨_, length, measured, rfl, rfl⟩ := h
    cases known
    exact measure?_spelling measured only

theorem cut_of_mem_splitFrom {before : List Piece} {text : List Char}
    (earlier : ∀ piece ∈ before, Cut piece) :
    ∀ piece ∈ (splitFrom before text).1, Cut piece := by
  fun_induction splitFrom before text with
  | case1 before text ended =>
      intro piece member
      exact earlier piece (List.mem_reverse.mp member)
  | case2 before text first rest cut _ ih =>
      apply ih
      intro piece member
      rcases List.mem_cons.mp member with rfl | old
      · exact cut_of_next? cut
      · exact earlier piece old

theorem cut_of_mem_split {text : List Char} : ∀ piece ∈ (split text).1, Cut piece :=
  cut_of_mem_splitFrom (by simp)

end Piece

namespace Scan

variable {pieces : List Piece} {before : List Lexeme} {start : Position}

/-- The lexemes that were found on the way to a place, latest first: they stand at
increasing places before it, and are spelled as their kinds want. -/
structure Located (before : List Lexeme) (here : Position) : Prop where
  increasing : before.Pairwise fun later earlier =>
    earlier.token.position < later.token.position
  passed : ∀ l ∈ before, l.token.position < here
  spelled : ∀ l ∈ before, l.Spelled

namespace Located

theorem gap {text : List Char} (h : Located before start) :
    Located before (start.after text) where
  increasing := h.increasing
  passed l member := (h.passed l member).trans_le (start.le_after text)
  spelled := h.spelled

theorem lexeme {kind : Kind} {text : List Char} (h : Located before start)
    (cut : Piece.Cut ⟨some kind, text⟩) :
    Located (⟨kind, ⟨String.ofList text, start⟩⟩ :: before) (start.after text) where
  increasing := List.pairwise_cons.mpr ⟨h.passed, h.increasing⟩
  passed := by
    intro l member
    rcases List.mem_cons.mp member with rfl | old
    · exact start.lt_after cut.nonempty
    · exact (h.passed l old).trans (start.lt_after cut.nonempty)
  spelled := by
    intro l member
    rcases List.mem_cons.mp member with rfl | old
    · exact fun word only => cut.spelled kind word rfl only
    · exact h.spelled l old

end Located

theorem located_locateFrom (h : Located before start) (cut : ∀ piece ∈ pieces, piece.Cut) :
    Located (locateFrom before start pieces).1.reverse (locateFrom before start pieces).2 := by
  fun_induction locateFrom before start pieces with
  | case1 before start =>
      rw [List.reverse_reverse]
      exact h
  | case2 before start text rest ih =>
      exact ih h.gap fun piece member => cut piece (.tail _ member)
  | case3 before start kind text rest ih =>
      exact ih (h.lexeme (cut _ (.head _))) fun piece member => cut piece (.tail _ member)

theorem located_ofSource (source : String) :
    Located (ofSource source).lexemes.reverse (ofSource source).stop :=
  located_locateFrom ⟨.nil, by simp, by simp⟩ Piece.cut_of_mem_split

/-- The lexemes of a source text stand at increasing places. -/
theorem lexemes_increasing (source : String) :
    (ofSource source).lexemes.Pairwise fun a b => a.token.position < b.token.position :=
  List.pairwise_reverse.mp (located_ofSource source).increasing

theorem lexemes_spelled (source : String) : ∀ l ∈ (ofSource source).lexemes, l.Spelled :=
  fun l member => (located_ofSource source).spelled l (List.mem_reverse.mpr member)

end Scan

end BlockLang

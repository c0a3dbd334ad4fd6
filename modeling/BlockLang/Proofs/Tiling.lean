import BlockLang.Program.Parse
import BlockLang.Proofs.Scanning
import Mathlib

/-!
# The tiling of a source text

Scanning cuts a source text into pieces without losing a character. What a piece may be is
said here without the scanner: `Piece.Form` lists the lexemes and the gaps of the language,
each together with the text after it, since runs reach as far as they can and a comment ends
at the first place where it can. `Piece.Illegal` says when a character starts no piece at
all. Cutting off a piece agrees with both, so the rules of the scanner, tried in their
order, never hide one another.

A tile is a piece at an offset. The tiles of a source text follow each other from its start
to the end of the text or to an illegal character, and there is only one way to lay them.
-/

namespace BlockLang

open Lexeme (Kind)

open BlockLang.Text

namespace Lexeme.Kind

/-- The reserved words and their kinds. -/
def reserved : List (String × Kind) :=
  [("int", .intWord), ("boolean", .booleanWord), ("if", .ifWord), ("print", .printWord),
   ("true", .trueWord), ("false", .falseWord)]

/-- The characters that are lexemes by themselves, and their kinds. -/
def punctuation : List (Char × Kind) :=
  [('+', .plus), ('-', .minus), ('=', .equals), (';', .semicolon), ('(', .leftParen),
   (')', .rightParen), ('\x7b', .leftBrace), ('\x7d', .rightBrace)]

theorem ofWord_of_mem {word : String} {kind : Kind} (h : (word, kind) ∈ reserved) :
    ofWord word = kind := by
  have table : ∀ entry ∈ reserved, ofWord entry.1 = entry.2 := by decide
  exact table _ h

theorem ofWord_of_notMem {word : String} (h : ∀ kind, (word, kind) ∉ reserved) :
    ofWord word = .identifier := by
  have other : ∀ entry ∈ reserved, word ≠ entry.1 := by
    rintro ⟨_, kind⟩ member rfl
    exact h kind member
  simp only [reserved, List.forall_mem_cons] at other
  simp [ofWord, other]

theorem ofWord_eq_iff {word : String} {kind : Kind} :
    ofWord word = kind ↔
      (word, kind) ∈ reserved ∨ kind = .identifier ∧ ∀ k, (word, k) ∉ reserved := by
  constructor
  · rintro rfl
    by_cases known : ∃ k, (word, k) ∈ reserved
    · obtain ⟨k, member⟩ := known
      exact .inl (ofWord_of_mem member ▸ member)
    · exact .inr ⟨ofWord_of_notMem (not_exists.mp known), not_exists.mp known⟩
  · rintro (member | ⟨rfl, unknown⟩)
    · exact ofWord_of_mem member
    · exact ofWord_of_notMem unknown

theorem ofChar?_eq_some_iff {c : Char} {kind : Kind} :
    ofChar? c = some kind ↔ (c, kind) ∈ punctuation := by
  unfold ofChar?
  split <;> simp_all [punctuation, eq_comm]

theorem ofChar?_eq_none_iff {c : Char} :
    ofChar? c = none ↔ ∀ kind, (c, kind) ∉ punctuation := by
  simp only [Option.eq_none_iff_forall_ne_some, Ne, ofChar?_eq_some_iff]

end Lexeme.Kind

/-- The text is a run of characters of a class, and the text after it does not go on with
the run. -/
structure IsRun (p : Char → Bool) (run after : List Char) : Prop where
  all : ∀ c ∈ run, p c = true
  maximal : ∀ c ∈ after.head?, p c = false

namespace IsRun

variable {p : Char → Bool} {c : Char} {run after text : List Char}

theorem takeWhile (h : IsRun p run after) : (run ++ after).takeWhile p = run := by
  have stops : after.takeWhile p = [] := by
    cases after with
    | nil => rfl
    | cons c rest => simp [h.maximal c rfl]
  rw [List.takeWhile_append_of_pos h.all, stops, List.append_nil]

theorem of_takeWhile (p : Char → Bool) (text : List Char) :
    IsRun p (text.takeWhile p) (text.dropWhile p) where
  all _ member := List.mem_takeWhile_imp member
  maximal c first := by
    have stopped := List.head?_dropWhile_not p text
    rwa [Option.mem_def.mp first] at stopped

theorem cons (first : p c = true) (h : IsRun p run after) : IsRun p (c :: run) after where
  all := List.forall_mem_cons.mpr ⟨first, h.all⟩
  maximal := h.maximal

theorem tail (h : IsRun p (c :: run) after) : IsRun p run after where
  all _ member := h.all _ (.tail _ member)
  maximal := h.maximal

end IsRun

namespace Piece

variable {c : Char} {text rest after : List Char} {kind : Option Kind} {count length : Nat}

/-- What a piece may be, given the text after it. -/
inductive Form (after : List Char) : Piece → Prop
  /-- One space, tab or carriage return. -/
  | space {c : Char} (blank : c = ' ' ∨ c = '\t' ∨ c = '\r') : Form after ⟨none, [c]⟩
  /-- All line feeds up to the next other character. -/
  | newlines {run : List Char} (nonempty : run ≠ []) (isRun : IsRun (· == '\n') run after) :
      Form after ⟨none, run⟩
  /-- Two slashes and the rest of their line, without the line feed. -/
  | lineComment {body : List Char} (isRun : IsRun isInLine body after) :
      Form after ⟨none, '/' :: '/' :: body⟩
  /-- A slash and a star, up to the first star and slash after them. -/
  | blockComment {body : List Char} (first : ¬ ['*', '/'] <:+: body ++ ['*']) :
      Form after ⟨none, '/' :: '*' :: (body ++ ['*', '/'])⟩
  /-- All decimal digits up to the next other character. -/
  | number {digits : List Char} (nonempty : digits ≠ [])
      (isRun : IsRun isDecimalDigit digits after) : Form after ⟨some .number, digits⟩
  /-- An ASCII letter or an underscore, and all word characters after it. The kind is that of
  a reserved word if and only if the word is one. -/
  | word {first : Char} {tail : List Char} {kind : Kind}
      (start : first.isAlpha = true ∨ first = '_') (isRun : IsRun isWordChar tail after)
      (named : (String.ofList (first :: tail), kind) ∈ Kind.reserved ∨
        kind = .identifier ∧ ∀ k, (String.ofList (first :: tail), k) ∉ Kind.reserved) :
      Form after ⟨some kind, first :: tail⟩
  /-- A punctuation character. -/
  | punctuation {c : Char} {kind : Kind} (known : (c, kind) ∈ Kind.punctuation) :
      Form after ⟨some kind, [c]⟩

/-- The character starts no piece, given the text after it. -/
structure Illegal (c : Char) (rest : List Char) : Prop where
  notSkipped : c ∉ [' ', '\t', '\r', '\n']
  notDigit : isDecimalDigit c = false
  notLetter : c.isAlpha = false
  notUnderscore : c ≠ '_'
  notPunctuation : ∀ kind, (c, kind) ∉ Kind.punctuation
  noLineComment : c = '/' → ∀ after, rest ≠ '/' :: after
  noBlockComment : c = '/' → ∀ body after, rest ≠ '*' :: (body ++ '*' :: '/' :: after)

theorem Form.nonempty {piece : Piece} (h : piece.Form after) : piece.text ≠ [] := by
  cases h with
  | newlines nonempty => exact nonempty
  | number nonempty => exact nonempty
  | _ => exact List.cons_ne_nil _ _

theorem isSpace_iff : isSpace c = true ↔ c = ' ' ∨ c = '\t' ∨ c = '\r' := by
  simp [isSpace, or_assoc]

theorem isWordStart_iff : isWordStart c = true ↔ c.isAlpha = true ∨ c = '_' := by
  simp [isWordStart]

theorem exists_zero_of_isDecimalDigit (h : isDecimalDigit c = true) :
    ∃ first ∈ digitZeros, first ≤ c.toNat ∧ c.toNat < first + 10 := by
  simp only [isDecimalDigit, digitValue?, Option.isSome_map, List.find?_isSome, Bool.and_eq_true,
    decide_eq_true_eq] at h
  exact h

theorem toNat_of_isWordStart (h : isWordStart c = true) : 0x41 ≤ c.toNat ∧ c.toNat ≤ 0x7a := by
  rcases isWordStart_iff.mp h with letter | rfl
  · simp only [Char.isAlpha, Char.isUpper, Char.isLower, Bool.or_eq_true, Bool.and_eq_true,
      decide_eq_true_eq, ge_iff_le, UInt32.le_iff_toNat_le] at letter
    change 0x41 ≤ c.toNat ∧ c.toNat ≤ 0x5a ∨ 0x61 ≤ c.toNat ∧ c.toNat ≤ 0x7a at letter
    omega
  · decide

theorem isBlank_eq_false_iff :
    isBlank c = false ↔ ∀ range ∈ Blank.ranges, range.1 ≤ c.toNat → range.2 < c.toNat := by
  simp [isBlank, CodeRange.covers]

theorem not_isBlank_of_isDecimalDigit (h : isDecimalDigit c = true) : isBlank c = false := by
  have table : ∀ first ∈ digitZeros, ∀ range ∈ Blank.ranges,
      range.2 < first ∨ first + 10 ≤ range.1 := by decide
  obtain ⟨first, member, low, high⟩ := exists_zero_of_isDecimalDigit h
  rw [isBlank_eq_false_iff]
  intro range isRange
  have apart := table first member range isRange
  omega

theorem not_isBlank_of_isWordStart (h : isWordStart c = true) : isBlank c = false := by
  have table : ∀ range ∈ Blank.ranges, range.2 < 0x41 ∨ 0x7a < range.1 := by decide
  have bounds := toNat_of_isWordStart h
  rw [isBlank_eq_false_iff]
  intro range isRange
  have apart := table range isRange
  omega

theorem not_isSpace_of_not_isBlank (h : isBlank c = false) : isSpace c = false := by
  rw [Bool.eq_false_iff, Ne, isSpace_iff]
  rintro (rfl | rfl | rfl)
  · exact absurd h (by decide)
  · exact absurd h (by decide)
  · exact absurd h (by decide)

/-- The digits of ASCII come before its letters, and all other digits after them. -/
theorem not_isDecimalDigit_of_isWordStart (h : isWordStart c = true) :
    isDecimalDigit c = false := by
  rw [Bool.eq_false_iff]
  intro digit
  obtain ⟨first, member, low, high⟩ := exists_zero_of_isDecimalDigit digit
  have table : ∀ first ∈ digitZeros, first = 0x30 ∨ 0x660 ≤ first := by decide
  have range := toNat_of_isWordStart h
  have far := table first member
  omega

/-- The first `*/` of a text is found, with all that stands before it. -/
theorem closing?_eq_some_iff :
    closing? count text = some length ↔ ∃ body after, text = body ++ '*' :: '/' :: after ∧
      ¬ ['*', '/'] <:+: body ++ ['*'] ∧ length = count + body.length + 2 := by
  constructor
  · intro h
    fun_induction closing? count text with
    | case1 count after =>
        refine ⟨[], after, rfl, by decide, ?_⟩
        exact (Option.some.inj h).symm
    | case2 count c rest other ih =>
        obtain ⟨body, after, rfl, first, rfl⟩ := ih h
        refine ⟨c :: body, after, rfl, ?_, by rw [List.length_cons]; omega⟩
        rw [List.cons_append, List.infix_cons_iff]
        rintro (here | later)
        · cases body with
          | nil => simp at here
          | cons d tail =>
              simp only [List.cons_append, List.cons_prefix_cons, List.nil_prefix, and_true] at here
              exact other _ here.1.symm (by rw [← here.2]; rfl)
        · exact first later
    | case3 => cases h
  · rintro ⟨body, after, rfl, first, rfl⟩
    induction body generalizing count with
    | nil => rfl
    | cons c tail ih =>
        rw [List.cons_append, List.infix_cons_iff, not_or] at first
        have here : ∀ later, c = '*' → tail ++ '*' :: '/' :: after ≠ '/' :: later := by
          rintro later rfl same
          cases tail with
          | nil => cases same
          | cons d more =>
              cases same
              exact first.1 (by simp)
        rw [List.cons_append, closing?]
        · rw [ih first.2, List.length_cons]
          congr 1
          omega
        · intro later isStar same
          exact here later isStar same

/-- A text in which no `*/` is found has none. -/
theorem closing?_eq_none_iff :
    closing? count text = none ↔ ∀ body after, text ≠ body ++ '*' :: '/' :: after := by
  constructor
  · rintro h body after rfl
    induction body generalizing count with
    | nil => cases h
    | cons c tail ih =>
        rw [List.cons_append, closing?.eq_def] at h
        split at h
        · cases h
        · rename_i same
          cases same
          exact ih h
        · rename_i same
          cases same
  · intro h
    cases found : closing? count text with
    | none => rfl
    | some length =>
        obtain ⟨body, after, same, _⟩ := closing?_eq_some_iff.mp found
        exact absurd same (h body after)

theorem comment?_eq_none_iff :
    comment? rest = none ↔ (∀ after, rest ≠ '/' :: after) ∧
      ∀ body after, rest ≠ '*' :: (body ++ '*' :: '/' :: after) := by
  fun_cases comment? rest with
  | case1 rest => simp
  | case2 rest => simp [closing?_eq_none_iff]
  | case3 rest noLine noBlock =>
      simp only [true_iff]
      exact ⟨noLine, fun body after => noBlock _⟩

/-- A comment that is measured has the form of a comment. -/
theorem exists_form_of_comment? (h : comment? rest = some length) :
    ∃ comment after, '/' :: rest = comment ++ after ∧ comment.length = length ∧
      Form after ⟨none, comment⟩ := by
  unfold comment? at h
  split at h
  · rename_i rest
    have isRun := IsRun.of_takeWhile isInLine rest
    refine ⟨_, _, ?_, ?_, .lineComment isRun⟩
    · simp
    · rw [← Option.some.inj h, List.length_cons, List.length_cons]
      omega
  · obtain ⟨body, after, rfl, first, rfl⟩ := closing?_eq_some_iff.mp h
    refine ⟨_, after, ?_, ?_, .blockComment first⟩
    · simp
    · simp only [List.length_cons, List.length_append, List.length_nil]
      omega
  · cases h

/-- What is measured at the start of a text has the form of a piece. -/
theorem exists_form_of_measure? (h : measure? text = some (kind, length)) :
    ∃ piece after, text = piece ++ after ∧ piece.length = length ∧ Form after ⟨kind, piece⟩ := by
  cases text with
  | nil => cases h
  | cons c rest =>
      simp only [measure?] at h
      split_ifs at h with space digit letter newline slash
      · cases h
        exact ⟨[c], rest, rfl, rfl, .space (isSpace_iff.mp space)⟩
      · cases h
        have isRun := (IsRun.of_takeWhile isDecimalDigit rest).cons digit
        exact ⟨_, _, by simp, by simp [Nat.add_comm], .number (List.cons_ne_nil _ _) isRun⟩
      · cases h
        have isRun := IsRun.of_takeWhile isWordChar rest
        exact ⟨_, _, by simp, rfl,
          .word (isWordStart_iff.mp letter) isRun (Kind.ofWord_eq_iff.mp rfl)⟩
      · cases h
        have isRun := (IsRun.of_takeWhile (· == '\n') rest).cons (c := c) (by simp [newline])
        exact ⟨_, _, by simp, by simp [Nat.add_comm], .newlines (List.cons_ne_nil _ _) isRun⟩
      · simp only [Option.map_eq_some_iff, Prod.mk.injEq] at h
        obtain ⟨_, measured, rfl, rfl⟩ := h
        subst slash
        exact exists_form_of_comment? measured
      · simp only [Option.map_eq_some_iff, Prod.mk.injEq] at h
        obtain ⟨_, single, rfl, rfl⟩ := h
        exact ⟨[c], rest, rfl, rfl, .punctuation (Kind.ofChar?_eq_some_iff.mp single)⟩

/-- A piece that has one of the forms is measured as such. The classes of the characters
that pieces start with do not overlap. -/
theorem measure?_of_form {piece : List Char} (h : Form after ⟨kind, piece⟩) :
    measure? (piece ++ after) = some (kind, piece.length) := by
  cases h with
  | space blank => simp [measure?, isSpace_iff.mpr blank]
  | newlines nonempty isRun =>
      obtain ⟨c, run, rfl⟩ := List.exists_cons_of_ne_nil nonempty
      have newline : c = '\n' := beq_iff_eq.mp (isRun.all c (.head _))
      subst newline
      have others : isSpace '\n' = false ∧ isDecimalDigit '\n' = false ∧
        isWordStart '\n' = false := by decide
      simp [measure?, others, isRun.tail.takeWhile, Nat.add_comm]
  | @lineComment body isRun =>
      have others : isSpace '/' = false ∧ isDecimalDigit '/' = false ∧
        isWordStart '/' = false := by decide
      simp [measure?, others, comment?, isRun.takeWhile]
      omega
  | @blockComment body first =>
      have others : isSpace '/' = false ∧ isDecimalDigit '/' = false ∧
        isWordStart '/' = false := by decide
      have closed : closing? 2 (body ++ '*' :: '/' :: after) = some (2 + body.length + 2) :=
        closing?_eq_some_iff.mpr ⟨body, after, rfl, first, rfl⟩
      simp [measure?, others, comment?, closed]
      omega
  | number nonempty isRun =>
      obtain ⟨c, run, rfl⟩ := List.exists_cons_of_ne_nil nonempty
      have digit := isRun.all c (.head _)
      have space := not_isSpace_of_not_isBlank (not_isBlank_of_isDecimalDigit digit)
      simp [measure?, space, digit, isRun.tail.takeWhile, Nat.add_comm]
  | word start isRun named =>
      have letter := isWordStart_iff.mpr start
      have space := not_isSpace_of_not_isBlank (not_isBlank_of_isWordStart letter)
      simp only [List.cons_append, measure?, space, not_isDecimalDigit_of_isWordStart letter,
        letter, isRun.takeWhile, Kind.ofWord_eq_iff.mpr named, Bool.false_eq_true, if_false,
        if_true]
  | punctuation known =>
      have others : ∀ entry ∈ Kind.punctuation, isSpace entry.1 = false ∧
          isDecimalDigit entry.1 = false ∧ isWordStart entry.1 = false ∧ entry.1 ≠ '\n' ∧
          entry.1 ≠ '/' := by decide
      simp [measure?, others _ known, Kind.ofChar?_eq_some_iff.mpr known]

/-- Cutting off a piece: the pieces that are cut off are those that have one of the forms. -/
theorem next?_eq_some_iff {piece : Piece} :
    next? text = some (piece, after) ↔ text = piece.text ++ after ∧ piece.Form after := by
  simp only [next?, Option.map_eq_some_iff, Prod.exists, Prod.mk.injEq]
  constructor
  · rintro ⟨kind, length, measured, rfl, rfl⟩
    obtain ⟨piece, after, rfl, rfl, form⟩ := exists_form_of_measure? measured
    rw [List.take_left, List.drop_left]
    exact ⟨rfl, form⟩
  · rintro ⟨rfl, form⟩
    exact ⟨_, _, measure?_of_form form, by rw [List.take_left], List.drop_left⟩

theorem measure?_cons_eq_none_iff :
    measure? (c :: rest) = none ↔ isSpace c = false ∧ isDecimalDigit c = false ∧
      isWordStart c = false ∧ c ≠ '\n' ∧ (c = '/' → comment? rest = none) ∧
      (c ≠ '/' → Kind.ofChar? c = none) := by
  simp only [measure?]
  split_ifs <;> simp_all

theorem next?_cons_eq_none_iff : next? (c :: rest) = none ↔ Illegal c rest := by
  rw [next?, Option.map_eq_none_iff, measure?_cons_eq_none_iff]
  simp only [Bool.eq_false_iff, Ne, isSpace_iff, isWordStart_iff, not_or, comment?_eq_none_iff,
    Kind.ofChar?_eq_none_iff]
  constructor
  · rintro ⟨space, digit, ⟨letter, underscore⟩, newline, comment, single⟩
    have notPunctuation : ∀ kind, (c, kind) ∉ Kind.punctuation := by
      intro kind member
      by_cases slash : c = '/'
      · subst slash
        revert kind
        simp [Kind.punctuation]
      · exact single slash kind member
    exact ⟨by simp [space, newline], by simpa using digit, by simpa using letter, underscore,
      notPunctuation, fun slash => (comment slash).1, fun slash => (comment slash).2⟩
  · intro h
    have skipped := h.notSkipped
    simp only [List.mem_cons, List.not_mem_nil, or_false, not_or] at skipped
    exact ⟨⟨skipped.1, skipped.2.1, skipped.2.2.1⟩, by simp [h.notDigit],
      ⟨by simp [h.notLetter], h.notUnderscore⟩, skipped.2.2.2,
      fun slash => ⟨h.noLineComment slash, h.noBlockComment slash⟩, fun _ => h.notPunctuation⟩

end Piece

/-- A piece of a text at an offset. -/
structure Tile where
  offset : Nat
  piece : Piece
deriving DecidableEq, Repr

namespace Tile

/-- The offset at which the tile ends. -/
def stop (t : Tile) : Nat := t.offset + t.piece.text.length

/-- The tile shows the slice of the text at its offset, which has the form of a piece. -/
structure Fits (text : List Char) (t : Tile) : Prop where
  slice : (text.drop t.offset).take t.piece.text.length = t.piece.text
  form : t.piece.Form (text.drop t.stop)

/-- The tiles lie side by side on a text, from one offset to another. -/
def Covers (text : List Char) : Nat → List Tile → Nat → Prop
  | start, [], stop => start = stop
  | start, t :: rest, stop => t.offset = start ∧ t.Fits text ∧ Covers text t.stop rest stop

/-- The lexeme that the tile shows, if it is no gap. -/
def lexeme? (text : List Char) (t : Tile) : Option Lexeme :=
  t.piece.kind.map fun kind =>
    ⟨kind, String.ofList t.piece.text, Position.start.after (text.take t.offset)⟩

variable {text after : List Char} {t : Tile} {tiles tiles' : List Tile} {piece : Piece}
  {start stop stop' : Nat}

namespace Fits

theorem drop_eq (h : t.Fits text) : text.drop t.offset = t.piece.text ++ text.drop t.stop := by
  have halves := List.take_append_drop t.piece.text.length (text.drop t.offset)
  rw [h.slice, List.drop_drop] at halves
  exact halves.symm

theorem take_eq (h : t.Fits text) : text.take t.stop = text.take t.offset ++ t.piece.text := by
  rw [Tile.stop, List.take_add, h.slice]

/-- The text around a tile. -/
theorem eq_append (h : t.Fits text) :
    text = text.take t.offset ++ t.piece.text ++ text.drop t.stop := by
  rw [← h.take_eq, List.take_append_drop]

theorem stop_le (h : t.Fits text) : t.stop ≤ text.length := by
  have cut := congrArg List.length h.slice
  have nonempty := List.length_pos_iff.mpr h.form.nonempty
  rw [List.length_take, List.length_drop] at cut
  rw [Tile.stop]
  omega

/-- A tile is what is cut off at its offset. -/
theorem next? (h : t.Fits text) :
    Piece.next? (text.drop t.offset) = some (t.piece, text.drop t.stop) :=
  Piece.next?_eq_some_iff.mpr ⟨h.drop_eq, h.form⟩

theorem of_next? (h : Piece.next? (text.drop start) = some (piece, after)) :
    Fits text ⟨start, piece⟩ ∧ after = text.drop (start + piece.text.length) := by
  obtain ⟨same, form⟩ := Piece.next?_eq_some_iff.mp h
  have rest : after = text.drop (start + piece.text.length) := by
    rw [← List.drop_drop, same, List.drop_left]
  refine ⟨⟨?_, ?_⟩, rest⟩
  · rw [same, List.take_left]
  · rwa [Tile.stop, ← rest]

end Fits

namespace Covers

theorem stop_le (h : Covers text start tiles stop) (bound : start ≤ text.length) :
    stop ≤ text.length := by
  induction tiles generalizing start with
  | nil => exact h ▸ bound
  | cons t rest ih => exact ih h.2.2 h.2.1.stop_le

theorem fits (h : Covers text start tiles stop) (member : t ∈ tiles) : t.Fits text := by
  induction tiles generalizing start with
  | nil => cases member
  | cons first rest ih =>
      rcases List.mem_cons.mp member with rfl | later
      · exact h.2.1
      · exact ih h.2.2 later

/-- Tiles that go as far as possible are laid in only one way. -/
theorem unique (h : Covers text start tiles stop) (h' : Covers text start tiles' stop')
    (stuck : Piece.next? (text.drop stop) = none)
    (stuck' : Piece.next? (text.drop stop') = none) : tiles' = tiles ∧ stop' = stop := by
  induction tiles generalizing start tiles' with
  | nil =>
      cases h
      cases tiles' with
      | nil => exact ⟨rfl, h'.symm⟩
      | cons t rest =>
          obtain ⟨rfl, fits, _⟩ := h'
          rw [fits.next?] at stuck
          cases stuck
  | cons t rest ih =>
      obtain ⟨rfl, fits, others⟩ := h
      cases tiles' with
      | nil =>
          cases h'
          rw [fits.next?] at stuck'
          cases stuck'
      | cons t' rest' =>
          obtain ⟨same, fits', others'⟩ := h'
          have cut := fits'.next?
          rw [same, fits.next?, Option.some.injEq, Prod.mk.injEq] at cut
          obtain rfl : t = t' := by
            cases t
            cases t'
            exact congr (congrArg Tile.mk same.symm) cut.1
          obtain ⟨rfl, rfl⟩ := ih others others'
          exact ⟨rfl, rfl⟩

end Covers

/-- Splitting lays tiles until nothing can be cut off. -/
theorem exists_covers_splitFrom (text : List Char) (before : List Piece) (start : Nat) :
    ∃ tiles stop, Covers text start tiles stop ∧
      Piece.splitFrom before (text.drop start) =
        (before.reverse ++ tiles.map Tile.piece, text.drop stop) ∧
      Piece.next? (text.drop stop) = none := by
  generalize remaining : text.drop start = rest
  fun_induction Piece.splitFrom before rest generalizing start with
  | case1 before rest ended =>
      subst remaining
      exact ⟨[], start, rfl, by simp, ended⟩
  | case2 before rest piece after cut _ ih =>
      subst remaining
      obtain ⟨fits, rfl⟩ := Fits.of_next? cut
      obtain ⟨tiles, stop, covers, split, stuck⟩ := ih _ rfl
      refine ⟨⟨start, piece⟩ :: tiles, stop, ⟨rfl, fits, covers⟩, ?_, stuck⟩
      rw [split, List.reverse_cons, List.append_assoc]
      rfl

/-- The lexemes of tiles, and the place after them. -/
theorem locateFrom_eq (h : Covers text start tiles stop) (before : List Lexeme) :
    Scan.locateFrom before (Position.start.after (text.take start)) (tiles.map Tile.piece) =
      (before.reverse ++ tiles.filterMap (lexeme? text),
        Position.start.after (text.take stop)) := by
  induction tiles generalizing start before with
  | nil =>
      cases h
      simp [Scan.locateFrom]
  | cons t rest ih =>
      obtain ⟨rfl, fits, others⟩ := h
      have place : (Position.start.after (text.take t.offset)).after t.piece.text =
          Position.start.after (text.take t.stop) := by
        rw [fits.take_eq, Position.after_append]
      obtain ⟨offset, ⟨kind, piece⟩⟩ := t
      cases kind with
      | none =>
          rw [List.map_cons, Scan.locateFrom, place, ih others, List.filterMap_cons_none rfl]
      | some kind =>
          rw [List.map_cons, Scan.locateFrom, place, ih others]
          simp [lexeme?]

end Tile

/-- How scanning lays tiles on a source text. -/
structure Scan.TiledBy (source : String) (tiles : List Tile) (stop : Nat) : Prop where
  covers : Tile.Covers source.toList 0 tiles stop
  lexemes : (Scan.ofSource source).lexemes = tiles.filterMap (Tile.lexeme? source.toList)
  place : (Scan.ofSource source).stop = Position.start.after (source.toList.take stop)
  rest : (Piece.split source.toList).2 = source.toList.drop stop
  illegal : (Scan.ofSource source).illegal = (source.toList.drop stop).head?
  stuck : Piece.next? (source.toList.drop stop) = none

theorem Scan.exists_tiledBy (source : String) : ∃ tiles stop, TiledBy source tiles stop := by
  obtain ⟨tiles, stop, covers, split, stuck⟩ :=
    Tile.exists_covers_splitFrom source.toList [] 0
  rw [List.drop_zero] at split
  have located := Tile.locateFrom_eq covers []
  refine ⟨tiles, stop, covers, ?_, ?_, congrArg Prod.snd split, ?_, stuck⟩
  · simp only [ofSource, Piece.split, split, locate]
    exact congrArg Prod.fst located
  · simp only [ofSource, Piece.split, split, locate]
    exact congrArg Prod.snd located
  · simp only [ofSource, Piece.split, split]

/-- The lexeme stands in a text at its place, in the form of its kind. -/
structure Lexeme.Stands (text before after : List Char) (l : Lexeme) : Prop where
  whole : text = before ++ l.token.text.toList ++ after
  place : l.token.position = Position.start.after before
  form : Piece.Form after ⟨some l.kind, l.token.text.toList⟩

theorem Scan.exists_stands {source : String} {l : Lexeme}
    (member : l ∈ (ofSource source).lexemes) :
    ∃ before after, l.Stands source.toList before after := by
  obtain ⟨tiles, stop, h⟩ := exists_tiledBy source
  rw [h.lexemes, List.mem_filterMap] at member
  obtain ⟨t, isTile, shown⟩ := member
  simp only [Tile.lexeme?, Option.map_eq_some_iff] at shown
  obtain ⟨kind, isKind, rfl⟩ := shown
  have fits := h.covers.fits isTile
  refine ⟨source.toList.take t.offset, source.toList.drop t.stop, ?_, rfl, ?_⟩
  · simpa using fits.eq_append
  · simpa [← isKind] using fits.form

/-- Scanning goes on until the end of the text or to an illegal character. -/
theorem Piece.next?_eq_none_iff {text : List Char} :
    next? text = none ↔ ∀ c rest, text = c :: rest → Illegal c rest := by
  cases text with
  | nil => simp [next?, measure?]
  | cons c rest =>
      rw [next?_cons_eq_none_iff]
      constructor
      · rintro h _ _ ⟨⟩
        exact h
      · intro h
        exact h c rest rfl

/-- A source text with a word that begins like a reserved one, digits of two scripts that a
letter follows, and two comments, of which the second one is not closed. -/
def unclosedSource : String := "iffy=\u06634a/*/*/ /*/"

end BlockLang

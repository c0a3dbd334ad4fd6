import BlockLang.Proofs.Parsing
import BlockLang.Proofs.Tiling
import Mathlib.Data.List.DropRight

/-!
# The places of tokens

Scanning keeps the place of every lexeme while it moves over the source text. The place is
the true one: split the source text at its line feeds, and the text of each token is found on
the line with its number, from its column on. The line of the place where scanning stops is
one more than the number of line feeds that scanning has passed.
-/

namespace BlockLang

open Lexeme (Kind)

open Piece (isInLine)

@[simp] theorem Piece.isInLine_iff {c : Char} : isInLine c = true ↔ c ≠ '\n' := by
  simp [isInLine]

namespace Position

theorem line_after (p : Position) (text : List Char) :
    (p.after text).line = p.line + text.count '\n' := by
  induction text generalizing p with
  | nil => simp
  | cons c rest ih =>
      rw [after_cons, ih, advance, List.count_cons]
      split
      · simp [*]
        omega
      · simp [*]

/-- The column is the number of characters after the last line feed. -/
theorem column_after (text : List Char) :
    (start.after text).column = (text.rtakeWhile isInLine).length := by
  induction text using List.reverseRecOn with
  | nil => rfl
  | append_singleton before c ih =>
      rw [after_append, after_cons, after_nil, advance, List.rtakeWhile_concat]
      by_cases newline : c = '\n'
      · simp [newline]
      · simp [newline, ih]

end Position

namespace Text

theorem getElem?_splitOn_zero (text : List Char) :
    (text.splitOn '\n')[0]? = some (text.takeWhile isInLine) := by
  induction text with
  | nil => rfl
  | cons c rest ih =>
      rw [List.splitOn_cons_eq_if_modifyHead]
      by_cases newline : c = '\n'
      · simp [newline]
      · simp [newline, ih]

theorem length_splitOn (text : List Char) :
    (text.splitOn '\n').length = text.count '\n' + 1 := by
  induction text with
  | nil => rfl
  | cons c rest ih =>
      rw [List.splitOn_cons_eq_if_modifyHead, List.count_cons]
      by_cases newline : c = '\n'
      · simp [newline, ih]
      · simp [newline, ih]

/-- The line on which a text is cut in two, for lines that end at line feeds. -/
theorem getElem?_splitOn_append (before after : List Char) :
    ((before ++ after).splitOn '\n')[before.count '\n']? =
      some (before.rtakeWhile isInLine ++ after.takeWhile isInLine) := by
  induction before using List.reverseRecOn generalizing after with
  | nil => exact getElem?_splitOn_zero after
  | append_singleton before c ih =>
      rw [List.append_assoc, List.singleton_append, List.rtakeWhile_concat]
      by_cases newline : c = '\n'
      · subst newline
        have passed : (before ++ ['\n']).count '\n' = (before.splitOn '\n').length := by
          simp [length_splitOn]
        rw [List.splitOn_append_cons_self, passed, List.getElem?_append_right (le_refl _),
          Nat.sub_self, getElem?_splitOn_zero]
        simp
      · have same : (before ++ [c]).count '\n' = before.count '\n' := by
          simp [newline]
        rw [same, ih]
        simp [newline]

end Text

/-- A character that is no part of numbers and words stands in lexemes of its own kind only. -/
theorem Piece.Form.notMem {after text : List Char} {kind : Kind} {c : Char}
    (h : Form after ⟨some kind, text⟩)
    (foreign : Text.isDecimalDigit c = false ∧ ¬ (c.isAlpha = true ∨ c = '_') ∧
      Text.isWordChar c = false)
    (mark : (c, kind) ∉ Kind.punctuation) : c ∉ text := by
  obtain ⟨notDigit, notStart, notInWord⟩ := foreign
  cases h with
  | number _ isRun =>
      intro member
      exact Bool.eq_false_iff.mp notDigit (isRun.all c member)
  | word start isRun _ =>
      rintro (_ | ⟨_, member⟩)
      · exact notStart start
      · exact Bool.eq_false_iff.mp notInWord (isRun.all c member)
  | punctuation known =>
      intro member
      rw [List.mem_singleton.mp member] at mark
      exact mark known

/-- No lexeme goes on over the end of a line. -/
theorem Piece.Form.newline_notMem {after text : List Char} {kind : Kind}
    (h : Form after ⟨some kind, text⟩) : '\n' ∉ text := by
  have table : ∀ entry ∈ Kind.punctuation, entry.1 ≠ '\n' := by decide
  exact h.notMem (by decide) fun known => table _ known rfl

/-- The tokens of a program are those of the lexemes of its source text. -/
theorem Program.exists_lexeme_of_mem {source : String} {p : Program} {tok : Token}
    (parsed : parse source = .ok p) (member : tok ∈ Node.tokensAll p.stmts) :
    ∃ l ∈ (Scan.ofSource source).lexemes, l.token = tok := by
  obtain ⟨_, list, same, rfl⟩ := parse_eq_ok_iff.mp parsed
  rw [← same]
  exact List.mem_map.mp (list.tokens_sublist.subset member)

namespace Lexeme.Stands

variable {text before after : List Char} {l : Lexeme}

theorem line_eq (h : l.Stands text before after) : l.token.line = 1 + before.count '\n' := by
  rw [Token.line, h.place, Position.line_after]
  rfl

theorem column_eq (h : l.Stands text before after) :
    l.token.column = (before.rtakeWhile isInLine).length := by
  rw [Token.column, h.place, Position.column_after]

theorem index_eq (h : l.Stands text before after) :
    (l.token.line - 1).toNat = before.count '\n' := by
  have line := h.line_eq
  omega

/-- The line with the number of the lexeme is the one on which the lexeme stands. -/
theorem getElem?_splitOn (h : l.Stands text before after) :
    (text.splitOn '\n')[(l.token.line - 1).toNat]? =
      some (before.rtakeWhile isInLine ++ (l.token.text.toList ++ after).takeWhile isInLine) := by
  rw [h.index_eq, h.whole, List.append_assoc]
  exact Text.getElem?_splitOn_append before _

/-- The text of the lexeme begins at its column. -/
theorem take_drop (h : l.Stands text before after) :
    ((before.rtakeWhile isInLine ++ (l.token.text.toList ++ after).takeWhile isInLine).drop
      l.token.column.toNat).take l.token.text.length = l.token.text.toList := by
  have inLine : ∀ c ∈ l.token.text.toList, isInLine c = true := by
    intro c within
    rw [Piece.isInLine_iff]
    rintro rfl
    exact h.form.newline_notMem within
  rw [h.column_eq, Int.toNat_natCast, List.drop_left, List.takeWhile_append_of_pos inLine]
  exact List.take_left

end Lexeme.Stands

/-- Recorded places are true. In a program that is read from a source text, every token
stands at its place: on the line with its number, of the lines between line feeds, its text
begins at its column, and its line is one more than the number of line feeds before it. For
every source text, the line on which scanning stops is one more than the number of line feeds
in all of the text, or in the text before the illegal character. -/
theorem recorded_places_are_true (source : String) :
    (∀ p, Program.parse source = .ok p → ∀ tok ∈ Node.tokensAll p.stmts,
      ∃ before after line, source.toList = before ++ tok.text.toList ++ after ∧
        tok.position = Position.start.after before ∧
        tok.line = 1 + before.count '\n' ∧ 0 ≤ tok.column ∧
        (source.toList.splitOn '\n')[(tok.line - 1).toNat]? = some line ∧
        (line.drop tok.column.toNat).take tok.text.length = tok.text.toList) ∧
    ((Scan.ofSource source).illegal = none →
      (Scan.ofSource source).stop.line = 1 + source.toList.count '\n') ∧
    ∀ c, (Scan.ofSource source).illegal = some c →
      ∃ before after, source.toList = before ++ c :: after ∧
        (Piece.split source.toList).2 = c :: after ∧
        (Scan.ofSource source).stop.line = 1 + before.count '\n' := by
  obtain ⟨tiles, stop, tiled⟩ := Scan.exists_tiledBy source
  have line : (Scan.ofSource source).stop.line = 1 + (source.toList.take stop).count '\n' := by
    rw [tiled.place, Position.line_after]
    rfl
  refine ⟨?_, ?_, ?_⟩
  · intro p parsed tok member
    obtain ⟨l, isLexeme, rfl⟩ := Program.exists_lexeme_of_mem parsed member
    obtain ⟨before, after, h⟩ := Scan.exists_stands isLexeme
    have column := h.column_eq
    exact ⟨before, after, _, h.whole, h.place, h.line_eq, by omega, h.getElem?_splitOn,
      h.take_drop⟩
  · intro complete
    rw [tiled.illegal, List.head?_eq_none_iff, List.drop_eq_nil_iff] at complete
    rw [line, List.take_of_length_le complete]
  · intro c illegal
    rw [tiled.illegal, List.head?_eq_some_iff] at illegal
    obtain ⟨after, remaining⟩ := illegal
    refine ⟨source.toList.take stop, after, ?_, tiled.rest.trans remaining, line⟩
    rw [← remaining, List.take_append_drop]

/-- A source text whose lines end in several ways, with line ends inside its comments. -/
def scatteredSource : String :=
  "/* \u00e9\n*/ int x = 1; // \u2028\r\n\x7b x = x + 1; \x7d"

/-- The program of `scatteredSource`. -/
def Program.scattered : Program where
  stmts := [
    .varDecl ⟨"int", 2, 3⟩ ⟨"x", 2, 7⟩ ⟨"=", 2, 9⟩ (.intLit ⟨"1", 2, 11⟩),
    .block ⟨"\x7b", 3, 0⟩
      [.assign ⟨"x", 3, 2⟩ ⟨"=", 3, 4⟩
        (.binary ⟨"+", 3, 8⟩ (.ident ⟨"x", 3, 6⟩) (.intLit ⟨"1", 3, 10⟩))]]

theorem parse_scatteredSource : Program.parse scatteredSource = .ok .scattered := by
  cbv

theorem recorded_places_are_true_scattered :
    Program.parse scatteredSource = .ok .scattered ∧
    (∃ before after line, scatteredSource.toList = before ++ ['+'] ++ after ∧
      (3 : Int) = 1 + before.count '\n' ∧
      (scatteredSource.toList.splitOn '\n')[2]? = some line ∧ (line.drop 8).take 1 = ['+']) ∧
    (Scan.ofSource scatteredSource).stop.line = 1 + scatteredSource.toList.count '\n' := by
  obtain ⟨tokens, complete, _⟩ := recorded_places_are_true scatteredSource
  have member : (⟨"+", 3, 8⟩ : Token) ∈ Node.tokensAll Program.scattered.stmts := by decide
  obtain ⟨before, after, line, whole, _, number, _, found, shown⟩ :=
    tokens _ parse_scatteredSource _ member
  exact ⟨parse_scatteredSource, ⟨before, after, line, whole, number, found, shown⟩,
    complete (by cbv)⟩

end BlockLang

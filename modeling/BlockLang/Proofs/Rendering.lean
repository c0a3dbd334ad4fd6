import BlockLang.Proofs.Places
import BlockLang.Proofs.SourceOrder

/-!
# The source line of a diagnostic

The number of a line counts line feeds only. A diagnostic is shown with the line of that
number, but of the lines that end at every kind of line end. The two agree as long as all
line ends before the token of the diagnostic are line feeds, possibly with a carriage return
before them. Each other line end, which may stand in a comment or between lexemes, moves the
line of the token by one, while the line that is shown stays where it is.

`Text.strayEnds` counts these line ends. Without any of them before its token, a diagnostic is
shown with the line of the token, and the caret is below the first character of the token; the
line is shown to its end unless a line end that is not a line feed is followed by more text.
Stray line ends only add lines, so there always is a line to show, and the caret below it.
-/

namespace BlockLang

open Lexeme (Kind)

open Piece (isInLine)

/-- A place is that of only one cut of a text. -/
theorem Position.before_unique {p : Position} {before rest before' rest' : List Char}
    (same : before ++ rest = before' ++ rest') (place : p.after before = p.after before') :
    before = before' := by
  rcases List.append_eq_append_iff.mp same with ⟨gap, rfl, _⟩ | ⟨gap, rfl, _⟩
  · by_cases empty : gap = []
    · simp [empty]
    · rw [after_append] at place
      exact absurd place ((p.after before).lt_after empty).ne
  · by_cases empty : gap = []
    · simp [empty]
    · rw [after_append] at place
      exact absurd place ((p.after before').lt_after empty).ne'

namespace Text

/-- Whether a character stays within its line, for every kind of line end. -/
def isUnbroken (c : Char) : Bool := !isLineEnd c

/-- The number of line ends that are neither line feeds nor carriage returns before them. -/
def strayEnds : List Char → Nat
  | [] => 0
  | '\r' :: '\n' :: rest => strayEnds rest
  | c :: rest => (if isLineEnd c ∧ c ≠ '\n' then 1 else 0) + strayEnds rest

/-- The line on which a text is cut in two, given the characters that stay within a line. -/
def lineAround (p : Char → Bool) (before after : List Char) : List Char :=
  before.rtakeWhile p ++ after.takeWhile p

/-- The text without the blank characters at its end. -/
def trimmed (text : List Char) : List Char := text.rdropWhile isBlank

variable {c : Char} {text before rest : List Char} {p : Char → Bool}

theorem trimEnd_ofList (text : List Char) :
    trimEnd (String.ofList text) = String.ofList (trimmed text) := by
  simp [trimEnd, trimmed, List.rdropWhile]

theorem isInLine_of_isUnbroken (h : isUnbroken c = true) : isInLine c = true := by
  rw [Piece.isInLine_iff]
  rintro rfl
  exact absurd h (by decide)

theorem isBlank_of_isLineEnd (h : isLineEnd c = true) : isBlank c = true := by
  simp only [isLineEnd, CodeRange.covers, List.any_cons, List.any_nil, Bool.or_false,
    Bool.or_eq_true, Bool.and_eq_true, decide_eq_true_eq] at h
  simp only [isBlank, CodeRange.covers, Blank.ranges, List.any_cons, List.any_nil, Bool.or_false,
    Bool.or_eq_true, Bool.and_eq_true, decide_eq_true_eq]
  omega

theorem isUnbroken_of_not_isBlank (h : isBlank c = false) : isUnbroken c = true := by
  rw [isUnbroken, Bool.not_eq_true', Bool.eq_false_iff]
  intro ends
  rw [isBlank_of_isLineEnd ends] at h
  cases h

/-- Trimming stops at a character that is not blank. -/
theorem trimmed_append_cons (visible : isBlank c = false) (front back : List Char) :
    trimmed (front ++ c :: back) = front ++ c :: trimmed back := by
  unfold trimmed
  induction back using List.reverseRecOn with
  | nil => rw [List.rdropWhile_concat_neg _ _ _ (by simp [visible]), List.rdropWhile_nil]
  | append_singleton back x ih =>
      have regroup : front ++ c :: (back ++ [x]) = (front ++ c :: back) ++ [x] := by simp
      rw [regroup, List.rdropWhile_concat, List.rdropWhile_concat, ih]
      split <;> simp

theorem trimmed_append_of_blank (blank : ∀ c ∈ rest, isBlank c = true) :
    trimmed (text ++ rest) = trimmed text := by
  unfold trimmed List.rdropWhile
  rw [List.reverse_append, List.dropWhile_append_of_pos]
  intro c member
  exact blank c (List.mem_reverse.mp member)

/-- A line that is broken off early is shown to its end if and only if nothing but blanks is
broken off. -/
theorem trimmed_takeWhile_eq_iff (line : List Char) :
    trimmed (line.takeWhile isUnbroken) = trimmed line ↔
      ∀ c ∈ trimmed line, isLineEnd c = false := by
  constructor
  · intro same c member
    rw [← same] at member
    have kept := List.mem_takeWhile_imp ((List.rdropWhile_prefix _ _).subset member)
    simpa [isUnbroken] using kept
  · intro unbroken
    have halves : line = trimmed line ++ line.rtakeWhile isBlank :=
      List.rdropWhile_append_rtakeWhile.symm
    have kept : line.takeWhile isUnbroken =
        trimmed line ++ (line.rtakeWhile isBlank).takeWhile isUnbroken := by
      conv_lhs => rw [halves]
      apply List.takeWhile_append_of_pos
      intro c member
      simp [isUnbroken, unbroken c member]
    rw [kept, trimmed_append_of_blank]
    · exact List.rdropWhile_idempotent _ _
    · intro c member
      exact List.mem_rtakeWhile_imp ((List.takeWhile_prefix _).subset member)

theorem rtakeWhile_append_cons (stops : p c = false) (front back : List Char) :
    (front ++ c :: back).rtakeWhile p = back.rtakeWhile p := by
  induction back using List.reverseRecOn with
  | nil => rw [List.rtakeWhile_concat_neg _ _ _ (by simp [stops]), List.rtakeWhile_nil]
  | append_singleton back x ih =>
      have regroup : front ++ c :: (back ++ [x]) = (front ++ c :: back) ++ [x] := by simp
      rw [regroup, List.rtakeWhile_concat, List.rtakeWhile_concat, ih]

theorem rtakeWhile_cons (p : Char → Bool) (c : Char) (rest : List Char) :
    (c :: rest).rtakeWhile p =
      if rest.rtakeWhile p = rest ∧ p c = true then c :: rest else rest.rtakeWhile p := by
  by_cases all : ∀ x ∈ rest, p x = true
  · rw [List.rtakeWhile_eq_self_iff.mpr all]
    cases own : p c with
    | true => simpa [own] using all
    | false =>
        have stopped := rtakeWhile_append_cons own [] rest
        rw [List.nil_append, List.rtakeWhile_eq_self_iff.mpr all] at stopped
        simp [stopped]
  · rw [if_neg fun h => all (List.rtakeWhile_eq_self_iff.mp h.1)]
    push Not at all
    obtain ⟨x, member, stops⟩ := all
    obtain ⟨front, back, rfl⟩ := List.append_of_mem member
    rw [← List.cons_append, rtakeWhile_append_cons (by simpa using stops),
      rtakeWhile_append_cons (by simpa using stops)]

/-- Without stray line ends, the last line of a text is the same for both kinds of lines. -/
theorem rtakeWhile_eq_of_strayEnds (h : strayEnds text = 0) :
    text.rtakeWhile isInLine = text.rtakeWhile isUnbroken := by
  fun_induction strayEnds text with
  | case1 => rfl
  | case2 rest ih =>
      have inLine := rtakeWhile_append_cons (p := isInLine) (c := '\n') (by decide) ['\r'] rest
      have unbroken := rtakeWhile_append_cons (p := isUnbroken) (c := '\n') (by decide) ['\r'] rest
      exact inLine.trans ((ih h).trans unbroken.symm)
  | case3 c rest _ ih =>
      obtain ⟨own, others⟩ := Nat.add_eq_zero_iff.mp h
      have agree : isInLine c = isUnbroken c := by
        by_cases newline : c = '\n'
        · subst newline
          decide
        · simp_all [isInLine, isUnbroken]
      rw [rtakeWhile_cons, rtakeWhile_cons, ih others, agree]

namespace Lines

/-- A character that does not begin a pair of carriage return and line feed. -/
theorem breakFrom_cons {c : Char} {current rest : List Char}
    (single : ∀ later, c = '\r' → rest ≠ '\n' :: later) :
    breakFrom current (c :: rest) =
      if isLineEnd c then current.reverse :: breakFrom [] rest
      else breakFrom (c :: current) rest := by
  rw [breakFrom]
  exact single

/-- A character that does not begin such a pair in the front of a text, nor at its end. -/
theorem breakFrom_cons_append {c : Char} {current front rest : List Char}
    (within : ∀ later, c = '\r' → front ≠ '\n' :: later)
    (atEnd : c = '\r' → front = [] → rest.head? ≠ some '\n') :
    breakFrom current (c :: (front ++ rest)) =
      if isLineEnd c then current.reverse :: breakFrom [] (front ++ rest)
      else breakFrom (c :: current) (front ++ rest) := by
  apply breakFrom_cons
  rintro later isReturn same
  cases front with
  | nil => exact atEnd isReturn rfl (by rw [List.nil_append] at same; rw [same]; rfl)
  | cons d more => exact within more isReturn (by rw [(List.cons.inj same).1])

/-- The first line of what is left of a text. -/
theorem breakFrom_zero (current rest : List Char) (nonempty : current ≠ [] ∨ rest ≠ []) :
    (breakFrom current rest)[0]? = some (current.reverse ++ rest.takeWhile isUnbroken) := by
  have ends : isUnbroken '\r' = false := by decide
  fun_induction breakFrom current rest with
  | case1 current empty => simp_all
  | case2 current filled => simp
  | case3 current rest ih => simp [ends]
  | case4 current c rest _ ends ih => simp [isUnbroken, ends]
  | case5 current c rest _ within ih =>
      rw [ih (.inl (List.cons_ne_nil _ _))]
      simp [isUnbroken, within]

theorem breakFrom_unbroken {current rest : List Char} (nonempty : current ≠ [] ∨ rest ≠ [])
    (unbroken : ∀ c ∈ rest, isUnbroken c = true) :
    breakFrom current rest = [current.reverse ++ rest] := by
  fun_induction breakFrom current rest with
  | case1 current empty => simp_all
  | case2 current filled => simp
  | case3 current rest ih => exact absurd (unbroken '\r' (.head _)) (by decide)
  | case4 current c rest _ ends ih => simp [isUnbroken, ends] at unbroken
  | case5 current c rest _ within ih =>
      rw [ih (.inl (List.cons_ne_nil _ _)) (List.forall_mem_cons.mp unbroken).2]
      simp

/-- A line feed ends a line, also together with a carriage return before it. -/
theorem exists_breakFrom_append (current front rest : List Char) :
    ∃ passed, breakFrom current (front ++ '\n' :: rest) = passed ++ breakFrom [] rest := by
  fun_induction strayEnds front generalizing current with
  | case1 =>
      have ends : isLineEnd '\n' = true := by decide
      refine ⟨[current.reverse], ?_⟩
      rw [List.nil_append, breakFrom_cons (by simp), if_pos ends]
      rfl
  | case2 front ih =>
      obtain ⟨passed, same⟩ := ih []
      refine ⟨current.reverse :: passed, ?_⟩
      rw [List.cons_append, List.cons_append, breakFrom, same]
      rfl
  | case3 c front notPair ih =>
      by_cases pair : c = '\r' ∧ front = []
      · obtain ⟨rfl, rfl⟩ := pair
        refine ⟨[current.reverse], ?_⟩
        rw [List.cons_append, List.nil_append, breakFrom]
        rfl
      · rw [List.cons_append, breakFrom_cons_append notPair fun isReturn empty =>
          absurd ⟨isReturn, empty⟩ pair]
        split
        · obtain ⟨passed, same⟩ := ih []
          exact ⟨current.reverse :: passed, by rw [same]; rfl⟩
        · exact ih _

/-- The line on which a text is cut in two, for lines that end at every kind of line end. The
text after the cut does not begin with a line feed, so that the cut divides no line end. -/
theorem getElem?_breakFrom (current before : List Char) {first : Char} (rest : List Char)
    (whole : first ≠ '\n') (unbroken : ∀ c ∈ current, isUnbroken c = true) :
    (breakFrom current (before ++ first :: rest))[before.count '\n' + strayEnds before]? =
      some ((current.reverse ++ before).rtakeWhile isUnbroken ++
        (first :: rest).takeWhile isUnbroken) := by
  -- Counting and breaking both take a carriage return and a line feed after it together.
  fun_induction strayEnds before generalizing current with
  | case1 =>
      have same : current.reverse.rtakeWhile isUnbroken = current.reverse := by
        simpa using unbroken
      rw [List.append_nil, same]
      exact breakFrom_zero current _ (.inr (List.cons_ne_nil _ _))
  | case2 before ih =>
      have index : ('\r' :: '\n' :: before).count '\n' + strayEnds before =
          before.count '\n' + strayEnds before + 1 := by
        rw [List.count_cons_of_ne (by decide), List.count_cons_self]
        omega
      have passed : (current.reverse ++ '\r' :: '\n' :: before).rtakeWhile isUnbroken =
          before.rtakeWhile isUnbroken := by
        have regroup : current.reverse ++ '\r' :: '\n' :: before =
            (current.reverse ++ ['\r']) ++ '\n' :: before := by simp
        rw [regroup, rtakeWhile_append_cons (by decide)]
      rw [index, passed, List.cons_append, List.cons_append, breakFrom, List.getElem?_cons_succ]
      exact ih [] (by simp)
  | case3 c before notPair ih =>
      rw [List.cons_append, breakFrom_cons_append notPair fun _ _ => by simpa using whole]
      by_cases ends : isLineEnd c = true
      · have index : (c :: before).count '\n' +
            ((if isLineEnd c ∧ c ≠ '\n' then 1 else 0) + strayEnds before) =
              before.count '\n' + strayEnds before + 1 := by
          by_cases newline : c = '\n'
          · rw [if_neg fun h => h.2 newline, newline, List.count_cons_self]
            omega
          · rw [if_pos ⟨ends, newline⟩, List.count_cons_of_ne newline]
            omega
        rw [index, if_pos ends, List.getElem?_cons_succ,
          rtakeWhile_append_cons (by simp [isUnbroken, ends])]
        exact ih [] (by simp)
      · have newline : c ≠ '\n' := by
          rintro rfl
          exact absurd rfl ends
        have within : ∀ d ∈ c :: current, isUnbroken d = true :=
          List.forall_mem_cons.mpr ⟨by simpa [isUnbroken] using ends, unbroken⟩
        simpa [newline, ends] using ih (c :: current) within

end Lines

/-- What comes after the last line end is the last line. -/
theorem getLast?_lines {text : String} {front last : List Char}
    (whole : text.toList = front ++ '\n' :: last) (nonempty : last ≠ [])
    (unbroken : ∀ c ∈ last, isUnbroken c = true) :
    (lines text).getLast? = some (String.ofList last) := by
  obtain ⟨passed, same⟩ := Lines.exists_breakFrom_append [] front last
  rw [lines, whole, same, Lines.breakFrom_unbroken (.inr nonempty) unbroken]
  simp

/-- What comes after the last line feed is the last line. -/
theorem getLast?_splitOn {front last : List Char} (inLine : '\n' ∉ last) :
    ((front ++ '\n' :: last).splitOn '\n').getLast? = some last := by
  rw [List.splitOn_append_cons_self, List.splitOn_eq_singleton inLine, List.getLast?_concat]

/-- A visible character at which a text is cut in two stands on its line after all that is
before it on that line, also when the line is trimmed. -/
theorem getElem?_trimmed_lineAround (visible : isBlank c = false) (within : p c = true) :
    (trimmed (lineAround p before (c :: rest)))[(before.rtakeWhile p).length]? = some c := by
  rw [lineAround, List.takeWhile_cons_of_pos within, trimmed_append_cons visible]
  simp

/-- Without stray line ends before the cut, the line that ends at any line end is the
beginning of the one that ends at a line feed. -/
theorem lineAround_isUnbroken (h : strayEnds before = 0) (rest : List Char) :
    lineAround isUnbroken before rest = (lineAround isInLine before rest).takeWhile isUnbroken := by
  have front : ∀ c ∈ before.rtakeWhile isUnbroken, isUnbroken c = true :=
    fun _ member => List.mem_rtakeWhile_imp member
  have back : (fun c => isInLine c && isUnbroken c) = isUnbroken := by
    funext c
    cases unbroken : isUnbroken c with
    | true => simp [isInLine_of_isUnbroken unbroken]
    | false => simp
  rw [lineAround, lineAround, rtakeWhile_eq_of_strayEnds h, List.takeWhile_append_of_pos front,
    List.takeWhile_takeWhile]
  simp only [Bool.decide_and, Bool.decide_eq_true, Bool.and_comm, back]

end Text

open Text (isBlank isLineEnd isUnbroken lineAround strayEnds trimmed)

/-- A lexeme begins with a visible character. -/
theorem Piece.Form.exists_visible {after text : List Char} {kind : Kind}
    (h : Form after ⟨some kind, text⟩) :
    ∃ first tail, text = first :: tail ∧ isBlank first = false := by
  cases h with
  | number nonempty isRun =>
      obtain ⟨first, tail, rfl⟩ := List.exists_cons_of_ne_nil nonempty
      exact ⟨first, tail, rfl, not_isBlank_of_isDecimalDigit (isRun.all first (.head _))⟩
  | word start => exact ⟨_, _, rfl, not_isBlank_of_isWordStart (isWordStart_iff.mpr start)⟩
  | punctuation known =>
      have table : ∀ entry ∈ Kind.punctuation, isBlank entry.1 = false := by decide
      exact ⟨_, [], rfl, table _ known⟩

namespace Diagnostic

/-- The diagnostic with a line of text, without blanks at its end, and a caret below the
column. -/
def framed (d : Diagnostic) (line : List Char) : String :=
  d.summary ++ "\n    " ++ String.ofList (trimmed line) ++ "\n    " ++
    String.ofList (List.replicate d.column.toNat ' ') ++ "^"

variable {d : Diagnostic} {source : String} {line line' : List Char}

theorem framed_eq_iff : d.framed line = d.framed line' ↔ trimmed line = trimmed line' := by
  simp only [framed, ← String.toList_inj, String.toList_append, String.toList_ofList]
  simp

theorem render_eq_framed (positive : 1 ≤ d.line)
    (found : (Text.lines source)[(d.line - 1).toNat]? = some (String.ofList line)) :
    d.render source = d.framed line := by
  simp only [render, renderAt, lineOf?, if_pos positive, found, Text.trimEnd_ofList, framed]

/-- The line below the source line, which has the caret. -/
def caretLine (d : Diagnostic) : List Char :=
  List.replicate (4 + d.column.toNat) ' ' ++ ['^']

theorem toList_framed :
    (d.framed line).toList =
      d.summary.toList ++ "\n    ".toList ++ trimmed line ++ '\n' :: d.caretLine := by
  have indent : List.replicate (4 + d.column.toNat) ' ' =
      ' ' :: ' ' :: ' ' :: ' ' :: List.replicate d.column.toNat ' ' := by
    rw [List.replicate_add]
    rfl
  simp [framed, caretLine, indent]

theorem isUnbroken_of_mem_caretLine {c : Char} (h : c ∈ d.caretLine) : isUnbroken c = true := by
  simp only [caretLine, List.mem_append, List.mem_replicate, List.mem_singleton] at h
  rcases h with ⟨_, rfl⟩ | rfl <;> decide

end Diagnostic

namespace Lexeme.Stands

variable {source : String} {before after : List Char} {l : Lexeme}

/-- The line of a source text on which a lexeme stands, for lines that end at every kind of
line end. -/
theorem getElem?_lines (h : l.Stands source.toList before after) :
    (Text.lines source)[(l.token.line - 1).toNat + strayEnds before]? =
      some (String.ofList (lineAround isUnbroken before (l.token.text.toList ++ after))) := by
  obtain ⟨first, tail, spelled, visible⟩ := h.form.exists_visible
  have newline : first ≠ '\n' := by
    rintro rfl
    exact absurd visible (by decide)
  rw [Text.lines, List.getElem?_map, h.index_eq, h.whole, List.append_assoc, spelled,
    List.cons_append, Text.Lines.getElem?_breakFrom [] before _ newline (by simp)]
  rfl

/-- A line with the number of a lexeme is always found, though it may be an earlier one than
that of the lexeme. -/
theorem exists_render (h : l.Stands source.toList before after) (problem : Problem) :
    ∃ shown, (Text.lines source)[(l.token.line - 1).toNat]? = some (String.ofList shown) ∧
      (Report.mk problem l.token).diagnostic.render source =
        (Report.mk problem l.token).diagnostic.framed shown := by
  obtain ⟨bound, _⟩ := List.getElem?_eq_some_iff.mp h.getElem?_lines
  have found : (Text.lines source)[(l.token.line - 1).toNat]? =
      some (String.ofList (Text.lines source)[(l.token.line - 1).toNat].toList) := by
    rw [String.ofList_toList, List.getElem?_eq_getElem]
  have positive : 1 ≤ l.token.line := by
    rw [h.line_eq]
    omega
  exact ⟨_, found, Diagnostic.render_eq_framed positive found⟩

/-- Without stray line ends before a lexeme, the line with its number is the beginning of its
own line. -/
theorem shown_eq (h : l.Stands source.toList before after) (straight : strayEnds before = 0)
    {shown : List Char}
    (found : (Text.lines source)[(l.token.line - 1).toNat]? = some (String.ofList shown)) :
    shown = lineAround isUnbroken before (l.token.text.toList ++ after) := by
  have own := h.getElem?_lines
  rw [straight, Nat.add_zero, found, Option.some.injEq, String.ofList_inj] at own
  exact own

end Lexeme.Stands

/-- Diagnostics show the line with their number. A program that is read from a source text is
checked to its end. The place of each of its diagnostics is that of the first character of a
token, on the line between line feeds with that number. The diagnostic is shown with a line and
a caret, but the line is the one with that number of the lines that end at every kind of line
end; the line of the token comes after it by as many lines as there are stray line ends before
the token. If there are none, the caret is below the first character of the token, and the line
between line feeds is shown to its end if and only if no line end stands in its trimmed
text. -/
theorem diagnostics_show_numbered_line {source : String} {p : Program}
    (parsed : Program.parse source = .ok p) :
    ∃ c, Check.program p .initial = .ok () c ∧ ∀ r ∈ c.reports.toList,
      ∃ before after first tail line shown,
        source.toList = before ++ r.token.text.toList ++ after ∧
        r.diagnostic.position = Position.start.after before ∧
        r.token.text.toList = first :: tail ∧
        (source.toList.splitOn '\n')[(r.diagnostic.line - 1).toNat]? = some line ∧
        (trimmed line)[r.diagnostic.column.toNat]? = some first ∧
        (Text.lines source)[(r.diagnostic.line - 1).toNat]? = some (String.ofList shown) ∧
        r.diagnostic.render source = r.diagnostic.framed shown ∧
        (Text.lines source)[(r.diagnostic.line - 1).toNat + strayEnds before]? =
          some (String.ofList (lineAround isUnbroken before (r.token.text.toList ++ after))) ∧
        (strayEnds before = 0 → (trimmed shown)[r.diagnostic.column.toNat]? = some first ∧
          (r.diagnostic.render source = r.diagnostic.framed line ↔
            ∀ c ∈ trimmed line, isLineEnd c = false)) := by
  obtain ⟨c, ran, _⟩ := Check.completes_of_parse parsed
  refine ⟨c, ran, ?_⟩
  intro r member
  have isToken := (Check.program_reports ran).subset (List.mem_map_of_mem member)
  obtain ⟨l, isLexeme, same⟩ := Program.exists_lexeme_of_mem parsed isToken
  obtain ⟨before, after, h⟩ := Scan.exists_stands isLexeme
  obtain ⟨problem, token⟩ := r
  subst same
  obtain ⟨first, tail, spelled, visible⟩ := h.form.exists_visible
  obtain ⟨shown, found, render⟩ := h.exists_render problem
  have unbroken := Text.isUnbroken_of_not_isBlank visible
  have column : l.token.column.toNat = (before.rtakeWhile Piece.isInLine).length := by
    rw [h.column_eq, Int.toNat_natCast]
  refine ⟨before, after, first, tail, _, shown, h.whole, h.place, spelled, h.getElem?_splitOn,
    ?_, found, render, h.getElem?_lines, ?_⟩
  -- The line between line feeds has the token at its column in any case.
  · have inLine := Text.isInLine_of_isUnbroken unbroken
    rw [spelled]
    exact column ▸ Text.getElem?_trimmed_lineAround visible inLine
  -- Without stray line ends, the line that is shown is the beginning of that line.
  · intro straight
    have own := h.shown_eq straight found
    constructor
    · rw [own, spelled]
      rw [Text.rtakeWhile_eq_of_strayEnds straight] at column
      exact column ▸ Text.getElem?_trimmed_lineAround visible unbroken
    · rw [render, Diagnostic.framed_eq_iff, own, Text.lineAround_isUnbroken straight]
      exact Text.trimmed_takeWhile_eq_iff _

/-- A source text with a carriage return before a line feed, and with a form feed that only
blanks follow on its line. -/
def straightSource : String := "int x = 1; // \t\r\n  print(y); //\x0c \n"

/-- The program of `straightSource`. -/
def Program.straight : Program where
  stmts := [
    .varDecl ⟨"int", 1, 0⟩ ⟨"x", 1, 4⟩ ⟨"=", 1, 6⟩ (.intLit ⟨"1", 1, 8⟩),
    .print ⟨"print", 2, 2⟩ (.ident ⟨"y", 2, 8⟩)]

theorem parse_straightSource : Program.parse straightSource = .ok .straight := by
  cbv

/-- The only report about `straightSource`. -/
def Report.straight : Report := ⟨.undeclared "y", ⟨"y", 2, 8⟩⟩

theorem diagnostics_show_numbered_line_straight :
    ∃ c line shown, Program.parse straightSource = .ok .straight ∧
      Check.program .straight .initial = .ok () c ∧ c.reports = #[.straight] ∧
      (straightSource.toList.splitOn '\n')[1]? = some line ∧
      (Text.lines straightSource)[1]? = some (String.ofList shown) ∧
      (trimmed shown)[8]? = some 'y' ∧
      Report.straight.diagnostic.render straightSource =
        Report.straight.diagnostic.framed line := by
  obtain ⟨c, ran, reports⟩ := diagnostics_show_numbered_line parse_straightSource
  have found : c.reports = #[.straight] := by
    cases ran
    rfl
  obtain ⟨before, after, first, tail, line, shown, whole, place, spelled, numbered, _, lineFound,
    _, _, straight⟩ := reports .straight (by simp [found])
  have start : before = "int x = 1; // \t\r\n  print(".toList := by
    apply Position.before_unique (p := .start)
    · have cut : straightSource.toList = before ++ 'y' :: after := by
        rw [whole, List.append_assoc]
        rfl
      have known : straightSource.toList =
          "int x = 1; // \t\r\n  print(".toList ++ "y); //\x0c \n".toList := by cbv
      exact cut.symm.trans known
    · rw [← place]
      rfl
  have second : (straightSource.toList.splitOn '\n')[1]? =
      some "  print(y); //\x0c ".toList := by cbv
  have isLine : line = "  print(y); //\x0c ".toList := by
    have index : (Report.straight.diagnostic.line - 1).toNat = 1 := rfl
    rw [index, second] at numbered
    exact (Option.some.inj numbered).symm
  have isFirst : 'y' = first := by
    have same : ['y'] = first :: tail := spelled
    exact (List.cons.inj same).1
  have unbroken : (trimmed line).all (!isLineEnd ·) = true := by
    rw [isLine]
    cbv
  obtain ⟨pointed, complete⟩ := straight (by rw [start]; cbv)
  exact ⟨c, line, shown, parse_straightSource, ran, found, numbered, lineFound,
    isFirst ▸ pointed, complete.mpr (by simpa using unbroken)⟩

/-- A source text with a form feed inside a comment, and a problem on the next line. -/
def straySource : String := "// one\x0ctwo\nprint(u);"

/-- The program of `straySource`. -/
def Program.stray : Program where
  stmts := [.print ⟨"print", 2, 0⟩ (.ident ⟨"u", 2, 6⟩)]

/-- The only report about `straySource`. -/
def Report.stray : Report := ⟨.undeclared "u", ⟨"u", 2, 6⟩⟩

/-- The rest of the comment is shown in place of the line with the problem, and no character
stands above the caret. -/
theorem straySource_shows_comment :
    Program.parse straySource = .ok .stray ∧
      Check.program .stray .initial = .ok () ⟨.initial, #[.stray]⟩ ∧
      (straySource.toList.splitOn '\n')[1]? = some "print(u);".toList ∧
      Report.stray.diagnostic.render straySource =
        Report.stray.diagnostic.framed "two".toList ∧
      Report.stray.diagnostic.render straySource ≠
        Report.stray.diagnostic.framed "print(u);".toList ∧
      (trimmed "two".toList)[6]? = none := by
  have lines : Text.lines straySource = ["// one", "two", "print(u);"] := by cbv
  have shown : Report.stray.diagnostic.render straySource =
      Report.stray.diagnostic.framed "two".toList :=
    Diagnostic.render_eq_framed (by decide) (by rw [lines]; rfl)
  refine ⟨by cbv, rfl, by cbv, shown, ?_, rfl⟩
  rw [shown, Ne, Diagnostic.framed_eq_iff]
  decide

/-- The line of a source is shown with each diagnostic. A program that is read from a source text
is checked to its end, and the number of the line of each of its diagnostics is that of a line of
the text, though lines are counted by line feeds and the text is broken at every kind of line
end. The diagnostic is shown with this line between its summary and the caret. So it is never shown
as its summary alone, and in either reading of lines the last line that is shown is the caret,
indented by its column and four spaces more. -/
theorem diagnostics_keep_excerpt {source : String} {p : Program}
    (parsed : Program.parse source = .ok p) :
    ∃ c, Check.program p .initial = .ok () c ∧ ∀ d ∈ c.diagnostics,
      1 ≤ d.line ∧ d.line ≤ (Text.lines source).length ∧ 0 ≤ d.column ∧
      (∃ shown, (Text.lines source)[(d.line - 1).toNat]? = some (String.ofList shown) ∧
        d.render source = d.framed shown) ∧
      d.render source ≠ d.summary ∧
      ((d.render source).toList.splitOn '\n').getLast? =
        some (List.replicate (4 + d.column.toNat) ' ' ++ ['^']) ∧
      (Text.lines (d.render source)).getLast? =
        some (String.ofList (List.replicate (4 + d.column.toNat) ' ' ++ ['^'])) := by
  obtain ⟨c, ran, _⟩ := Check.completes_of_parse parsed
  refine ⟨c, ran, ?_⟩
  intro d isDiagnostic
  obtain ⟨⟨problem, token⟩, member, rfl⟩ := List.mem_map.mp isDiagnostic
  have isToken := (Check.program_reports ran).subset (List.mem_map_of_mem member)
  obtain ⟨l, isLexeme, same⟩ := Program.exists_lexeme_of_mem parsed isToken
  obtain ⟨before, after, h⟩ := Scan.exists_stands isLexeme
  subst same
  obtain ⟨shown, found, render⟩ := h.exists_render problem
  obtain ⟨inText, _⟩ := List.getElem?_eq_some_iff.mp found
  have line : (Report.mk problem l.token).diagnostic.line = 1 + before.count '\n' := h.line_eq
  have column : (Report.mk problem l.token).diagnostic.column = _ := h.column_eq
  rw [h.index_eq] at inText
  have chars := congrArg String.toList render
  rw [Diagnostic.toList_framed] at chars
  have unbroken := @Diagnostic.isUnbroken_of_mem_caretLine (Report.mk problem l.token).diagnostic
  refine ⟨by omega, by omega, by omega, ⟨shown, found, render⟩, ?_, ?_, ?_⟩
  · intro alone
    rw [alone] at chars
    simp at chars
  · rw [chars]
    apply Text.getLast?_splitOn
    intro within
    exact absurd (unbroken within) (by decide)
  · exact Text.getLast?_lines chars (by simp) fun _ => unbroken

/-- A source text with line ends of several kinds inside and between its comments. -/
def brokenSource : String := "// a\x0cb\r\n/*\u2028*/ int x = y;\r\r  print(z);"

/-- The program of `brokenSource`. -/
def Program.broken : Program where
  stmts := [
    .varDecl ⟨"int", 2, 6⟩ ⟨"x", 2, 10⟩ ⟨"=", 2, 12⟩ (.ident ⟨"y", 2, 14⟩),
    .print ⟨"print", 2, 20⟩ (.ident ⟨"z", 2, 26⟩)]

theorem parse_brokenSource : Program.parse brokenSource = .ok .broken := by
  cbv

theorem diagnostics_keep_excerpt_broken :
    ∃ c, Program.parse brokenSource = .ok .broken ∧
      Check.program .broken .initial = .ok () c ∧
      c.diagnostics.map (·.position) = [⟨2, 14⟩, ⟨2, 26⟩] ∧
      (Text.lines brokenSource).length = 6 ∧
      (∀ d ∈ c.diagnostics, d.render brokenSource = d.framed "b".toList) ∧
      c.diagnostics.map (fun d => (Text.lines (d.render brokenSource)).getLast?) =
        [some "                  ^", some "                              ^"] := by
  obtain ⟨c, ran, excerpts⟩ := diagnostics_keep_excerpt parse_brokenSource
  have lines : (Text.lines brokenSource).length = 6 := by cbv
  have second : (Text.lines brokenSource)[1]? = some (String.ofList "b".toList) := by cbv
  have onSecond : ∀ d ∈ c.diagnostics, d.line = 2 := by
    cases ran
    decide
  refine ⟨c, parse_brokenSource, ran, ?_, lines, ?_, ?_⟩
  · cases ran
    rfl
  · intro d member
    obtain ⟨_, _, _, ⟨shown, found, render⟩, _⟩ := excerpts d member
    rw [onSecond d member] at found
    have same := String.ofList_inj.mp (Option.some.inj (found.symm.trans second))
    rw [render, same]
  · have carets := List.map_congr_left fun d member => (excerpts d member).2.2.2.2.2.2
    cases ran
    exact carets

end BlockLang

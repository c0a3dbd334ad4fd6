import BlockLang.Proofs.Relabelling
import BlockLang.Proofs.Rendering

/-!
# Layout

Layout is what may stand between tokens: blanks, line feeds and comments. It can be put at the
start of a source text or after any of its tokens, and the program stays the same, apart from
the places of its tokens.

For the lexemes this has two reasons. The pieces before the layout are cut off as before, since
whether a piece is cut off depends on the first character after it only, and no layout begins
with a character that goes on with a token. And the layout is cut off as gaps, although line
feeds at its end may become one gap with those of the source text.

For the program it is enough that the lexemes are of the same kinds, so that they have a
derivation, and of the same texts: without places the two derivations have the same lexemes,
and so they are the same.
-/

namespace BlockLang

open Lexeme (Kind)

open BlockLang.Text

/-- The token at a place that says nothing. -/
def Token.withoutPlace (t : Token) : Token := ⟨t.text, 0, 0⟩

/-- The program with the places of all tokens taken away. -/
def Program.withoutPlaces : Program → Program :=
  mapTokens Token.withoutPlace Token.withoutPlace

/-- The lexeme with another token of its kind. -/
def Lexeme.mapToken (f : Token → Token) (l : Lexeme) : Lexeme := ⟨l.kind, f l.token⟩

namespace Derivation

variable (f : Token → Token)

/-- The terminal with another token of its kind. -/
def mapTerminal {kinds : List Kind} (l : Terminal kinds) : Terminal kinds :=
  ⟨l.val.mapToken f, l.property⟩

mutual

/-- The derivation of an operand with other tokens of the same kinds. -/
def Atom.map : Atom → Atom
  | .number l => .number (mapTerminal f l)
  | .truth l => .truth (mapTerminal f l)
  | .ident l => .ident (mapTerminal f l)
  | .paren left inner right => .paren (mapTerminal f left) inner.map (mapTerminal f right)

/-- The derivation of an expression with other tokens of the same kinds. -/
def Expr.map : Expr → Expr
  | .atom operand => .atom operand.map
  | .binary left op right => .binary left.map (mapTerminal f op) right.map

end

/-- The derivation of a simple statement with other tokens of the same kinds. -/
def Simple.map : Simple → Simple
  | .decl type name equals init =>
    .decl (mapTerminal f type) (mapTerminal f name) (mapTerminal f equals) (init.map f)
  | .assign name equals value =>
    .assign (mapTerminal f name) (mapTerminal f equals) (value.map f)
  | .print word left value right =>
    .print (mapTerminal f word) (mapTerminal f left) (value.map f) (mapTerminal f right)

mutual

/-- The derivation of a block with other tokens of the same kinds. -/
def Block.map : Block → Block
  | .mk left body right => .mk (mapTerminal f left) body.map (mapTerminal f right)

/-- The derivation of a statement with other tokens of the same kinds. -/
def Stmt.map : Stmt → Stmt
  | .simple inner semicolon => .simple (inner.map f) (mapTerminal f semicolon)
  | .conditional word left cond right block =>
    .conditional (mapTerminal f word) (mapTerminal f left) (cond.map f) (mapTerminal f right)
      block.map
  | .block block => .block block.map

/-- The derivation of statements with other tokens of the same kinds. -/
def Stmts.map : Stmts → Stmts
  | .empty => .empty
  | .snoc init last => .snoc init.map last.map

end

mutual

theorem Atom.lexemes_map : (atom : Atom) →
    (atom.map f).lexemes = atom.lexemes.map (Lexeme.mapToken f)
  | .number _ | .truth _ | .ident _ => rfl
  | .paren left inner right => by
    simp [Atom.map, Atom.lexemes, inner.lexemes_map, mapTerminal]

theorem Expr.lexemes_map : (expr : Expr) →
    (expr.map f).lexemes = expr.lexemes.map (Lexeme.mapToken f)
  | .atom operand => operand.lexemes_map
  | .binary left op right => by
    simp [Expr.map, Expr.lexemes, left.lexemes_map, right.lexemes_map, mapTerminal]

end

theorem Simple.lexemes_map (simple : Simple) :
    (simple.map f).lexemes = simple.lexemes.map (Lexeme.mapToken f) := by
  cases simple <;> simp [Simple.map, Simple.lexemes, Expr.lexemes_map, mapTerminal]

mutual

theorem Block.lexemes_map : (block : Block) →
    (block.map f).lexemes = block.lexemes.map (Lexeme.mapToken f)
  | .mk left body right => by
    simp [Block.map, Block.lexemes, body.lexemes_map, mapTerminal]

theorem Stmt.lexemes_map : (stmt : Stmt) →
    (stmt.map f).lexemes = stmt.lexemes.map (Lexeme.mapToken f)
  | .simple inner semicolon => by
    simp [Stmt.map, Stmt.lexemes, inner.lexemes_map, mapTerminal]
  | .conditional word left cond right block => by
    simp [Stmt.map, Stmt.lexemes, cond.lexemes_map, block.lexemes_map, mapTerminal]
  | .block block => block.lexemes_map

theorem Stmts.lexemes_map : (stmts : Stmts) →
    (stmts.map f).lexemes = stmts.lexemes.map (Lexeme.mapToken f)
  | .empty => rfl
  | .snoc init last => by
    simp [Stmts.map, Stmts.lexemes, init.lexemes_map, last.lexemes_map]

end

mutual

theorem Atom.node_map : (atom : Atom) → (atom.map f).node = atom.node.mapTokens f f
  | .number _ => by simp [Atom.map, Atom.node, Node.mapTokens, mapTerminal, Lexeme.mapToken]
  | .truth _ => by simp [Atom.map, Atom.node, Node.mapTokens, mapTerminal, Lexeme.mapToken]
  | .ident _ => by simp [Atom.map, Atom.node, Node.mapTokens, mapTerminal, Lexeme.mapToken]
  | .paren _ inner _ => inner.node_map

theorem Expr.node_map : (expr : Expr) → (expr.map f).node = expr.node.mapTokens f f
  | .atom operand => operand.node_map
  | .binary left op right => by
    simp [Expr.map, Expr.node, Node.mapTokens, left.node_map, right.node_map, mapTerminal,
      Lexeme.mapToken]

end

theorem Simple.node_map (simple : Simple) :
    (simple.map f).node = simple.node.mapTokens f f := by
  cases simple <;> simp [Simple.map, Simple.node, Node.mapTokens, Expr.node_map, mapTerminal,
    Lexeme.mapToken]

theorem Block.brace_map (block : Block) : (block.map f).brace = f block.brace := by
  cases block
  rfl

mutual

theorem Block.nodes_map : (block : Block) →
    (block.map f).nodes = Node.mapTokensAll f f block.nodes
  | .mk _ body _ => body.nodes_map

theorem Stmt.node_map : (stmt : Stmt) → (stmt.map f).node = stmt.node.mapTokens f f
  | .simple inner _ => inner.node_map f
  | .conditional _ left cond _ block => by
    simp [Stmt.map, Stmt.node, Node.mapTokens, cond.node_map, block.nodes_map, block.brace_map,
      mapTerminal, Lexeme.mapToken]
  | .block block => by
    simp [Stmt.map, Stmt.node, Node.mapTokens, block.nodes_map, block.brace_map]

theorem Stmts.nodes_map : (stmts : Stmts) →
    (stmts.map f).nodes = Node.mapTokensAll f f stmts.nodes
  | .empty => rfl
  | .snoc init last => by
    simp [Stmts.map, Stmts.nodes, Node.mapTokensAll_eq_map, init.nodes_map, last.node_map]

end

/-- Other tokens of the same kinds change the tokens of the program, and nothing else. -/
theorem Stmts.program_map (stmts : Stmts) :
    (stmts.map f).program = stmts.program.mapTokens f f :=
  congrArg Program.mk (stmts.nodes_map f)

end Derivation

namespace Piece

variable {gap after : List Char} {piece : Piece}

/-- The lexeme of a piece, without its place, if the piece is no gap. -/
def word? (piece : Piece) : Option Lexeme :=
  piece.kind.map fun kind => ⟨kind, String.ofList piece.text, 0, 0⟩

/-- What a text is read as: its lexemes without their places, and what is left of the text
where no piece can be cut off. -/
def reading (text : List Char) : List Lexeme × List Char :=
  ((split text).1.filterMap word?, (split text).2)

/-- The pieces that are cut off do not depend on those cut off before. -/
theorem splitFrom_eq (before : List Piece) (text : List Char) :
    splitFrom before text = (before.reverse ++ (split text).1, (split text).2) := by
  obtain ⟨tiles, stop, covers, cut, stuck⟩ := Tile.exists_covers_splitFrom text before 0
  obtain ⟨tiles', stop', covers', cut', stuck'⟩ := Tile.exists_covers_splitFrom text [] 0
  obtain ⟨rfl, rfl⟩ := covers.unique covers' stuck stuck'
  rw [List.drop_zero] at cut cut'
  rw [cut, split, cut', List.reverse_nil, List.nil_append]

theorem split_append (form : piece.Form after) :
    split (piece.text ++ after) = (piece :: (split after).1, (split after).2) := by
  have cut := next?_eq_some_iff.mpr ⟨rfl, form⟩
  rw [split, splitFrom]
  split
  · simp_all
  · rename_i found
    rw [cut] at found
    cases found
    rw [splitFrom_eq, List.reverse_singleton, List.singleton_append]

theorem reading_append (form : piece.Form after) :
    reading (piece.text ++ after) =
      (piece.word?.toList ++ (reading after).1, (reading after).2) := by
  rw [reading, split_append form, List.filterMap_cons]
  cases piece.word? with
  | none => rfl
  | some l => rfl

theorem reading_gap (form : Form after ⟨none, gap⟩) : reading (gap ++ after) = reading after :=
  reading_append form

/-- A line feed before a text is a gap, also if the text begins with more of them. -/
theorem reading_newline (text : List Char) : reading ('\n' :: text) = reading text := by
  have isRun := IsRun.of_takeWhile (· == '\n') text
  have halves : text.takeWhile (· == '\n') ++ text.dropWhile (· == '\n') = text :=
    List.takeWhile_append_dropWhile
  generalize text.takeWhile (· == '\n') = run at isRun halves
  generalize text.dropWhile (· == '\n') = rest at isRun halves
  subst halves
  -- The line feeds that the text begins with are in one gap with the line feed before them.
  rw [← List.cons_append, reading_gap (.newlines (List.cons_ne_nil _ _) (isRun.cons rfl))]
  by_cases empty : run = []
  · rw [empty, List.nil_append]
  · rw [reading_gap (.newlines empty isRun)]

end Piece

/-- What may be put between lexemes: blanks, line feeds and comments. A comment that begins
with two slashes has the line feed at its end, and any other ends at its first star and
slash. -/
inductive IsLayout : List Char → Prop
  | nil : IsLayout []
  | blank {c : Char} {rest : List Char} (blank : c ∈ [' ', '\t', '\r', '\n'])
      (others : IsLayout rest) : IsLayout (c :: rest)
  | lineComment {body rest : List Char} (inLine : '\n' ∉ body) (others : IsLayout rest) :
      IsLayout ('/' :: '/' :: (body ++ '\n' :: rest))
  | blockComment {body rest : List Char} (first : ¬ ['*', '/'] <:+: body ++ ['*'])
      (others : IsLayout rest) : IsLayout ('/' :: '*' :: (body ++ '*' :: '/' :: rest))

namespace IsLayout

variable {c : Char} {gap : List Char}

/-- No layout begins with a character that goes on with a lexeme. -/
theorem head_mem (h : IsLayout gap) (first : c ∈ gap.head?) :
    c ∈ [' ', '\t', '\r', '\n', '/'] := by
  cases h with
  | nil => cases first
  | blank blank _ =>
      cases first
      exact List.mem_append_left ['/'] blank
  | lineComment | blockComment =>
      cases first
      decide

/-- Layout before a text is cut off as gaps. -/
theorem reading_append (h : IsLayout gap) (text : List Char) :
    Piece.reading (gap ++ text) = Piece.reading text := by
  induction h with
  | nil => rfl
  | @blank c rest blank _ ih =>
      rw [List.cons_append, ← ih]
      by_cases newline : c = '\n'
      · rw [newline, Piece.reading_newline]
      · simp only [List.mem_cons, List.not_mem_nil, or_false, newline] at blank
        exact Piece.reading_gap (.space blank)
  | @lineComment body rest inLine _ ih =>
      have isRun : IsRun Piece.isInLine body ('\n' :: (rest ++ text)) := by
        refine ⟨?_, ?_⟩
        · intro c member
          rw [Piece.isInLine_iff]
          exact fun newline => inLine (newline ▸ member)
        · rintro c ⟨⟩
          rfl
      have regroup : '/' :: '/' :: (body ++ '\n' :: rest) ++ text =
          '/' :: '/' :: body ++ '\n' :: (rest ++ text) := by simp
      rw [regroup, Piece.reading_gap (.lineComment isRun), Piece.reading_newline, ih]
  | @blockComment body rest first _ ih =>
      have regroup : '/' :: '*' :: (body ++ '*' :: '/' :: rest) ++ text =
          '/' :: '*' :: (body ++ ['*', '/']) ++ (rest ++ text) := by simp
      rw [regroup, Piece.reading_gap (.blockComment first), ih]

end IsLayout

/-- Whether a run ends depends on the first character after it only. -/
theorem IsRun.of_head? {p : Char → Bool} {run after after' : List Char} (h : IsRun p run after)
    (same : after'.head? = after.head?) : IsRun p run after' where
  all := h.all
  maximal c first := h.maximal c (same ▸ first)

theorem IsRun.before_layout {p : Char → Bool} {run gap after : List Char}
    (h : IsRun p run after) (layout : IsLayout gap)
    (others : [' ', '\t', '\r', '\n', '/'].any p = false) : IsRun p run (gap ++ after) := by
  by_cases empty : gap = []
  · rwa [empty, List.nil_append]
  · refine ⟨h.all, ?_⟩
    intro c first
    rw [List.head?_append_of_ne_nil _ empty] at first
    exact Bool.eq_false_iff.mpr (List.any_eq_false.mp others c (layout.head_mem first))

namespace Piece

variable {gap text after after' : List Char} {kind : Kind} {piece : Piece}
  {pieces first : List Piece}

theorem Form.of_head? (h : piece.Form after) (same : after'.head? = after.head?) :
    piece.Form after' := by
  cases h with
  | space blank => exact .space blank
  | newlines nonempty isRun => exact .newlines nonempty (isRun.of_head? same)
  | lineComment isRun => exact .lineComment (isRun.of_head? same)
  | blockComment first => exact .blockComment first
  | number nonempty isRun => exact .number nonempty (isRun.of_head? same)
  | word start isRun named => exact .word start (isRun.of_head? same) named
  | punctuation known => exact .punctuation known

/-- A lexeme ends where it did if layout is put after it. -/
theorem Form.before_layout (h : Form after ⟨some kind, text⟩) (layout : IsLayout gap) :
    Form (gap ++ after) ⟨some kind, text⟩ := by
  cases h with
  | number nonempty isRun => exact .number nonempty (isRun.before_layout layout (by decide))
  | word start isRun named => exact .word start (isRun.before_layout layout (by decide)) named
  | punctuation known => exact .punctuation known

/-- The pieces are cut off one after another, with a text after the last of them. -/
def Laid (after : List Char) : List Piece → Prop
  | [] => True
  | piece :: rest => piece.Form (rest.flatMap Piece.text ++ after) ∧ Laid after rest

namespace Laid

theorem flatMap_ne_nil (h : Laid after pieces) (nonempty : pieces ≠ []) :
    pieces.flatMap Piece.text ≠ [] := by
  cases pieces with
  | nil => exact absurd rfl nonempty
  | cons piece rest => exact List.append_ne_nil_of_left_ne_nil h.1.nonempty _

theorem reading_append (h : Laid after pieces) :
    reading (pieces.flatMap Piece.text ++ after) =
      (pieces.filterMap word? ++ (reading after).1, (reading after).2) := by
  induction pieces with
  | nil => rfl
  | cons piece rest ih =>
      obtain ⟨form, others⟩ := h
      rw [List.flatMap_cons, List.append_assoc, Piece.reading_append form, ih others,
        List.filterMap_cons]
      cases piece.word? with
      | none => rfl
      | some l => rfl

/-- Pieces of which the last is a lexeme stay as they are if layout is put after them. -/
theorem before_layout (h : Laid after (first ++ [⟨some kind, text⟩])) (layout : IsLayout gap) :
    Laid (gap ++ after) (first ++ [⟨some kind, text⟩]) := by
  induction first with
  | nil => exact ⟨h.1.before_layout layout, trivial⟩
  | cons piece rest ih =>
      obtain ⟨form, others⟩ := h
      have filled := others.flatMap_ne_nil
        (List.append_ne_nil_of_right_ne_nil rest (List.cons_ne_nil _ _))
      refine ⟨form.of_head? ?_, ih others⟩
      exact (List.head?_append_of_ne_nil _ filled).trans
        (List.head?_append_of_ne_nil _ filled).symm

end Laid

end Piece

theorem Tile.of_lexeme? {text : List Char} {t : Tile} {l : Lexeme}
    (h : t.lexeme? text = some l) : t.piece = ⟨some l.kind, l.token.text.toList⟩ ∧
      l.token.position = Position.start.after (text.take t.offset) := by
  obtain ⟨offset, ⟨kind, piece⟩⟩ := t
  simp only [lexeme?, Option.map_eq_some_iff] at h
  obtain ⟨kind, rfl, rfl⟩ := h
  exact ⟨by rw [String.toList_ofList], rfl⟩

namespace Tile.Covers

variable {text : List Char} {t : Tile} {tiles rest : List Tile} {start stop : Nat}

/-- The part of a text that is covered by some tiles and one tile more. -/
theorem prefix_stop (h : Covers text start (tiles ++ t :: rest) stop) :
    Covers text start (tiles ++ [t]) t.stop := by
  induction tiles generalizing start with
  | nil => exact ⟨h.1, h.2.1, rfl⟩
  | cons first others ih => exact ⟨h.1, h.2.1, ih h.2.2⟩

theorem laid (h : Covers text start tiles stop) :
    Piece.Laid (text.drop stop) (tiles.map Tile.piece) ∧
      (tiles.map Tile.piece).flatMap Piece.text ++ text.drop stop = text.drop start := by
  induction tiles generalizing start with
  | nil => exact ⟨trivial, by rw [show start = stop from h]; rfl⟩
  | cons t others ih =>
      obtain ⟨rfl, fits, covers⟩ := h
      obtain ⟨isLaid, same⟩ := ih covers
      refine ⟨⟨?_, isLaid⟩, ?_⟩
      · rw [same]
        exact fits.form
      · rw [List.map_cons, List.flatMap_cons, List.append_assoc, same, fits.drop_eq]

end Tile.Covers

namespace Scan

variable {source : String} {before after gap : List Char} {l : Lexeme}

/-- The source text is cut in two at its start or at the end of one of its lexemes. By
`exists_stands`, every lexeme has such a cut. -/
inductive Boundary (source : String) : List Char → List Char → Prop
  | start : Boundary source [] source.toList
  | lexeme {l : Lexeme} {before after : List Char} (member : l ∈ (ofSource source).lexemes)
      (stands : l.Stands source.toList before after) :
      Boundary source (before ++ l.token.text.toList) after

theorem Boundary.whole (h : Boundary source before after) : source.toList = before ++ after := by
  cases h with
  | start => rfl
  | lexeme _ stands => exact stands.whole

/-- A source text is cut into pieces up to the end of any of its lexemes. -/
theorem exists_laid (member : l ∈ (ofSource source).lexemes)
    (stands : l.Stands source.toList before after) :
    ∃ first : List Piece, first.flatMap Piece.text = before ∧
      Piece.Laid after (first ++ [⟨some l.kind, l.token.text.toList⟩]) := by
  obtain ⟨tiles, stop, tiled⟩ := exists_tiledBy source
  rw [tiled.lexemes, List.mem_filterMap] at member
  obtain ⟨t, isTile, shown⟩ := member
  obtain ⟨piece, place⟩ := Tile.of_lexeme? shown
  have whole := (tiled.covers.fits isTile).eq_append
  obtain ⟨first, rest, rfl⟩ := List.append_of_mem isTile
  obtain ⟨isLaid, same⟩ := tiled.covers.prefix_stop.laid
  -- The tile and the lexeme stand at the same place, so the same text comes before them.
  rw [piece, List.append_assoc] at whole
  have again := stands.whole
  rw [List.append_assoc] at again
  obtain rfl : source.toList.take t.offset = before :=
    Position.before_unique (whole.symm.trans again) (place.symm.trans stands.place)
  have following : source.toList.drop t.stop = after :=
    List.append_cancel_left (List.append_cancel_left (whole.symm.trans again))
  rw [following, List.map_append, List.map_singleton, piece] at isLaid same
  refine ⟨first.map Tile.piece, ?_, isLaid⟩
  rw [List.flatMap_append, List.flatMap_singleton, List.drop_zero] at same
  exact List.append_cancel_right (List.append_cancel_right (same.trans stands.whole))

/-- Layout that is put at the start of a source text or after a lexeme changes neither the
lexemes, apart from their places, nor what is left of the text. -/
theorem Boundary.reading_insert (h : Boundary source before after) (layout : IsLayout gap) :
    Piece.reading (before ++ gap ++ after) = Piece.reading (before ++ after) := by
  cases h with
  | start => exact layout.reading_append source.toList
  | lexeme member stands =>
      obtain ⟨first, rfl, isLaid⟩ := exists_laid member stands
      have spread := (isLaid.before_layout layout).reading_append
      rw [layout.reading_append, ← isLaid.reading_append] at spread
      simpa using spread

theorem words_locateFrom (before : List Lexeme) (start : Position) (pieces : List Piece) :
    (locateFrom before start pieces).1.map (Lexeme.mapToken Token.withoutPlace) =
      before.reverse.map (Lexeme.mapToken Token.withoutPlace) ++ pieces.filterMap Piece.word? := by
  fun_induction locateFrom before start pieces with
  | case1 before start => simp
  | case2 before start text rest ih =>
      rw [ih, List.filterMap_cons_none rfl]
  | case3 before start kind text rest ih =>
      rw [ih]
      simp [Lexeme.mapToken, Piece.word?, Token.withoutPlace]

theorem words_ofSource (source : String) :
    (ofSource source).lexemes.map (Lexeme.mapToken Token.withoutPlace) =
      (Piece.reading source.toList).1 :=
  words_locateFrom [] .start _

theorem illegal_ofSource (source : String) :
    (ofSource source).illegal = (Piece.reading source.toList).2.head? := rfl

end Scan

/-- A source text that is read as the lexemes of a derivation, apart from their places, is read
as the program of that derivation. -/
theorem Program.exists_parse_of_words {source : String} {list : Derivation.Stmts}
    (read : Piece.reading source.toList = (list.lexemes, [])) :
    ∃ p, parse source = .ok p ∧ p.withoutPlaces = list.program := by
  have complete : (Scan.ofSource source).illegal = none := by
    rw [Scan.illegal_ofSource, read]
    rfl
  have words := (Scan.words_ofSource source).trans (congrArg Prod.fst read)
  have kinds : (Scan.ofSource source).lexemes.map Lexeme.kind = list.lexemes.map Lexeme.kind := by
    simpa [Function.comp_def, Lexeme.mapToken] using congrArg (List.map Lexeme.kind) words
  -- The lexemes of the text have a derivation since the grammar sees kinds only, and without
  -- places it has the lexemes of the given derivation.
  have sentence := Derivation.isSentence_iff.mpr ⟨list, rfl⟩
  rw [IsSentence, ← kinds] at sentence
  obtain ⟨own, lexemes⟩ := Derivation.isSentence_iff.mp sentence
  refine ⟨own.program, parse_eq_ok_iff.mpr ⟨complete, own, lexemes, rfl⟩, ?_⟩
  rw [← lexemes, ← Derivation.Stmts.lexemes_map] at words
  rw [withoutPlaces, ← own.program_map, Derivation.Stmts.lexemes_injective words]

/-- Whether a source text is read as a program, and as which one apart from places, depends on
its lexemes without their places and on whether it is scanned to its end. -/
theorem Program.exists_parse_of_reading {source source' : String} {p : Program}
    (same : Piece.reading source'.toList = Piece.reading source.toList)
    (parsed : parse source = .ok p) :
    ∃ q, parse source' = .ok q ∧ q.withoutPlaces = p.withoutPlaces := by
  obtain ⟨complete, list, lexemes, rfl⟩ := parse_eq_ok_iff.mp parsed
  rw [Scan.illegal_ofSource, List.head?_eq_none_iff] at complete
  have words := Scan.words_ofSource source
  rw [← lexemes, ← Derivation.Stmts.lexemes_map] at words
  rw [withoutPlaces, ← list.program_map]
  apply exists_parse_of_words
  rw [same, words, ← complete]

/-- Layout changes no program. Let a source text be read as a program, and let it be cut in two
at its start or at the end of any of its lexemes. With blanks, line feeds and complete comments
put at the cut, the text is still read, and as the same program apart from the places of its
tokens. -/
theorem layout_is_inert {source : String} {p : Program} {before gap after : List Char}
    (parsed : Program.parse source = .ok p) (boundary : Scan.Boundary source before after)
    (layout : IsLayout gap) :
    source.toList = before ++ after ∧
    ∃ q, Program.parse (String.ofList (before ++ gap ++ after)) = .ok q ∧
      q.withoutPlaces = p.withoutPlaces := by
  refine ⟨boundary.whole, Program.exists_parse_of_reading ?_ parsed⟩
  rw [String.toList_ofList, boundary.reading_insert layout, boundary.whole]

/-- A source text with nothing between most of its lexemes. -/
def crampedSource : String := "int a\n=1;"

/-- The program of `crampedSource`. -/
def Program.cramped : Program where
  stmts := [.varDecl ⟨"int", 1, 0⟩ ⟨"a", 1, 4⟩ ⟨"=", 2, 0⟩ (.intLit ⟨"1", 2, 1⟩)]

theorem layout_is_inert_cramped :
    Program.parse crampedSource = .ok .cramped ∧
    ∃ q, Program.parse "int a/*/*/\t//1*/\n\n=1;" = .ok q ∧
      q.withoutPlaces = Program.cramped.withoutPlaces := by
  have parsed : Program.parse crampedSource = .ok .cramped := by cbv
  have lexemes : (Scan.ofSource crampedSource).lexemes =
      [⟨.intWord, "int", 1, 0⟩, ⟨.identifier, "a", 1, 4⟩, ⟨.equals, "=", 2, 0⟩,
        ⟨.number, "1", 2, 1⟩, ⟨.semicolon, ";", 2, 2⟩] := by cbv
  have stands : Lexeme.Stands crampedSource.toList "int ".toList "\n=1;".toList
      ⟨.identifier, "a", 1, 4⟩ := by
    refine ⟨rfl, rfl, .word (.inl rfl) ⟨by simp, ?_⟩ (Kind.ofWord_eq_iff.mp rfl)⟩
    rintro c ⟨⟩
    decide
  have boundary := Scan.Boundary.lexeme (lexemes ▸ .tail _ (.head _)) stands
  have layout : IsLayout "/*/*/\t//1*/\n".toList :=
    @IsLayout.blockComment ['/'] _ (by decide) (.blank (by decide)
      (@IsLayout.lineComment ['1', '*', '/'] _ (by decide) .nil))
  exact ⟨parsed, (layout_is_inert parsed boundary layout).2⟩

end BlockLang

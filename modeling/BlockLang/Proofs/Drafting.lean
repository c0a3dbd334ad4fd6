import BlockLang.Program.Draft
import BlockLang.Proofs.Derivation

/-!
# Drafts and derivations

Feeding a draft builds the program of a derivation. If the lexemes of a phrase are fed
where the phrase is awaited, the draft takes all of them and goes on with the tree of the
phrase; this is shown for each sort of phrase by induction on its derivation, for any draft
around it and any lexemes after it.

Conversely, a draft that has taken some lexemes has read phrases, and what it holds are
their trees. `Draft.Reads` says which lexemes a draft stands for: those of the statement
lists around the innermost one, those of the innermost list, and those of the phrase that
is not complete yet. One more lexeme is appended to them if the draft takes it.

No draft is a dead end: each can be completed, since what is missing can be added in order,
from the innermost phrase outwards.
-/

namespace BlockLang

open Lexeme (Kind)

open BlockLang.Derivation

namespace Draft

variable {d d' : Draft} {l : Lexeme} {lexemes rest : List Lexeme}

theorem feedAll_of_feed? (fed : d.feed? l = some d') :
    d.feedAll (l :: rest) = d'.feedAll rest := by
  simp [feedAll, fed]

/-- Lexemes are fed one after the other. -/
theorem feedAll_append (d : Draft) (first second : List Lexeme) :
    d.feedAll (first ++ second) = (d.feedAll first).bind (·.feedAll second) := by
  induction first generalizing d with
  | nil => rfl
  | cons l rest ih =>
      cases fed : d.feed? l with
      | none => simp [feedAll, fed, Except.bind]
      | some d' => simp [feedAll, fed, ih]

theorem feedAll_append_of_ok {first second : List Lexeme} (fed : d.feedAll first = .ok d') :
    d.feedAll (first ++ second) = d'.feedAll second := by
  rw [feedAll_append, fed]
  rfl

section Complete

variable (stmts : List Node) (blocks : List (Opening × List Node))

mutual

/-- Where an operand is awaited, a draft takes the lexemes of one and completes the operation
that waits for it. -/
theorem feedAll_atom : (atom : Atom) → (purpose : Purpose) → (waiting : Waiting) →
    (outer : List Waiting) → (rest : List Lexeme) →
    feedAll ⟨.operand purpose waiting outer, stmts, blocks⟩ (atom.lexemes ++ rest) =
      feedAll ⟨.operator purpose (waiting.complete atom.node) outer, stmts, blocks⟩ rest
  | .number l, purpose, waiting, outer, rest =>
    feedAll_of_feed? (by simp [feed?, feedOperand?, l.kind_eq, Atom.node])
  | .ident l, purpose, waiting, outer, rest =>
    feedAll_of_feed? (by simp [feed?, feedOperand?, l.kind_eq, Atom.node])
  | .truth l, purpose, waiting, outer, rest => by
    apply feedAll_of_feed?
    rcases l.kind_or with isTrue | isFalse
    · simp [feed?, feedOperand?, isTrue, Atom.node]
    · simp [feed?, feedOperand?, isFalse, Atom.node]
  | .paren left inner right, purpose, waiting, outer, rest => by
    have opened : feed? ⟨.operand purpose waiting outer, stmts, blocks⟩ left.val =
        some ⟨.operand purpose none (waiting :: outer), stmts, blocks⟩ := by
      simp [feed?, feedOperand?, left.kind_eq]
    have closed : feed? ⟨.operator purpose inner.node (waiting :: outer), stmts, blocks⟩
        right.val =
          some ⟨.operator purpose (waiting.complete inner.node) outer, stmts, blocks⟩ := by
      simp [feed?, feedOperator?, right.kind_eq]
    rw [Atom.lexemes, List.cons_append, List.append_assoc, feedAll_of_feed? opened,
      feedAll_expr inner, List.singleton_append, feedAll_of_feed? closed]
    rfl

/-- Where an expression is awaited, a draft takes the lexemes of one. -/
theorem feedAll_expr : (expr : Expr) → (purpose : Purpose) → (outer : List Waiting) →
    (rest : List Lexeme) →
    feedAll ⟨.operand purpose none outer, stmts, blocks⟩ (expr.lexemes ++ rest) =
      feedAll ⟨.operator purpose expr.node outer, stmts, blocks⟩ rest
  | .atom operand, purpose, outer, rest => feedAll_atom operand purpose none outer rest
  | .binary left op right, purpose, outer, rest => by
    have applied : feed? ⟨.operator purpose left.node outer, stmts, blocks⟩ op.val =
        some ⟨.operand purpose (some (left.node, op.val.token)) outer, stmts, blocks⟩ := by
      rcases op.kind_or with isPlus | isMinus
      · simp [feed?, feedOperator?, isPlus]
      · simp [feed?, feedOperator?, isMinus]
    rw [Expr.lexemes, List.append_assoc, feedAll_expr left, List.cons_append,
      feedAll_of_feed? applied, feedAll_atom right]
    rfl

end

/-- Where a statement is awaited, a draft takes the lexemes of one that a semicolon ends. -/
theorem feedAll_simple (simple : Simple) (semicolon : Terminal [.semicolon])
    (rest : List Lexeme) :
    feedAll ⟨.statement, stmts, blocks⟩ (simple.lexemes ++ semicolon.val :: rest) =
      feedAll ⟨.statement, simple.node :: stmts, blocks⟩ rest := by
  cases simple with
  | decl type name equals init =>
      have typed : feed? ⟨.statement, stmts, blocks⟩ type.val =
          some ⟨.declName type.val.token, stmts, blocks⟩ := by
        rcases type.kind_or with isInt | isBoolean
        · simp [feed?, feedStatement?, isInt]
        · simp [feed?, feedStatement?, isBoolean]
      have named : feed? ⟨.declName type.val.token, stmts, blocks⟩ name.val =
          some ⟨.declEquals type.val.token name.val.token, stmts, blocks⟩ := by
        simp [feed?, name.kind_eq]
      have equated : feed? ⟨.declEquals type.val.token name.val.token, stmts, blocks⟩ equals.val =
          some ⟨.operand (.init type.val.token name.val.token equals.val.token) none [],
            stmts, blocks⟩ := by
        simp [feed?, equals.kind_eq]
      rw [Simple.lexemes, List.cons_append, List.cons_append, List.cons_append,
        feedAll_of_feed? typed, feedAll_of_feed? named, feedAll_of_feed? equated, feedAll_expr]
      apply feedAll_of_feed?
      simp [feed?, feedOperator?, endExpression?, addStatement, semicolon.kind_eq, Simple.node]
  | assign name equals value =>
      have named : feed? ⟨.statement, stmts, blocks⟩ name.val =
          some ⟨.assignEquals name.val.token, stmts, blocks⟩ := by
        simp [feed?, feedStatement?, name.kind_eq]
      have equated : feed? ⟨.assignEquals name.val.token, stmts, blocks⟩ equals.val =
          some ⟨.operand (.value name.val.token equals.val.token) none [], stmts, blocks⟩ := by
        simp [feed?, equals.kind_eq]
      rw [Simple.lexemes, List.cons_append, List.cons_append, feedAll_of_feed? named,
        feedAll_of_feed? equated, feedAll_expr]
      apply feedAll_of_feed?
      simp [feed?, feedOperator?, endExpression?, addStatement, semicolon.kind_eq, Simple.node]
  | print word left value right =>
      have printed : feed? ⟨.statement, stmts, blocks⟩ word.val =
          some ⟨.printParen word.val.token, stmts, blocks⟩ := by
        simp [feed?, feedStatement?, word.kind_eq]
      have opened : feed? ⟨.printParen word.val.token, stmts, blocks⟩ left.val =
          some ⟨.operand (.print word.val.token) none [], stmts, blocks⟩ := by
        simp [feed?, left.kind_eq]
      have closed : feed? ⟨.operator (.print word.val.token) value.node [], stmts, blocks⟩
          right.val = some ⟨.semicolon (.print word.val.token value.node), stmts, blocks⟩ := by
        simp [feed?, feedOperator?, endExpression?, right.kind_eq]
      rw [Simple.lexemes, List.cons_append, List.cons_append, List.append_assoc,
        feedAll_of_feed? printed, feedAll_of_feed? opened, feedAll_expr, List.singleton_append,
        feedAll_of_feed? closed]
      apply feedAll_of_feed?
      simp [feed?, addStatement, semicolon.kind_eq, Simple.node]

/-- After the brace that opens the block of a conditional, a draft is in the block. -/
theorem feedAll_condition (word : Terminal [.ifWord]) (left : Terminal [.leftParen]) (cond : Expr)
    (right : Terminal [.rightParen]) (brace : Terminal [.leftBrace]) (rest : List Lexeme) :
    feedAll ⟨.statement, stmts, blocks⟩
        (word.val :: left.val :: (cond.lexemes ++ right.val :: brace.val :: rest)) =
      feedAll ⟨.statement, [],
        (.conditional left.val.token cond.node brace.val.token, stmts) :: blocks⟩ rest := by
  have started : feed? ⟨.statement, stmts, blocks⟩ word.val = some ⟨.ifParen, stmts, blocks⟩ := by
    simp [feed?, feedStatement?, word.kind_eq]
  have opened : feed? ⟨.ifParen, stmts, blocks⟩ left.val =
      some ⟨.operand (.cond left.val.token) none [], stmts, blocks⟩ := by
    simp [feed?, left.kind_eq]
  have closed : feed? ⟨.operator (.cond left.val.token) cond.node [], stmts, blocks⟩ right.val =
      some ⟨.thenBrace left.val.token cond.node, stmts, blocks⟩ := by
    simp [feed?, feedOperator?, endExpression?, right.kind_eq]
  rw [feedAll_of_feed? started, feedAll_of_feed? opened, feedAll_expr, feedAll_of_feed? closed]
  apply feedAll_of_feed?
  simp [feed?, openBlock, brace.kind_eq]

end Complete

mutual

/-- Where a statement is awaited, a draft takes the lexemes of one. -/
theorem feedAll_stmt : (stmt : Stmt) → (stmts : List Node) →
    (blocks : List (Opening × List Node)) → (rest : List Lexeme) →
    feedAll ⟨.statement, stmts, blocks⟩ (stmt.lexemes ++ rest) =
      feedAll ⟨.statement, stmt.node :: stmts, blocks⟩ rest
  | .simple inner semicolon, stmts, blocks, rest => by
    rw [Stmt.lexemes, List.append_assoc, List.singleton_append, feedAll_simple]
    rfl
  | .conditional word left cond right (.mk brace body closing), stmts, blocks, rest => by
    have regrouped : (Stmt.conditional word left cond right (.mk brace body closing)).lexemes ++
        rest = word.val :: left.val ::
          (cond.lexemes ++ right.val :: brace.val :: (body.lexemes ++ closing.val :: rest)) := by
      simp [Stmt.lexemes, Block.lexemes]
    rw [regrouped, feedAll_condition, feedAll_stmts body]
    apply feedAll_of_feed?
    simp [feed?, feedStatement?, closeBlock?, closing.kind_eq, Opening.close, Stmt.node,
      Block.nodes, Block.brace]
  | .block (.mk brace body closing), stmts, blocks, rest => by
    have opened : feed? ⟨.statement, stmts, blocks⟩ brace.val =
        some ⟨.statement, [], (.block brace.val.token, stmts) :: blocks⟩ := by
      simp [feed?, feedStatement?, openBlock, brace.kind_eq]
    rw [Stmt.lexemes, Block.lexemes, List.cons_append, List.append_assoc, feedAll_of_feed? opened,
      feedAll_stmts body, List.singleton_append]
    apply feedAll_of_feed?
    simp [feed?, feedStatement?, closeBlock?, closing.kind_eq, Opening.close, Stmt.node,
      Block.nodes, Block.brace]

/-- Where a statement is awaited, a draft takes the lexemes of a statement list. -/
theorem feedAll_stmts : (list : Stmts) → (stmts : List Node) →
    (blocks : List (Opening × List Node)) → (rest : List Lexeme) →
    feedAll ⟨.statement, stmts, blocks⟩ (list.lexemes ++ rest) =
      feedAll ⟨.statement, list.nodes.reverse ++ stmts, blocks⟩ rest
  | .empty, _, _, _ => rfl
  | .snoc init last, stmts, blocks, rest => by
    rw [Stmts.lexemes, List.append_assoc, feedAll_stmts init, feedAll_stmt last, Stmts.nodes,
      List.reverse_append]
    rfl

end

/-- A draft that is fed the lexemes of a derivation becomes its program. -/
theorem feedAll_derivation (list : Stmts) :
    ∃ d, empty.feedAll list.lexemes = .ok d ∧ d.program? = some list.program := by
  refine ⟨⟨.statement, list.nodes.reverse, []⟩, ?_, ?_⟩
  · have fed := feedAll_stmts list [] [] []
    rwa [List.append_nil, List.append_nil] at fed
  · simp [program?, Stmts.program]

/-- The lexemes of a left operand and its operator, if they wait for a right operand. -/
inductive Waiting.Reads : Waiting → List Lexeme → Prop
  | none : Reads none []
  | some (left : Expr) (op : Terminal [.plus, .minus]) :
      Reads (some (left.node, op.val.token)) (left.lexemes ++ [op.val])

/-- The lexemes up to the innermost parenthesis that is open in an expression. -/
inductive ReadsOuter : List Waiting → List Lexeme → Prop
  | nil : ReadsOuter [] []
  | cons {waiting : Waiting} {outer : List Waiting} {before last : List Lexeme}
      (around : ReadsOuter outer before) (inner : waiting.Reads last)
      (paren : Terminal [.leftParen]) :
      ReadsOuter (waiting :: outer) (before ++ last ++ [paren.val])

/-- The lexemes of a statement before its expression. -/
inductive Purpose.Reads : Purpose → List Lexeme → Prop
  | init (type : Terminal [.intWord, .booleanWord]) (name : Terminal [.identifier])
      (equals : Terminal [.equals]) :
      Reads (.init type.val.token name.val.token equals.val.token) [type.val, name.val, equals.val]
  | value (name : Terminal [.identifier]) (equals : Terminal [.equals]) :
      Reads (.value name.val.token equals.val.token) [name.val, equals.val]
  | print (word : Terminal [.printWord]) (left : Terminal [.leftParen]) :
      Reads (.print word.val.token) [word.val, left.val]
  | cond (word : Terminal [.ifWord]) (left : Terminal [.leftParen]) :
      Reads (.cond left.val.token) [word.val, left.val]

/-- The lexemes of a statement that is not complete, up to what comes next. -/
inductive Focus.Reads : Focus → List Lexeme → Prop
  | statement : Reads .statement []
  | declName (type : Terminal [.intWord, .booleanWord]) :
      Reads (.declName type.val.token) [type.val]
  | declEquals (type : Terminal [.intWord, .booleanWord]) (name : Terminal [.identifier]) :
      Reads (.declEquals type.val.token name.val.token) [type.val, name.val]
  | assignEquals (name : Terminal [.identifier]) :
      Reads (.assignEquals name.val.token) [name.val]
  | printParen (word : Terminal [.printWord]) : Reads (.printParen word.val.token) [word.val]
  | ifParen (word : Terminal [.ifWord]) : Reads .ifParen [word.val]
  | operand {purpose : Purpose} {waiting : Waiting} {outer : List Waiting}
      {front before last : List Lexeme} (start : purpose.Reads front)
      (around : ReadsOuter outer before) (inner : waiting.Reads last) :
      Reads (.operand purpose waiting outer) (front ++ (before ++ last))
  | operator {purpose : Purpose} {outer : List Waiting} {front before : List Lexeme}
      (start : purpose.Reads front) (around : ReadsOuter outer before) (expr : Expr) :
      Reads (.operator purpose expr.node outer) (front ++ (before ++ expr.lexemes))
  | thenBrace (word : Terminal [.ifWord]) (left : Terminal [.leftParen]) (cond : Expr)
      (right : Terminal [.rightParen]) :
      Reads (.thenBrace left.val.token cond.node)
        (word.val :: left.val :: (cond.lexemes ++ [right.val]))
  | semicolon (simple : Simple) : Reads (.semicolon simple.node) simple.lexemes

/-- The lexemes of a statement up to the brace that opens its block. -/
inductive Opening.Reads : Opening → List Lexeme → Prop
  | block (brace : Terminal [.leftBrace]) : Reads (.block brace.val.token) [brace.val]
  | conditional (word : Terminal [.ifWord]) (left : Terminal [.leftParen]) (cond : Expr)
      (right : Terminal [.rightParen]) (brace : Terminal [.leftBrace]) :
      Reads (.conditional left.val.token cond.node brace.val.token)
        (word.val :: left.val :: (cond.lexemes ++ [right.val, brace.val]))

/-- The lexemes up to the brace that opens the innermost block. -/
inductive ReadsBlocks : List (Opening × List Node) → List Lexeme → Prop
  | nil : ReadsBlocks [] []
  | cons {opening : Opening} {blocks : List (Opening × List Node)} {before last : List Lexeme}
      (around : ReadsBlocks blocks before) (list : Stmts) (opened : opening.Reads last) :
      ReadsBlocks ((opening, list.nodes.reverse) :: blocks) (before ++ (list.lexemes ++ last))

/-- The lexemes that a draft stands for. -/
inductive Reads : Draft → List Lexeme → Prop
  | mk {focus : Focus} {blocks : List (Opening × List Node)} {before last : List Lexeme}
      (around : ReadsBlocks blocks before) (list : Stmts) (current : focus.Reads last) :
      Reads ⟨focus, list.nodes.reverse, blocks⟩ (before ++ (list.lexemes ++ last))

/-- An operand completes an expression. -/
theorem Waiting.Reads.complete {waiting : Waiting} (h : waiting.Reads lexemes) (atom : Atom) :
    ∃ expr : Expr, expr.node = waiting.complete atom.node ∧
      expr.lexemes = lexemes ++ atom.lexemes := by
  cases h with
  | none => exact ⟨.atom atom, rfl, rfl⟩
  | some left op => exact ⟨.binary left op atom, rfl, by simp [Expr.lexemes]⟩

/-- A brace completes the statement that a block was opened for. -/
theorem Opening.Reads.close {opening : Opening} (h : opening.Reads lexemes) (list : Stmts)
    (brace : Terminal [.rightBrace]) :
    ∃ stmt : Stmt, stmt.node = opening.close list.nodes ∧
      stmt.lexemes = lexemes ++ (list.lexemes ++ [brace.val]) := by
  cases h with
  | block left => exact ⟨.block (.mk left list brace), rfl, rfl⟩
  | conditional word paren cond right left =>
      refine ⟨.conditional word paren cond right (.mk left list brace), rfl, ?_⟩
      simp [Stmt.lexemes, Block.lexemes]

theorem reads_empty : empty.Reads [] :=
  .mk .nil .empty .statement

namespace Reads

variable {focus focus' : Focus} {stmts : List Node} {blocks : List (Opening × List Node)}

/-- A lexeme that belongs to the same statement. -/
theorem refocus (h : Reads ⟨focus, stmts, blocks⟩ lexemes)
    (step : ∀ last, focus.Reads last → focus'.Reads (last ++ [l])) :
    Reads ⟨focus', stmts, blocks⟩ (lexemes ++ [l]) := by
  cases h with
  | @mk _ _ before last around list current =>
      have read := Reads.mk around list (step last current)
      simpa using read

/-- A lexeme that ends a statement. -/
theorem addStatement {stmt : Node} (h : Reads ⟨focus, stmts, blocks⟩ lexemes)
    (step : ∀ last, focus.Reads last →
      ∃ ended : Stmt, ended.node = stmt ∧ ended.lexemes = last ++ [l]) :
    Reads ⟨.statement, stmt :: stmts, blocks⟩ (lexemes ++ [l]) := by
  cases h with
  | @mk _ _ before last around list current =>
      obtain ⟨ended, rfl, same⟩ := step last current
      have read := Reads.mk around (list.snoc ended) .statement
      simpa [Stmts.nodes, Stmts.lexemes, same] using read

/-- A brace that opens a block. -/
theorem openBlock {opening : Opening} (h : Reads ⟨focus, stmts, blocks⟩ lexemes)
    (step : ∀ last, focus.Reads last → opening.Reads (last ++ [l])) :
    Reads ⟨.statement, [], (opening, stmts) :: blocks⟩ (lexemes ++ [l]) := by
  cases h with
  | @mk _ _ before last around list current =>
      have read := Reads.mk (.cons around list (step last current)) .empty .statement
      simpa [Stmts.nodes, Stmts.lexemes] using read

/-- A brace that closes a block. -/
theorem closeBlock? (h : Reads ⟨.statement, stmts, blocks⟩ lexemes) (isBrace : l.kind = .rightBrace)
    (closed : Draft.closeBlock? ⟨.statement, stmts, blocks⟩ = some d') :
    d'.Reads (lexemes ++ [l]) := by
  cases h with
  | mk around list current =>
      cases current with
      | statement =>
          cases around with
          | nil => cases closed
          | cons around before opened =>
              obtain ⟨stmt, node, same⟩ := opened.close list (.of l isBrace)
              cases closed
              have read := Reads.mk around (before.snoc stmt) .statement
              simpa [Stmts.nodes, Stmts.lexemes, node, same] using read

/-- The first lexeme of a statement. -/
theorem begins (h : Reads ⟨.statement, stmts, blocks⟩ lexemes) (first : focus'.Reads [l]) :
    Reads ⟨focus', stmts, blocks⟩ (lexemes ++ [l]) := by
  apply h.refocus
  rintro _ ⟨⟩
  exact first

theorem feedStatement? (h : Reads ⟨.statement, stmts, blocks⟩ lexemes)
    (fed : Draft.feedStatement? ⟨.statement, stmts, blocks⟩ l = some d') :
    d'.Reads (lexemes ++ [l]) := by
  unfold Draft.feedStatement? at fed
  split at fed
  case h_1 isInt =>
    cases fed
    exact h.begins (.declName ⟨l, by simp [isInt]⟩)
  case h_2 isBoolean =>
    cases fed
    exact h.begins (.declName ⟨l, by simp [isBoolean]⟩)
  case h_3 isName =>
    cases fed
    exact h.begins (.assignEquals (.of l isName))
  case h_4 isPrint =>
    cases fed
    exact h.begins (.printParen (.of l isPrint))
  case h_5 isIf =>
    cases fed
    exact h.begins (.ifParen (.of l isIf))
  case h_6 isBrace =>
    cases fed
    apply h.openBlock
    rintro _ ⟨⟩
    exact .block (.of l isBrace)
  case h_7 isBrace => exact h.closeBlock? isBrace fed
  case h_8 => cases fed

end Reads

/-- An operand of one lexeme, or a parenthesis before an expression. -/
theorem feedOperand?_eq_some {purpose : Purpose} {waiting : Waiting} {outer : List Waiting}
    (fed : d.feedOperand? purpose waiting outer l = some d') :
    (∃ atom : Atom, atom.lexemes = [l] ∧
      d' = { d with focus := .operator purpose (waiting.complete atom.node) outer }) ∨
    l.kind = .leftParen ∧ d' = { d with focus := .operand purpose none (waiting :: outer) } := by
  unfold feedOperand? at fed
  split at fed
  case h_1 isNumber => exact .inl ⟨.number (.of l isNumber), rfl, (Option.some.inj fed).symm⟩
  case h_2 isTrue => exact .inl ⟨.truth ⟨l, by simp [isTrue]⟩, rfl, (Option.some.inj fed).symm⟩
  case h_3 isFalse => exact .inl ⟨.truth ⟨l, by simp [isFalse]⟩, rfl, (Option.some.inj fed).symm⟩
  case h_4 isName => exact .inl ⟨.ident (.of l isName), rfl, (Option.some.inj fed).symm⟩
  case h_5 isParen => exact .inr ⟨isParen, (Option.some.inj fed).symm⟩
  case h_6 => cases fed

/-- An operator, a parenthesis after an expression, or the end of the expression. -/
theorem feedOperator?_eq_some {purpose : Purpose} {expr : Node} {outer : List Waiting}
    (fed : d.feedOperator? purpose expr outer l = some d') :
    l.kind ∈ [Kind.plus, .minus] ∧
      d' = { d with focus := .operand purpose (some (expr, l.token)) outer } ∨
    (∃ waiting around, outer = waiting :: around ∧ l.kind = .rightParen ∧
      d' = { d with focus := .operator purpose (waiting.complete expr) around }) ∨
    outer = [] ∧ d.endExpression? purpose expr l.kind = some d' := by
  unfold feedOperator? at fed
  split at fed
  case h_1 isPlus => exact .inl ⟨by simp [isPlus], (Option.some.inj fed).symm⟩
  case h_2 isMinus => exact .inl ⟨by simp [isMinus], (Option.some.inj fed).symm⟩
  case h_3 waiting around isParen =>
    exact .inr (.inl ⟨waiting, around, rfl, isParen, (Option.some.inj fed).symm⟩)
  case h_4 => exact .inr (.inr ⟨rfl, fed⟩)
  case h_5 => cases fed

namespace Reads

variable {stmts : List Node} {blocks : List (Opening × List Node)}

theorem feedOperand? {purpose : Purpose} {waiting : Waiting} {outer : List Waiting}
    (h : Reads ⟨.operand purpose waiting outer, stmts, blocks⟩ lexemes)
    (fed : Draft.feedOperand? ⟨.operand purpose waiting outer, stmts, blocks⟩ purpose waiting
      outer l = some d') : d'.Reads (lexemes ++ [l]) := by
  rcases feedOperand?_eq_some fed with ⟨atom, same, rfl⟩ | ⟨isParen, rfl⟩
  · apply h.refocus
    intro last current
    cases current with
    | operand start around inner =>
        obtain ⟨expr, node, whole⟩ := inner.complete atom
        rw [← node, List.append_assoc, List.append_assoc, ← same, ← whole]
        exact .operator start around expr
  · apply h.refocus
    intro last current
    cases current with
    | operand start around inner =>
        have read := Focus.Reads.operand start (.cons around inner (.of l isParen)) .none
        simpa using read

theorem endExpression? {purpose : Purpose} {expr : Node}
    (h : Reads ⟨.operator purpose expr [], stmts, blocks⟩ lexemes)
    (ended : Draft.endExpression? ⟨.operator purpose expr [], stmts, blocks⟩ purpose expr
      l.kind = some d') : d'.Reads (lexemes ++ [l]) := by
  unfold Draft.endExpression? at ended
  split at ended
  case h_1 isEnd =>
    cases ended
    apply h.addStatement
    intro last current
    cases current with
    | operator start around init =>
        cases around
        cases start with
        | init type name equals =>
            exact ⟨.simple (.decl type name equals init) (.of l isEnd), rfl, rfl⟩
  case h_2 isEnd =>
    cases ended
    apply h.addStatement
    intro last current
    cases current with
    | operator start around value =>
        cases around
        cases start with
        | value name equals =>
            exact ⟨.simple (.assign name equals value) (.of l isEnd), rfl, rfl⟩
  case h_3 isRight =>
    cases ended
    apply h.refocus
    intro last current
    cases current with
    | operator start around value =>
        cases around
        cases start with
        | print word left => exact .semicolon (.print word left value (.of l isRight))
  case h_4 isRight =>
    cases ended
    apply h.refocus
    intro last current
    cases current with
    | operator start around cond =>
        cases around
        cases start with
        | cond word left => exact .thenBrace word left cond (.of l isRight)
  case h_5 => cases ended

theorem feedOperator? {purpose : Purpose} {expr : Node} {outer : List Waiting}
    (h : Reads ⟨.operator purpose expr outer, stmts, blocks⟩ lexemes)
    (fed : Draft.feedOperator? ⟨.operator purpose expr outer, stmts, blocks⟩ purpose expr
      outer l = some d') : d'.Reads (lexemes ++ [l]) := by
  rcases feedOperator?_eq_some fed with
    ⟨isOperator, rfl⟩ | ⟨waiting, around, rfl, isParen, rfl⟩ | ⟨rfl, ended⟩
  · apply h.refocus
    intro last current
    cases current with
    | operator start around expr =>
        have read := Focus.Reads.operand start around (.some expr ⟨l, isOperator⟩)
        simpa using read
  · apply h.refocus
    intro last current
    cases current with
    | operator start around inner =>
        cases around with
        | cons around waits left =>
            obtain ⟨expr, node, whole⟩ := waits.complete (.paren left inner (.of l isParen))
            have read := Focus.Reads.operator start around expr
            rw [node, whole] at read
            simpa [Atom.lexemes, Atom.node] using read
  · exact h.endExpression? ended

/-- One more lexeme: a draft that takes it stands for all lexemes before and for it. -/
theorem feed? (h : d.Reads lexemes) (fed : d.feed? l = some d') : d'.Reads (lexemes ++ [l]) := by
  obtain ⟨focus, stmts, blocks⟩ := d
  cases focus with
  | statement => exact h.feedStatement? fed
  | declName type =>
      obtain ⟨isName, rfl⟩ : l.kind = .identifier ∧ _ = d' := by simpa [Draft.feed?] using fed
      apply h.refocus
      rintro _ ⟨⟩
      exact .declEquals _ (.of l isName)
  | declEquals type name =>
      obtain ⟨isEquals, rfl⟩ : l.kind = .equals ∧ _ = d' := by simpa [Draft.feed?] using fed
      apply h.refocus
      rintro _ ⟨⟩
      exact .operand (.init _ _ (.of l isEquals)) .nil .none
  | assignEquals name =>
      obtain ⟨isEquals, rfl⟩ : l.kind = .equals ∧ _ = d' := by simpa [Draft.feed?] using fed
      apply h.refocus
      rintro _ ⟨⟩
      exact .operand (.value _ (.of l isEquals)) .nil .none
  | printParen word =>
      obtain ⟨isLeft, rfl⟩ : l.kind = .leftParen ∧ _ = d' := by simpa [Draft.feed?] using fed
      apply h.refocus
      rintro _ ⟨⟩
      exact .operand (.print _ (.of l isLeft)) .nil .none
  | ifParen =>
      obtain ⟨isLeft, rfl⟩ : l.kind = .leftParen ∧ _ = d' := by simpa [Draft.feed?] using fed
      apply h.refocus
      rintro _ ⟨⟩
      exact .operand (.cond _ (.of l isLeft)) .nil .none
  | operand purpose waiting outer => exact h.feedOperand? fed
  | operator purpose expr outer => exact h.feedOperator? fed
  | thenBrace paren cond =>
      obtain ⟨isBrace, rfl⟩ : l.kind = .leftBrace ∧ _ = d' := by simpa [Draft.feed?] using fed
      apply h.openBlock
      intro last current
      cases current with
      | thenBrace word left cond right =>
          have read := Opening.Reads.conditional word left cond right (.of l isBrace)
          simpa using read
  | semicolon stmt =>
      obtain ⟨isEnd, rfl⟩ : l.kind = .semicolon ∧ _ = d' := by simpa [Draft.feed?] using fed
      apply h.addStatement
      intro last current
      cases current with
      | semicolon simple => exact ⟨.simple simple (.of l isEnd), rfl, rfl⟩

/-- A draft stands for all lexemes that it has taken. -/
theorem feedAll (h : d.Reads lexemes) (fed : d.feedAll rest = .ok d') :
    d'.Reads (lexemes ++ rest) := by
  induction rest generalizing d lexemes with
  | nil =>
      cases fed
      rwa [List.append_nil]
  | cons l rest ih =>
      cases step : d.feed? l with
      | none => simp [Draft.feedAll, step] at fed
      | some next =>
          rw [feedAll_of_feed? step] at fed
          have read := ih (h.feed? step) fed
          rwa [List.append_assoc] at read

/-- A complete draft stands for the lexemes of a derivation of its program. -/
theorem program? {p : Program} (h : d.Reads lexemes) (complete : d.program? = some p) :
    ∃ list : Stmts, list.lexemes = lexemes ∧ list.program = p := by
  cases h with
  | mk around list current =>
      cases current with
      | statement =>
          cases around with
          | nil =>
              refine ⟨list, by simp, ?_⟩
              simpa [Draft.program?, Stmts.program] using complete
          | cons => cases complete
      | _ => cases complete

end Reads

/-- The draft can be fed lexemes with which it is a complete program. -/
def Completable (d : Draft) : Prop :=
  ∃ rest d' p, d.feedAll rest = .ok d' ∧ d'.program? = some p

namespace Completable

variable (stmts : List Node) (blocks : List (Opening × List Node))

/-- A lexeme of the given kind. Only the kind decides whether a draft takes it. -/
def sample (kind : Kind) : Lexeme := ⟨kind, "", .start⟩

theorem of_feed? (kind : Kind) (fed : d.feed? (sample kind) = some d') (h : d'.Completable) :
    d.Completable := by
  obtain ⟨rest, last, p, others, complete⟩ := h
  exact ⟨sample kind :: rest, last, p, (feedAll_of_feed? fed).trans others, complete⟩

/-- Open blocks are closed. -/
theorem statement : Completable ⟨.statement, stmts, blocks⟩ := by
  induction blocks generalizing stmts with
  | nil => exact ⟨[], _, ⟨stmts.reverse⟩, rfl, rfl⟩
  | cons block blocks ih => exact .of_feed? .rightBrace rfl (ih _)

/-- Open parentheses are closed, and then the statement of the expression is ended. -/
theorem operator (purpose : Purpose) (expr : Node) (outer : List Waiting) :
    Completable ⟨.operator purpose expr outer, stmts, blocks⟩ := by
  induction outer generalizing expr with
  | nil =>
      cases purpose with
      | init => exact .of_feed? .semicolon rfl (statement _ _)
      | value => exact .of_feed? .semicolon rfl (statement _ _)
      | print => exact .of_feed? .rightParen rfl (.of_feed? .semicolon rfl (statement _ _))
      | cond => exact .of_feed? .rightParen rfl (.of_feed? .leftBrace rfl (statement _ _))
  | cons waiting outer ih => exact .of_feed? .rightParen rfl (ih _)

theorem operand (purpose : Purpose) (waiting : Waiting) (outer : List Waiting) :
    Completable ⟨.operand purpose waiting outer, stmts, blocks⟩ :=
  .of_feed? .number rfl (operator _ _ _ _ _)

end Completable

/-- Every draft can be completed, so that no lexeme is taken that leads nowhere. -/
theorem completable (d : Draft) : d.Completable := by
  obtain ⟨focus, stmts, blocks⟩ := d
  cases focus with
  | statement => exact .statement _ _
  | declName type =>
      exact .of_feed? .identifier rfl (.of_feed? .equals rfl (.operand _ _ _ _ _))
  | declEquals type name => exact .of_feed? .equals rfl (.operand _ _ _ _ _)
  | assignEquals name => exact .of_feed? .equals rfl (.operand _ _ _ _ _)
  | printParen word => exact .of_feed? .leftParen rfl (.operand _ _ _ _ _)
  | ifParen => exact .of_feed? .leftParen rfl (.operand _ _ _ _ _)
  | operand purpose waiting outer => exact .operand _ _ _ _ _
  | operator purpose expr outer => exact .operator _ _ _ _ _
  | thenBrace paren cond => exact .of_feed? .leftBrace rfl (.statement _ _)
  | semicolon stmt => exact .of_feed? .semicolon rfl (.statement _ _)

end Draft

end BlockLang

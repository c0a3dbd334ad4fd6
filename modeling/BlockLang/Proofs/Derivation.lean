import BlockLang.Node
import BlockLang.Proofs.Grammar

/-!
# Derivations

A derivation shows how lexemes form a program. There is one type of derivations for each
sort of phrase, with one constructor for each rule, and a derivation holds the lexemes that
it is about. Expressions are derived from the left: an operand is added to the end of an
expression, together with the operator before it.

The lexemes of a derivation are read off it from left to right, and so is the program: each
node takes its tokens from the lexemes of its own rule. The sentences of the grammar are
exactly the lexemes of derivations, although the rules of the grammar allow an expression
to be split at any of its operators.
-/

namespace BlockLang

open Lexeme (Kind)

namespace Node

mutual

/-- The tokens of a tree, in the order in which they stand in a source text. -/
def tokens : Node → List Token
  | .program stmts => tokensAll stmts
  | .block brace stmts => brace :: tokensAll stmts
  | .varDecl type name equals init => type :: name :: equals :: init.tokens
  | .assign name equals value => name :: equals :: value.tokens
  | .conditional paren cond brace body => paren :: (cond.tokens ++ brace :: tokensAll body)
  | .print word value => word :: value.tokens
  | .binary op left right => left.tokens ++ op :: right.tokens
  | .ident name => [name]
  | .intLit literal => [literal]
  | .boolLit literal => [literal]
  | .token bare => [bare]
  | .absent => []

/-- The tokens of several trees, in the order in which they stand in a source text. -/
def tokensAll : List Node → List Token
  | [] => []
  | node :: rest => node.tokens ++ tokensAll rest

end

theorem tokensAll_append (first second : List Node) :
    tokensAll (first ++ second) = tokensAll first ++ tokensAll second := by
  induction first with
  | nil => simp [tokensAll]
  | cons node rest ih => simp [tokensAll, ih]

end Node

/-- A lexeme of one of the given kinds. -/
abbrev Terminal (kinds : List Kind) : Type :=
  { l : Lexeme // l.kind ∈ kinds }

/-- A lexeme of a kind, as one of that kind alone. -/
def Terminal.of {kind : Kind} (l : Lexeme) (h : l.kind = kind) : Terminal [kind] :=
  ⟨l, List.mem_singleton.mpr h⟩

@[simp] theorem Terminal.val_of {kind : Kind} (l : Lexeme) (h : l.kind = kind) :
    (Terminal.of l h).val = l := rfl

theorem Terminal.kind_eq {kind : Kind} (l : Terminal [kind]) : l.val.kind = kind :=
  List.mem_singleton.mp l.property

theorem Terminal.kind_or {kind kind' : Kind} (l : Terminal [kind, kind']) :
    l.val.kind = kind ∨ l.val.kind = kind' := by
  simpa using l.property

theorem Terminal.val_ne {kind kind' : Kind} (l : Terminal [kind]) (m : Terminal [kind'])
    (different : kind ≠ kind') : l.val ≠ m.val := by
  intro same
  have kinds := congrArg Lexeme.kind same
  rw [l.kind_eq, m.kind_eq] at kinds
  exact different kinds

namespace Derivation

mutual

/-- An operand: a literal, a variable, or an expression between parentheses. -/
inductive Atom
  | number (l : Terminal [.number])
  | truth (l : Terminal [.trueWord, .falseWord])
  | ident (l : Terminal [.identifier])
  | paren (left : Terminal [.leftParen]) (inner : Expr) (right : Terminal [.rightParen])

/-- An expression: an operand, or an expression with an operator and an operand after it. -/
inductive Expr
  | atom (operand : Atom)
  | binary (left : Expr) (op : Terminal [.plus, .minus]) (right : Atom)

end

/-- A statement that a semicolon ends, without the semicolon. -/
inductive Simple
  | decl (type : Terminal [.intWord, .booleanWord]) (name : Terminal [.identifier])
      (equals : Terminal [.equals]) (init : Expr)
  | assign (name : Terminal [.identifier]) (equals : Terminal [.equals]) (value : Expr)
  | print (word : Terminal [.printWord]) (left : Terminal [.leftParen]) (value : Expr)
      (right : Terminal [.rightParen])

mutual

/-- Statements between braces. -/
inductive Block
  | mk (left : Terminal [.leftBrace]) (body : Stmts) (right : Terminal [.rightBrace])

/-- A statement. -/
inductive Stmt
  | simple (inner : Simple) (semicolon : Terminal [.semicolon])
  | conditional (word : Terminal [.ifWord]) (left : Terminal [.leftParen]) (cond : Expr)
      (right : Terminal [.rightParen]) (block : Block)
  | block (block : Block)

/-- A statement list, which grows at its end. -/
inductive Stmts
  | empty
  | snoc (init : Stmts) (last : Stmt)

end

mutual

/-- The lexemes of an operand. -/
def Atom.lexemes : Atom → List Lexeme
  | .number l => [l.val]
  | .truth l => [l.val]
  | .ident l => [l.val]
  | .paren left inner right => left.val :: (inner.lexemes ++ [right.val])

/-- The lexemes of an expression. -/
def Expr.lexemes : Expr → List Lexeme
  | .atom operand => operand.lexemes
  | .binary left op right => left.lexemes ++ op.val :: right.lexemes

end

/-- The lexemes of a statement that a semicolon ends, without the semicolon. -/
def Simple.lexemes : Simple → List Lexeme
  | .decl type name equals init => type.val :: name.val :: equals.val :: init.lexemes
  | .assign name equals value => name.val :: equals.val :: value.lexemes
  | .print word left value right => word.val :: left.val :: (value.lexemes ++ [right.val])

mutual

/-- The lexemes of a block. -/
def Block.lexemes : Block → List Lexeme
  | .mk left body right => left.val :: (body.lexemes ++ [right.val])

/-- The lexemes of a statement. -/
def Stmt.lexemes : Stmt → List Lexeme
  | .simple inner semicolon => inner.lexemes ++ [semicolon.val]
  | .conditional word left cond right block =>
    word.val :: left.val :: (cond.lexemes ++ right.val :: block.lexemes)
  | .block block => block.lexemes

/-- The lexemes of a statement list. -/
def Stmts.lexemes : Stmts → List Lexeme
  | .empty => []
  | .snoc init last => init.lexemes ++ last.lexemes

end

mutual

/-- The tree of an operand. Parentheses have no node of their own. -/
def Atom.node : Atom → Node
  | .number l => .intLit l.val.token
  | .truth l => .boolLit l.val.token
  | .ident l => .ident l.val.token
  | .paren _ inner _ => inner.node

/-- The tree of an expression. -/
def Expr.node : Expr → Node
  | .atom operand => operand.node
  | .binary left op right => .binary op.val.token left.node right.node

end

/-- The tree of a statement that a semicolon ends. -/
def Simple.node : Simple → Node
  | .decl type name equals init =>
    .varDecl type.val.token name.val.token equals.val.token init.node
  | .assign name equals value => .assign name.val.token equals.val.token value.node
  | .print word _ value _ => .print word.val.token value.node

/-- The token of the brace that opens a block. -/
def Block.brace : Block → Token
  | .mk left _ _ => left.val.token

mutual

/-- The trees of the statements between braces. -/
def Block.nodes : Block → List Node
  | .mk _ body _ => body.nodes

/-- The tree of a statement. -/
def Stmt.node : Stmt → Node
  | .simple inner _ => inner.node
  | .conditional _ left cond _ block =>
    .conditional left.val.token cond.node block.brace block.nodes
  | .block block => .block block.brace block.nodes

/-- The trees of the statements of a list, in order. -/
def Stmts.nodes : Stmts → List Node
  | .empty => []
  | .snoc init last => init.nodes ++ [last.node]

end

/-- The program of a statement list. -/
def Stmts.program (stmts : Stmts) : Program := ⟨stmts.nodes⟩

mutual

theorem Atom.tokens_sublist : (atom : Atom) →
    atom.node.tokens.Sublist (atom.lexemes.map Lexeme.token)
  | .number _ => .refl _
  | .truth _ => .refl _
  | .ident _ => .refl _
  | .paren left inner right => by
    have within : (inner.lexemes.map Lexeme.token).Sublist
        (((inner.lexemes ++ [right.val]).map Lexeme.token)) := by
      rw [List.map_append]
      exact List.sublist_append_left _ _
    exact (inner.tokens_sublist.trans within).cons left.val.token

theorem Expr.tokens_sublist : (expr : Expr) →
    expr.node.tokens.Sublist (expr.lexemes.map Lexeme.token)
  | .atom operand => operand.tokens_sublist
  | .binary left op right => by
    rw [Expr.node, Node.tokens, Expr.lexemes, List.map_append]
    exact left.tokens_sublist.append (right.tokens_sublist.cons_cons op.val.token)

end

theorem Simple.tokens_sublist (simple : Simple) :
    simple.node.tokens.Sublist (simple.lexemes.map Lexeme.token) := by
  cases simple with
  | decl type name equals init =>
      exact ((init.tokens_sublist.cons_cons _).cons_cons _).cons_cons _
  | assign name equals value => exact (value.tokens_sublist.cons_cons _).cons_cons _
  | print word left value right =>
      rw [Simple.lexemes, List.map_cons, List.map_cons, List.map_append]
      have within := value.tokens_sublist.trans
        (List.sublist_append_left _ ([right.val].map Lexeme.token))
      exact (within.cons left.val.token).cons_cons word.val.token

mutual

theorem Block.tokens_sublist : (block : Block) →
    (block.brace :: Node.tokensAll block.nodes).Sublist (block.lexemes.map Lexeme.token)
  | .mk left body right => by
    rw [Block.lexemes, List.map_cons, List.map_append]
    have within := body.tokens_sublist.trans
      (List.sublist_append_left _ ([right.val].map Lexeme.token))
    exact within.cons_cons left.val.token

theorem Stmt.tokens_sublist : (stmt : Stmt) →
    stmt.node.tokens.Sublist (stmt.lexemes.map Lexeme.token)
  | .simple inner semicolon => by
    rw [Stmt.lexemes, List.map_append]
    exact inner.tokens_sublist.trans (List.sublist_append_left _ _)
  | .conditional word left cond right block => by
    rw [Stmt.lexemes, List.map_cons, List.map_cons, List.map_append, List.map_cons]
    have within := cond.tokens_sublist.append (block.tokens_sublist.cons right.val.token)
    exact (within.cons_cons left.val.token).cons word.val.token
  | .block block => block.tokens_sublist

/-- The tokens of the program are those of lexemes, in the same order. -/
theorem Stmts.tokens_sublist : (stmts : Stmts) →
    (Node.tokensAll stmts.nodes).Sublist (stmts.lexemes.map Lexeme.token)
  | .empty => .refl _
  | .snoc init last => by
    rw [Stmts.nodes, Stmts.lexemes, Node.tokensAll_append, List.map_append]
    have single : Node.tokensAll [last.node] = last.node.tokens := by
      simp [Node.tokensAll]
    rw [single]
    exact init.tokens_sublist.append last.tokens_sublist

end

/-- An expression with an operator and another expression after it. The operations of the
second keep their order, and the first becomes their leftmost operand. -/
def Expr.join (left : Expr) (op : Terminal [.plus, .minus]) : Expr → Expr
  | .atom operand => .binary left op operand
  | .binary inner op' operand => .binary (left.join op inner) op' operand

theorem Expr.lexemes_join (left : Expr) (op : Terminal [.plus, .minus]) (right : Expr) :
    (left.join op right).lexemes = left.lexemes ++ op.val :: right.lexemes := by
  fun_induction Expr.join left op right with
  | case1 operand => simp [Expr.lexemes]
  | case2 inner op' operand ih => simp [Expr.lexemes, ih]

/-- The lexemes have a derivation of the sort that the nonterminal asks for. -/
def Forms : Nonterminal → List Lexeme → Prop
  | .program, lexemes | .stmtList, lexemes => ∃ stmts : Stmts, stmts.lexemes = lexemes
  | .stmt, lexemes | .ifStmt, lexemes => ∃ stmt : Stmt, stmt.lexemes = lexemes
  | .declStmt, lexemes | .assignStmt, lexemes | .printStmt, lexemes =>
    ∃ simple : Simple, simple.lexemes = lexemes
  | .typeWord, lexemes => ∃ type : Terminal [.intWord, .booleanWord], [type.val] = lexemes
  | .block, lexemes => ∃ block : Block, block.lexemes = lexemes
  | .expr, lexemes => ∃ expr : Expr, expr.lexemes = lexemes

/-- Each rule of the grammar holds of derivations. Two expressions around an operator are
joined into one that is derived from the left. -/
theorem forms_of_rule {rule : ContextFreeRule Kind Nonterminal} (member : rule ∈ productions)
    {lexemes : List Lexeme}
    (h : ContextFreeGrammar.Spells Lexeme.kind Forms rule.output lexemes) :
    Forms rule.input lexemes := by
  simp only [productions, List.mem_cons, List.not_mem_nil, or_false] at member
  rcases member with rfl | rfl | rfl | rfl | rfl | rfl | rfl | rfl | rfl | rfl | rfl | rfl | rfl |
    rfl | rfl | rfl | rfl | rfl | rfl | rfl | rfl | rfl
  -- The program and its statement lists.
  · obtain ⟨_, _, ⟨stmts, rfl⟩, rfl, rfl⟩ := h
    exact ⟨stmts, (List.append_nil _).symm⟩
  · obtain ⟨_, _, ⟨init, rfl⟩, ⟨_, _, ⟨last, rfl⟩, rfl, rfl⟩, rfl⟩ := h
    exact ⟨.snoc init last, by simp [Stmts.lexemes]⟩
  · obtain rfl := h
    exact ⟨.empty, rfl⟩
  -- The five rules for a statement: three with a semicolon and two without.
  · obtain ⟨_, _, ⟨simple, rfl⟩, ⟨l, _, isEnd, rfl, rfl⟩, rfl⟩ := h
    exact ⟨.simple simple (.of l isEnd), rfl⟩
  · obtain ⟨_, _, ⟨simple, rfl⟩, ⟨l, _, isEnd, rfl, rfl⟩, rfl⟩ := h
    exact ⟨.simple simple (.of l isEnd), rfl⟩
  · obtain ⟨_, _, ⟨simple, rfl⟩, ⟨l, _, isEnd, rfl, rfl⟩, rfl⟩ := h
    exact ⟨.simple simple (.of l isEnd), rfl⟩
  · obtain ⟨_, _, ⟨stmt, rfl⟩, rfl, rfl⟩ := h
    exact ⟨stmt, (List.append_nil _).symm⟩
  · obtain ⟨_, _, ⟨block, rfl⟩, rfl, rfl⟩ := h
    exact ⟨.block block, (List.append_nil _).symm⟩
  -- The statements by themselves.
  · obtain ⟨_, _, ⟨type, rfl⟩, ⟨n, _, isName, ⟨e, _, isEquals, ⟨_, _, ⟨init, rfl⟩, rfl, rfl⟩, rfl⟩,
      rfl⟩, rfl⟩ := h
    exact ⟨.decl type (.of n isName) (.of e isEquals) init, by simp [Simple.lexemes]⟩
  · obtain ⟨l, _, isInt, rfl, rfl⟩ := h
    exact ⟨⟨l, by simp [isInt]⟩, rfl⟩
  · obtain ⟨l, _, isBoolean, rfl, rfl⟩ := h
    exact ⟨⟨l, by simp [isBoolean]⟩, rfl⟩
  · obtain ⟨n, _, isName, ⟨e, _, isEquals, ⟨_, _, ⟨value, rfl⟩, rfl, rfl⟩, rfl⟩, rfl⟩ := h
    exact ⟨.assign (.of n isName) (.of e isEquals) value, by simp [Simple.lexemes]⟩
  · obtain ⟨w, _, isPrint, ⟨l, _, isLeft, ⟨_, _, ⟨value, rfl⟩, ⟨r, _, isRight, rfl, rfl⟩, rfl⟩,
      rfl⟩, rfl⟩ := h
    exact ⟨.print (.of w isPrint) (.of l isLeft) value (.of r isRight), rfl⟩
  · obtain ⟨w, _, isIf, ⟨l, _, isLeft, ⟨_, _, ⟨cond, rfl⟩, ⟨r, _, isRight, ⟨_, _, ⟨block, rfl⟩,
      rfl, rfl⟩, rfl⟩, rfl⟩, rfl⟩, rfl⟩ := h
    exact ⟨.conditional (.of w isIf) (.of l isLeft) cond (.of r isRight) block,
      by simp [Stmt.lexemes]⟩
  · obtain ⟨l, _, isLeft, ⟨_, _, ⟨body, rfl⟩, ⟨r, _, isRight, rfl, rfl⟩, rfl⟩, rfl⟩ := h
    exact ⟨.mk (.of l isLeft) body (.of r isRight), rfl⟩
  -- Expressions.
  · obtain ⟨_, _, ⟨left, rfl⟩, ⟨op, _, isPlus, ⟨_, _, ⟨right, rfl⟩, rfl, rfl⟩, rfl⟩, rfl⟩ := h
    exact ⟨left.join ⟨op, by simp [isPlus]⟩ right, by simp [Expr.lexemes_join]⟩
  · obtain ⟨_, _, ⟨left, rfl⟩, ⟨op, _, isMinus, ⟨_, _, ⟨right, rfl⟩, rfl, rfl⟩, rfl⟩, rfl⟩ := h
    exact ⟨left.join ⟨op, by simp [isMinus]⟩ right, by simp [Expr.lexemes_join]⟩
  · obtain ⟨l, _, isNumber, rfl, rfl⟩ := h
    exact ⟨.atom (.number (.of l isNumber)), rfl⟩
  · obtain ⟨l, _, isTrue, rfl, rfl⟩ := h
    exact ⟨.atom (.truth ⟨l, by simp [isTrue]⟩), rfl⟩
  · obtain ⟨l, _, isFalse, rfl, rfl⟩ := h
    exact ⟨.atom (.truth ⟨l, by simp [isFalse]⟩), rfl⟩
  · obtain ⟨l, _, isName, rfl, rfl⟩ := h
    exact ⟨.atom (.ident (.of l isName)), rfl⟩
  · obtain ⟨l, _, isLeft, ⟨_, _, ⟨inner, rfl⟩, ⟨r, _, isRight, rfl, rfl⟩, rfl⟩, rfl⟩ := h
    exact ⟨.atom (.paren (.of l isLeft) inner (.of r isRight)), rfl⟩

/-- The grammar derives the kinds of the lexemes from the nonterminal. -/
def Generated (n : Nonterminal) (lexemes : List Lexeme) : Prop :=
  grammar.Yields Lexeme.kind [.nonterminal n] lexemes

theorem generated_of_rule (n : Nonterminal) (form) (member : ⟨n, form⟩ ∈ productions)
    {lexemes : List Lexeme}
    (h : ContextFreeGrammar.Spells Lexeme.kind Generated form lexemes) : Generated n lexemes := by
  have rule : (⟨n, form⟩ : ContextFreeRule Kind Nonterminal) ∈ grammar.rules :=
    List.mem_toFinset.mpr member
  exact ContextFreeGrammar.yields_of_rule rule h

mutual

theorem Atom.generated : (atom : Atom) → Generated .expr atom.lexemes
  | .number l => by
    apply generated_of_rule .expr [.terminal .number] (by decide)
    exact ⟨_, _, l.kind_eq, rfl, rfl⟩
  | .truth l => by
    rcases l.kind_or with isTrue | isFalse
    · apply generated_of_rule .expr [.terminal .trueWord] (by decide)
      exact ⟨_, _, isTrue, rfl, rfl⟩
    · apply generated_of_rule .expr [.terminal .falseWord] (by decide)
      exact ⟨_, _, isFalse, rfl, rfl⟩
  | .ident l => by
    apply generated_of_rule .expr [.terminal .identifier] (by decide)
    exact ⟨_, _, l.kind_eq, rfl, rfl⟩
  | .paren left inner right => by
    apply generated_of_rule .expr
      [.terminal .leftParen, .nonterminal .expr, .terminal .rightParen] (by decide)
    exact ⟨_, _, left.kind_eq,
      ⟨_, _, inner.generated, ⟨_, _, right.kind_eq, rfl, rfl⟩, rfl⟩, rfl⟩

theorem Expr.generated : (expr : Expr) → Generated .expr expr.lexemes
  | .atom operand => operand.generated
  | .binary left op right => by
    have operands : ∀ k, op.val.kind = k → ContextFreeGrammar.Spells Lexeme.kind Generated
        [.nonterminal .expr, .terminal k, .nonterminal .expr]
        (Expr.binary left op right).lexemes := by
      intro k isKind
      exact ⟨_, _, left.generated, ⟨_, _, isKind,
        ⟨_, _, right.generated, rfl, List.append_nil _⟩, rfl⟩, rfl⟩
    rcases op.kind_or with isPlus | isMinus
    · exact generated_of_rule .expr _ (by decide) (operands .plus isPlus)
    · exact generated_of_rule .expr _ (by decide) (operands .minus isMinus)

end

theorem generated_typeWord (type : Terminal [.intWord, .booleanWord]) :
    Generated .typeWord [type.val] := by
  rcases type.kind_or with isInt | isBoolean
  · apply generated_of_rule .typeWord [.terminal .intWord] (by decide)
    exact ⟨_, _, isInt, rfl, rfl⟩
  · apply generated_of_rule .typeWord [.terminal .booleanWord] (by decide)
    exact ⟨_, _, isBoolean, rfl, rfl⟩

/-- The nonterminal of a statement that a semicolon ends. -/
def Simple.nonterminal : Simple → Nonterminal
  | .decl .. => .declStmt
  | .assign .. => .assignStmt
  | .print .. => .printStmt

theorem Simple.generated (simple : Simple) : Generated simple.nonterminal simple.lexemes := by
  cases simple with
  | decl type name equals init =>
      apply generated_of_rule .declStmt [.nonterminal .typeWord, .terminal .identifier,
        .terminal .equals, .nonterminal .expr] (by decide)
      exact ⟨_, _, generated_typeWord type, ⟨_, _, name.kind_eq, ⟨_, _, equals.kind_eq,
        ⟨_, _, init.generated, rfl, List.append_nil _⟩, rfl⟩, rfl⟩, rfl⟩
  | assign name equals value =>
      apply generated_of_rule .assignStmt
        [.terminal .identifier, .terminal .equals, .nonterminal .expr] (by decide)
      exact ⟨_, _, name.kind_eq, ⟨_, _, equals.kind_eq,
        ⟨_, _, value.generated, rfl, List.append_nil _⟩, rfl⟩, rfl⟩
  | print word left value right =>
      apply generated_of_rule .printStmt [.terminal .printWord, .terminal .leftParen,
        .nonterminal .expr, .terminal .rightParen] (by decide)
      exact ⟨_, _, word.kind_eq, ⟨_, _, left.kind_eq, ⟨_, _, value.generated,
        ⟨_, _, right.kind_eq, rfl, rfl⟩, rfl⟩, rfl⟩, rfl⟩

mutual

theorem Block.generated : (block : Block) → Generated .block block.lexemes
  | .mk left body right => by
    apply generated_of_rule .block
      [.terminal .leftBrace, .nonterminal .stmtList, .terminal .rightBrace] (by decide)
    exact ⟨_, _, left.kind_eq,
      ⟨_, _, body.generated, ⟨_, _, right.kind_eq, rfl, rfl⟩, rfl⟩, rfl⟩

theorem Stmt.generated : (stmt : Stmt) → Generated .stmt stmt.lexemes
  | .simple inner semicolon => by
    apply generated_of_rule .stmt [.nonterminal inner.nonterminal, .terminal .semicolon]
      (by cases inner <;> simp [productions, Simple.nonterminal])
    exact ⟨_, _, inner.generated, ⟨_, _, semicolon.kind_eq, rfl, rfl⟩, rfl⟩
  | .conditional word left cond right block => by
    have conditional : Generated .ifStmt (Stmt.conditional word left cond right block).lexemes := by
      apply generated_of_rule .ifStmt [.terminal .ifWord, .terminal .leftParen,
        .nonterminal .expr, .terminal .rightParen, .nonterminal .block] (by decide)
      exact ⟨_, _, word.kind_eq, ⟨_, _, left.kind_eq, ⟨_, _, cond.generated, ⟨_, _, right.kind_eq,
        ⟨_, _, block.generated, rfl, List.append_nil _⟩, rfl⟩, rfl⟩, rfl⟩, rfl⟩
    apply generated_of_rule .stmt [.nonterminal .ifStmt] (by decide)
    exact ⟨_, _, conditional, rfl, List.append_nil _⟩
  | .block block => by
    apply generated_of_rule .stmt [.nonterminal .block] (by decide)
    exact ⟨_, _, block.generated, rfl, List.append_nil _⟩

theorem Stmts.generated : (stmts : Stmts) → Generated .stmtList stmts.lexemes
  | .empty => generated_of_rule .stmtList [] (by decide) rfl
  | .snoc init last => by
    apply generated_of_rule .stmtList [.nonterminal .stmtList, .nonterminal .stmt] (by decide)
    exact ⟨_, _, init.generated, ⟨_, _, last.generated, rfl, List.append_nil _⟩, rfl⟩

end

/-- The sentences of the grammar are the lexemes of derivations. -/
theorem isSentence_iff {lexemes : List Lexeme} :
    IsSentence lexemes ↔ ∃ stmts : Stmts, stmts.lexemes = lexemes := by
  constructor
  · intro h
    have keeps : ∀ rule ∈ grammar.rules, ∀ part : List Lexeme,
        ContextFreeGrammar.Spells Lexeme.kind Forms rule.output part → Forms rule.input part :=
      fun rule member part => forms_of_rule (List.mem_toFinset.mp member)
    obtain ⟨_, _, forms, rfl, rfl⟩ := ContextFreeGrammar.Yields.spells h keeps
    obtain ⟨stmts, rfl⟩ : Forms .program _ := forms
    exact ⟨stmts, (List.append_nil _).symm⟩
  · rintro ⟨stmts, rfl⟩
    apply generated_of_rule .program [.nonterminal .stmtList] (by decide)
    exact ⟨_, _, stmts.generated, rfl, List.append_nil _⟩

end Derivation

end BlockLang

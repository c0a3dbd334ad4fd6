import BlockLang.Proofs.Checking
import BlockLang.Proofs.Parsing
import BlockLang.Proofs.Scanning

/-!
# Checking comes to its end

A tree is regular if every node in it is of the sort that its place requires, and every
type word denotes a type. Checking a regular tree does not fault while a scope is open, and
it leaves as many scopes as it found. The trees that are read from source texts are
regular: a derivation puts every node in its place, and the type words are spelled as
scanning has found them.
-/

namespace BlockLang

namespace Node

/-- The node is made of operators, variables and literals only. -/
inductive IsExpression : Node → Prop
  | intLit (literal : Token) : IsExpression (.intLit literal)
  | boolLit (literal : Token) : IsExpression (.boolLit literal)
  | ident (name : Token) : IsExpression (.ident name)
  | binary {op : Token} {left right : Node} (leftExpr : IsExpression left)
      (rightExpr : IsExpression right) : IsExpression (.binary op left right)

/-- The node is a statement, apart from what stands between its braces. -/
inductive IsRegular : Node → Prop
  | varDecl {word name equals : Token} {init : Node} {type : Ty}
      (known : Ty.ofWord? word.text = some type) (value : IsExpression init) :
      IsRegular (.varDecl word name equals init)
  | assign {name equals : Token} {node : Node} (value : IsExpression node) :
      IsRegular (.assign name equals node)
  | conditional {paren brace : Token} {cond : Node} {body : List Node}
      (value : IsExpression cond) : IsRegular (.conditional paren cond brace body)
  | block {brace : Token} {body : List Node} : IsRegular (.block brace body)
  | print {word : Token} {node : Node} (value : IsExpression node) :
      IsRegular (.print word node)

/-- All statements of the list are regular, also those between braces. -/
def Regular (stmts : List Node) : Prop :=
  ∀ stmt, Within stmt stmts → stmt.IsRegular

theorem regular_cons_iff {stmt : Node} {rest : List Node} :
    Regular (stmt :: rest) ↔ stmt.IsRegular ∧ Regular stmt.body ∧ Regular rest := by
  simp only [Regular, within_cons_iff, or_imp, forall_and, forall_eq]

end Node

namespace Check

variable {α β : Type}

/-- While a scope is open, the step succeeds and leaves as many scopes as it found. -/
def Completes (step : Check α) : Prop :=
  ∀ c : Checker, 0 < c.scopes.depth →
    ∃ a c', step c = .ok a c' ∧ c'.scopes.depth = c.scopes.depth

namespace Completes

theorem pure (a : α) : Completes (pure a) := fun c _ => ⟨a, c, rfl, rfl⟩

theorem bind {x : Check α} {f : α → Check β} (first : Completes x)
    (second : ∀ a, Completes (f a)) : Completes (x >>= f) := by
  intro c opened
  obtain ⟨a, u, ran, same⟩ := first c opened
  obtain ⟨b, v, ran', same'⟩ := second a u (same ▸ opened)
  exact ⟨b, v, Step.bind_eq_ok_iff.mpr ⟨a, u, ran, ran'⟩, same'.trans same⟩

/-- Between braces there is one scope more. -/
theorem braces {step : Check Unit} (h : Completes step) :
    Completes (do openScope; step; closeScope) := by
  intro c opened
  obtain ⟨_, u, ran, same⟩ := h { c with scopes := c.scopes.openScope } (Nat.succ_pos _)
  refine ⟨(), { u with scopes := u.scopes.closeScope }, ?_, ?_⟩
  · exact Step.bind_eq_ok_iff.mpr ⟨(), _, rfl, Step.bind_eq_ok_iff.mpr ⟨(), u, ran, rfl⟩⟩
  · rw [ScopeStack.depth_closeScope, same]
    rfl

end Completes

theorem completes_report (problem : Problem) (token : Token) :
    Completes (report problem token) :=
  fun c _ => ⟨(), c.report problem token, rfl, rfl⟩

theorem completes_declare (name : Token) (type : Ty) : Completes (declare name type) := by
  intro c opened
  simp only [declare, Step.get_bind_apply]
  obtain ⟨⟨scopes⟩, reports⟩ := c
  cases scopes with
  | nil => cases opened
  | cons innermost outer =>
      cases found : innermost.find? name.text with
      | none =>
          simp only [ScopeStack.declare, found]
          exact ⟨(), _, rfl, rfl⟩
      | some earlier =>
          simp only [ScopeStack.declare, found]
          exact completes_report _ _ _ opened

theorem completes_resolve (name : Token) : Completes (resolve name) := by
  intro c opened
  simp only [resolve, Step.get_bind_apply]
  cases c.scopes.lookup? name.text with
  | some sym => exact Completes.pure _ c opened
  | none => exact (completes_report _ _).bind (fun _ => .pure _) c opened

theorem completes_operation (op : Token) (left right : Ty) :
    Completes (operation op left right) := by
  unfold operation
  split
  · exact .pure _
  · split
    · exact .pure _
    · exact (completes_report _ _).bind fun _ => .pure _

theorem completes_reportIf (wrong : Bool) (problem : Problem) (token : Token) :
    Completes (if wrong then report problem token else pure ()) := by
  split
  · exact completes_report _ _
  · exact .pure _

theorem completes_expectMatch (equals : Token) (found expected : Ty) :
    Completes (expectMatch equals found expected) :=
  completes_reportIf _ _ _

theorem completes_expectCondition (paren : Token) (found : Ty) :
    Completes (expectCondition paren found) :=
  completes_reportIf _ _ _

theorem completes_typeOf {node : Node} (h : node.IsExpression) : Completes (typeOf node) := by
  induction h with
  | intLit => exact .pure _
  | boolLit => exact .pure _
  | ident name =>
      simp only [typeOf]
      apply (completes_resolve name).bind
      intro target
      cases target with
      | none => exact .pure _
      | some sym => exact .pure _
  | binary _ _ left_ih right_ih =>
      simp only [typeOf]
      apply left_ih.bind
      intro l
      apply right_ih.bind
      intro r
      exact completes_operation _ l r

/-- Checking a regular statement completes, if checking what stands between its braces
does. -/
theorem completes_statement {stmt : Node} (own : stmt.IsRegular)
    (body : Completes (statements stmt.body)) : Completes (statement stmt) := by
  cases own with
  | @varDecl word name equals init type known value =>
      simp only [statement, declaredType, known, pure_bind]
      apply (completes_declare name type).bind
      intro _
      apply (completes_typeOf value).bind
      intro found
      exact completes_expectMatch equals found type
  | @assign name equals node value =>
      simp only [statement]
      apply (completes_resolve name).bind
      intro target
      apply (completes_typeOf value).bind
      intro found
      cases target with
      | none => exact .pure _
      | some sym => exact completes_expectMatch equals found sym.type
  | @conditional paren _ _ _ value =>
      simp only [statement]
      apply (completes_typeOf value).bind
      intro found
      apply (completes_expectCondition paren found).bind
      intro _
      exact body.braces
  | block =>
      simp only [statement]
      exact body.braces
  | print value =>
      simp only [statement]
      exact (completes_typeOf value).bind fun _ => .pure _

theorem completes_statements {stmts : List Node} (regular : Node.Regular stmts) :
    Completes (statements stmts) := by
  induction stmts using Node.list_induction with
  | nil =>
      simp only [statements]
      exact .pure _
  | cons stmt rest body_ih rest_ih =>
      obtain ⟨own, body, others⟩ := Node.regular_cons_iff.mp regular
      simp only [statements]
      exact (completes_statement own (body_ih body)).bind fun _ => rest_ih others

end Check

namespace Derivation

variable {node : Node}

mutual

theorem Atom.isExpression : (atom : Atom) → atom.node.IsExpression
  | .number _ => .intLit _
  | .truth _ => .boolLit _
  | .ident _ => .ident _
  | .paren _ inner _ => inner.isExpression

theorem Expr.isExpression : (expr : Expr) → expr.node.IsExpression
  | .atom operand => operand.isExpression
  | .binary left _ right => .binary left.isExpression right.isExpression

end

/-- A type word that is spelled as its kind wants denotes a type. -/
theorem exists_ofWord? (word : Terminal [.intWord, .booleanWord]) (spelled : word.val.Spelled) :
    ∃ type, Ty.ofWord? word.val.token.text = some type := by
  rcases word.kind_or with isInt | isBoolean
  · have text := spelled "int" (by rw [isInt]; rfl)
    exact ⟨.int, by rw [text]; rfl⟩
  · have text := spelled "boolean" (by rw [isBoolean]; rfl)
    exact ⟨.boolean, by rw [text]; rfl⟩

theorem Simple.isRegular (simple : Simple) (spelled : ∀ l ∈ simple.lexemes, l.Spelled) :
    simple.node.IsRegular := by
  cases simple with
  | decl type name equals init =>
      obtain ⟨_, known⟩ := exists_ofWord? type (spelled _ (.head _))
      exact .varDecl known init.isExpression
  | assign name equals value => exact .assign value.isExpression
  | print word left value right => exact .print value.isExpression

theorem Stmt.isRegular (stmt : Stmt) (spelled : ∀ l ∈ stmt.lexemes, l.Spelled) :
    stmt.node.IsRegular := by
  cases stmt with
  | simple inner semicolon =>
      exact inner.isRegular fun l member => spelled l (by simp [Stmt.lexemes, member])
  | conditional word left cond right block => exact .conditional cond.isExpression
  | block block => exact .block

theorem Simple.body_node (simple : Simple) : simple.node.body = [] := by
  cases simple <;> rfl

mutual

theorem Block.exists_stmt : (block : Block) → node.Within block.nodes →
    ∃ stmt : Stmt, stmt.node = node ∧ stmt.lexemes ⊆ block.lexemes
  | .mk left body right, within => by
    obtain ⟨stmt, same, part⟩ := body.exists_stmt within
    exact ⟨stmt, same, fun l member => by simp [Block.lexemes, part member]⟩

theorem Stmt.exists_stmt : (stmt : Stmt) → node.Within [stmt.node] →
    ∃ inner : Stmt, inner.node = node ∧ inner.lexemes ⊆ stmt.lexemes
  | stmt, within => by
    rcases Node.within_cons_iff.mp within with rfl | between | later
    · exact ⟨stmt, rfl, List.Subset.refl _⟩
    · cases stmt with
      | simple inner semicolon =>
          rw [Stmt.node, inner.body_node] at between
          exact absurd between Node.not_within_nil
      | conditional word left cond right block =>
          obtain ⟨stmt, same, part⟩ := block.exists_stmt between
          exact ⟨stmt, same, fun l member => by simp [Stmt.lexemes, part member]⟩
      | block block => exact block.exists_stmt between
    · exact absurd later Node.not_within_nil

/-- Every statement of a program has a derivation inside that of the program, also those
between braces. -/
theorem Stmts.exists_stmt : (stmts : Stmts) → node.Within stmts.nodes →
    ∃ stmt : Stmt, stmt.node = node ∧ stmt.lexemes ⊆ stmts.lexemes
  | .empty, within => absurd within Node.not_within_nil
  | .snoc init last, within => by
    rcases Node.within_append_iff.mp within with earlier | isLast
    · obtain ⟨stmt, same, part⟩ := init.exists_stmt earlier
      exact ⟨stmt, same, fun l member => by simp [Stmts.lexemes, part member]⟩
    · obtain ⟨stmt, same, part⟩ := last.exists_stmt isLast
      exact ⟨stmt, same, fun l member => by simp [Stmts.lexemes, part member]⟩

end

theorem Stmts.regular (stmts : Stmts) (spelled : ∀ l ∈ stmts.lexemes, l.Spelled) :
    Node.Regular stmts.nodes := by
  intro node within
  obtain ⟨stmt, rfl, part⟩ := stmts.exists_stmt within
  exact stmt.isRegular fun l member => spelled l (part member)

end Derivation

/-- Source texts are read as regular trees. -/
theorem Program.regular_of_parse {source : String} {p : Program}
    (parsed : parse source = .ok p) : Node.Regular p.stmts := by
  obtain ⟨_, list, same, rfl⟩ := parse_eq_ok_iff.mp parsed
  exact list.regular (same ▸ Scan.lexemes_spelled source)

/-- Checking a program that is read from a source text comes to its end, with the outermost
scope open. -/
theorem Check.completes_of_parse {source : String} {p : Program}
    (parsed : Program.parse source = .ok p) :
    ∃ c, Check.program p .initial = .ok () c ∧ c.scopes.depth = 1 := by
  obtain ⟨_, c, ran, depth⟩ :=
    completes_statements (Program.regular_of_parse parsed) .initial Nat.one_pos
  exact ⟨c, ran, depth⟩

end BlockLang

import BlockLang.Proofs.Derivation

/-!
# Unambiguity

No lexemes have two derivations. The lexemes are read from the right, since expressions and
statement lists grow at their ends: the last phrase of some lexemes is determined by them,
and so are the lexemes before it. What stands before a phrase limits where it may start. An
expression does not start after an operator, since it would go on to the left of it, and a
statement does not start after a type word or a closing parenthesis, which would belong to a
declaration or a conditional.
-/

namespace BlockLang

namespace Derivation

open Lexeme (Kind)

/-- The kind of the last lexeme. -/
def lastKind? (lexemes : List Lexeme) : Option Kind :=
  lexemes.getLast?.map Lexeme.kind

@[simp] theorem lastKind?_nil : lastKind? [] = none := rfl

@[simp] theorem lastKind?_concat (lexemes : List Lexeme) (l : Lexeme) :
    lastKind? (lexemes ++ [l]) = some l.kind := by
  simp [lastKind?]

theorem concat_inj {first second : List Lexeme} {l m : Lexeme}
    (h : first ++ [l] = second ++ [m]) : first = second ∧ l = m := by
  obtain ⟨same, last⟩ := List.append_inj' h rfl
  exact ⟨same, List.singleton_inj.mp last⟩

/-- An expression may start after the lexemes: they do not end with an operator. -/
def AtExpr (lexemes : List Lexeme) : Prop :=
  lastKind? lexemes ≠ some .plus ∧ lastKind? lexemes ≠ some .minus

theorem not_atExpr_concat (lexemes : List Lexeme) (op : Terminal [.plus, .minus]) :
    ¬ AtExpr (lexemes ++ [op.val]) := by
  have kind := op.property
  rintro ⟨notPlus, notMinus⟩
  simp_all

theorem atExpr_concat {kind : Kind} (lexemes : List Lexeme) (l : Terminal [kind])
    (other : kind ≠ .plus ∧ kind ≠ .minus) : AtExpr (lexemes ++ [l.val]) := by
  simpa [AtExpr, l.kind_eq] using other

/-- An operand of one lexeme is determined by it, since the kinds of operands differ. -/
theorem Atom.eq_of_singleton {a b : Atom} {l : Lexeme} (ha : a.lexemes = [l])
    (hb : b.lexemes = [l]) : a = b := by
  cases a <;> cases b <;> simp_all [Atom.lexemes, Subtype.ext_iff] <;> grind

/-- An operand of one lexeme at the end of some lexemes is determined by them. -/
theorem Atom.eq_of_append_leaf {a b : Atom} {l : Lexeme} {before before' : List Lexeme}
    (leaf : a.lexemes = [l]) (other : l.kind ≠ .rightParen)
    (h : before ++ a.lexemes = before' ++ b.lexemes) : a = b ∧ before = before' := by
  rw [leaf] at h
  have leaf' : b.lexemes = [l] ∧ before = before' := by
    cases b with
    | paren left inner right =>
        have regrouped : before ++ [l] =
            (before' ++ left.val :: inner.lexemes) ++ [right.val] := by
          simpa [Atom.lexemes] using h
        obtain ⟨_, rfl⟩ := concat_inj regrouped
        exact absurd right.kind_eq other
    | _ =>
        obtain ⟨same, rfl⟩ := concat_inj h
        exact ⟨rfl, same⟩
  exact ⟨eq_of_singleton leaf leaf'.1, leaf'.2⟩

mutual

/-- An operand at the end of some lexemes is determined by them. -/
theorem Atom.eq_of_append : (a b : Atom) → {before before' : List Lexeme} →
    before ++ a.lexemes = before' ++ b.lexemes → a = b ∧ before = before'
  | .number l, _, _, _, h => Atom.eq_of_append_leaf rfl (by grind) h
  | .truth l, _, _, _, h => Atom.eq_of_append_leaf rfl (by grind) h
  | .ident l, _, _, _, h => Atom.eq_of_append_leaf rfl (by grind) h
  | .paren left inner right, .paren left' inner' right', before, before', h => by
    have regrouped : (before ++ [left.val] ++ inner.lexemes) ++ [right.val] =
        (before' ++ [left'.val] ++ inner'.lexemes) ++ [right'.val] := by
      simpa [Atom.lexemes] using h
    obtain ⟨front, sameRight⟩ := concat_inj regrouped
    obtain ⟨rfl, opened⟩ := inner.eq_of_append inner' (atExpr_concat before left (by decide))
      (atExpr_concat before' left' (by decide)) front
    obtain ⟨same, sameLeft⟩ := concat_inj opened
    cases Subtype.ext sameLeft
    cases Subtype.ext sameRight
    exact ⟨rfl, same⟩
  | .paren _ _ _, .number l, _, _, h =>
    (Atom.eq_of_append_leaf rfl (by grind) h.symm).imp .symm .symm
  | .paren _ _ _, .truth l, _, _, h =>
    (Atom.eq_of_append_leaf rfl (by grind) h.symm).imp .symm .symm
  | .paren _ _ _, .ident l, _, _, h =>
    (Atom.eq_of_append_leaf rfl (by grind) h.symm).imp .symm .symm

/-- An expression at the end of some lexemes is determined by them, if no operator stands
before it. -/
theorem Expr.eq_of_append : (e f : Expr) → {before before' : List Lexeme} →
    AtExpr before → AtExpr before' → before ++ e.lexemes = before' ++ f.lexemes →
    e = f ∧ before = before'
  | .atom a, .atom b, before, before', _, _, h => by
    obtain ⟨rfl, same⟩ := a.eq_of_append b h
    exact ⟨rfl, same⟩
  | .atom a, .binary left op b, before, before', start, _, h => by
    have regrouped : before ++ a.lexemes =
        (before' ++ left.lexemes ++ [op.val]) ++ b.lexemes := by
      simpa [Expr.lexemes] using h
    obtain ⟨_, rfl⟩ := a.eq_of_append b regrouped
    exact absurd start (not_atExpr_concat _ op)
  | .binary left op a, .atom b, before, before', _, start, h => by
    have regrouped : (before ++ left.lexemes ++ [op.val]) ++ a.lexemes =
        before' ++ b.lexemes := by
      simpa [Expr.lexemes] using h
    obtain ⟨_, rfl⟩ := a.eq_of_append b regrouped
    exact absurd start (not_atExpr_concat _ op)
  | .binary left op a, .binary left' op' b, before, before', start, start', h => by
    have regrouped : (before ++ left.lexemes ++ [op.val]) ++ a.lexemes =
        (before' ++ left'.lexemes ++ [op'.val]) ++ b.lexemes := by
      simpa [Expr.lexemes] using h
    obtain ⟨rfl, front⟩ := a.eq_of_append b regrouped
    obtain ⟨lefts, sameOp⟩ := concat_inj front
    cases Subtype.ext sameOp
    obtain ⟨rfl, same⟩ := left.eq_of_append left' start start' lefts
    exact ⟨rfl, same⟩

end

/-- A statement may start after the lexemes: they are empty, or they end with a semicolon or
a brace. -/
def AtStmt (lexemes : List Lexeme) : Prop :=
  lastKind? lexemes = none ∨ lastKind? lexemes = some .semicolon ∨
    lastKind? lexemes = some .leftBrace ∨ lastKind? lexemes = some .rightBrace

theorem not_atStmt_concat {kinds : List Kind} (lexemes : List Lexeme) (l : Terminal kinds)
    (other : .semicolon ∉ kinds ∧ .leftBrace ∉ kinds ∧ .rightBrace ∉ kinds) :
    ¬ AtStmt (lexemes ++ [l.val]) := by
  have kind := l.property
  simp only [AtStmt, lastKind?_concat, reduceCtorEq, Option.some.injEq, false_or]
  rintro (same | same | same) <;> simp_all

/-- The lexemes before the expression that a statement ends with. The parentheses of a
statement that prints are counted to its expression. -/
def Simple.front : Simple → List Lexeme
  | .decl type name equals _ => [type.val, name.val, equals.val]
  | .assign name equals _ => [name.val, equals.val]
  | .print word _ _ _ => [word.val]

/-- The expression that a statement ends with. -/
def Simple.expr : Simple → Expr
  | .decl _ _ _ init => init
  | .assign _ _ value => value
  | .print _ left value right => .atom (.paren left value right)

theorem Simple.lexemes_eq (s : Simple) : s.lexemes = s.front ++ s.expr.lexemes := by
  cases s <;> rfl

theorem Simple.atExpr_front (s : Simple) (before : List Lexeme) : AtExpr (before ++ s.front) := by
  cases s with
  | decl type name equals _ =>
      simpa [front] using atExpr_concat (before ++ [type.val, name.val]) equals (by decide)
  | assign name equals _ =>
      simpa [front] using atExpr_concat (before ++ [name.val]) equals (by decide)
  | print word _ _ _ => exact atExpr_concat before word (by decide)

theorem Simple.eq_of_parts {s t : Simple} (fronts : s.front = t.front) (exprs : s.expr = t.expr) :
    s = t := by
  cases s <;> cases t <;> simp_all [front, expr, Subtype.ext_iff]

/-- The front of a statement cannot be longer than that of another at the same place: no
statement starts after a type word, and the word that prints is no equals sign. -/
theorem Simple.front_length_le (s t : Simple) {before before' : List Lexeme}
    (start' : AtStmt before') (h : before ++ s.front = before' ++ t.front) :
    s.front.length ≤ t.front.length := by
  cases s with
  | decl type name equals _ =>
      cases t with
      | decl => exact Nat.le_refl _
      | assign name' equals' _ =>
          have regrouped : (before ++ [type.val]) ++ [name.val, equals.val] =
              before' ++ [name'.val, equals'.val] := by
            simpa [front] using h
          obtain ⟨rfl, _⟩ := List.append_inj' regrouped rfl
          exact absurd start' (not_atStmt_concat before type (by decide))
      | print word _ _ _ =>
          have regrouped : (before ++ [type.val, name.val]) ++ [equals.val] =
              before' ++ [word.val] := by
            simpa [front] using h
          exact absurd (concat_inj regrouped).2 (equals.val_ne word (by decide))
  | assign name equals _ =>
      cases t with
      | decl => exact Nat.le_succ _
      | assign => exact Nat.le_refl _
      | print word _ _ _ =>
          have regrouped : (before ++ [name.val]) ++ [equals.val] = before' ++ [word.val] := by
            simpa [front] using h
          exact absurd (concat_inj regrouped).2 (equals.val_ne word (by decide))
  | print => cases t <;> simp [front]

/-- A statement that a semicolon ends is determined by the lexemes that end with it, if
it starts where a statement may start. -/
theorem Simple.eq_of_append (s t : Simple) {before before' : List Lexeme} (start : AtStmt before)
    (start' : AtStmt before') (h : before ++ s.lexemes = before' ++ t.lexemes) :
    s = t ∧ before = before' := by
  rw [s.lexemes_eq, t.lexemes_eq, ← List.append_assoc, ← List.append_assoc] at h
  obtain ⟨exprs, fronts⟩ :=
    s.expr.eq_of_append t.expr (s.atExpr_front before) (t.atExpr_front before') h
  have lengths : s.front.length = t.front.length := Nat.le_antisymm
    (s.front_length_le t start' fronts) (t.front_length_le s start fronts.symm)
  obtain ⟨same, sameFront⟩ := List.append_inj' fronts lengths
  exact ⟨eq_of_parts sameFront exprs, same⟩

/-- The kind of the last lexeme of a statement. -/
def Stmt.lastKind : Stmt → Kind
  | .simple _ _ => .semicolon
  | .conditional _ _ _ _ _ | .block _ => .rightBrace

theorem lastKind?_append_block (before : List Lexeme) (block : Block) :
    lastKind? (before ++ block.lexemes) = some .rightBrace := by
  cases block with
  | mk left body right =>
      have regrouped : before ++ (Block.mk left body right).lexemes =
          (before ++ left.val :: body.lexemes) ++ [right.val] := by
        simp [Block.lexemes]
      rw [regrouped, lastKind?_concat, right.kind_eq]

theorem lastKind?_append_stmt (before : List Lexeme) (stmt : Stmt) :
    lastKind? (before ++ stmt.lexemes) = some stmt.lastKind := by
  cases stmt with
  | simple inner semicolon =>
      rw [Stmt.lexemes, ← List.append_assoc, lastKind?_concat, semicolon.kind_eq]
      rfl
  | conditional word left cond right block =>
      have regrouped : before ++ (Stmt.conditional word left cond right block).lexemes =
          (before ++ word.val :: left.val :: (cond.lexemes ++ [right.val])) ++ block.lexemes := by
        simp [Stmt.lexemes]
      rw [regrouped, lastKind?_append_block]
      rfl
  | block block => exact lastKind?_append_block before block

theorem lastKind_eq {s t : Stmt} {before before' : List Lexeme}
    (h : before ++ s.lexemes = before' ++ t.lexemes) : s.lastKind = t.lastKind := by
  have last := congrArg lastKind? h
  rwa [lastKind?_append_stmt, lastKind?_append_stmt, Option.some.injEq] at last

/-- A statement list may start after the lexemes: they are empty, or they end with an opening
brace. -/
def AtStmts (lexemes : List Lexeme) : Prop :=
  lastKind? lexemes = none ∨ lastKind? lexemes = some .leftBrace

theorem not_atStmts_append_stmt (before : List Lexeme) (stmt : Stmt) :
    ¬ AtStmts (before ++ stmt.lexemes) := by
  rw [AtStmts, lastKind?_append_stmt]
  cases stmt <;> simp [Stmt.lastKind]

theorem AtStmts.atStmt {before : List Lexeme} (start : AtStmts before) (stmts : Stmts) :
    AtStmt (before ++ stmts.lexemes) := by
  cases stmts with
  | empty =>
      rw [Stmts.lexemes, List.append_nil]
      rcases start with nothing | brace
      · exact .inl nothing
      · exact .inr (.inr (.inl brace))
  | snoc init last =>
      rw [Stmts.lexemes, ← List.append_assoc, AtStmt, lastKind?_append_stmt]
      cases last <;> simp [Stmt.lastKind]

mutual

/-- A block at the end of some lexemes is determined by them. -/
theorem Block.eq_of_append : (b c : Block) → {before before' : List Lexeme} →
    before ++ b.lexemes = before' ++ c.lexemes → b = c ∧ before = before'
  | .mk left body right, .mk left' body' right', before, before', h => by
    have regrouped : (before ++ [left.val] ++ body.lexemes) ++ [right.val] =
        (before' ++ [left'.val] ++ body'.lexemes) ++ [right'.val] := by
      simpa [Block.lexemes] using h
    obtain ⟨front, sameRight⟩ := concat_inj regrouped
    obtain ⟨rfl, opened⟩ := body.eq_of_append body' (.inr (by simp [left.kind_eq]))
      (.inr (by simp [left'.kind_eq])) front
    obtain ⟨same, sameLeft⟩ := concat_inj opened
    cases Subtype.ext sameLeft
    cases Subtype.ext sameRight
    exact ⟨rfl, same⟩

/-- A statement at the end of some lexemes is determined by them, if it starts where a
statement may start. -/
theorem Stmt.eq_of_append : (s t : Stmt) → {before before' : List Lexeme} →
    AtStmt before → AtStmt before' → before ++ s.lexemes = before' ++ t.lexemes →
    s = t ∧ before = before'
  | .simple inner semicolon, .simple inner' semicolon', before, before', start, start', h => by
    have regrouped : (before ++ inner.lexemes) ++ [semicolon.val] =
        (before' ++ inner'.lexemes) ++ [semicolon'.val] := by
      simpa [Stmt.lexemes] using h
    obtain ⟨fronts, sameEnd⟩ := concat_inj regrouped
    cases Subtype.ext sameEnd
    obtain ⟨rfl, same⟩ := inner.eq_of_append inner' start start' fronts
    exact ⟨rfl, same⟩
  | .block block, .block block', _, _, _, _, h => by
    obtain ⟨rfl, same⟩ := block.eq_of_append block' h
    exact ⟨rfl, same⟩
  | .conditional word left cond right block, .conditional word' left' cond' right' block',
      before, before', _, _, h => by
    have regrouped :
        (before ++ [word.val] ++ (Atom.paren left cond right).lexemes) ++ block.lexemes =
          (before' ++ [word'.val] ++ (Atom.paren left' cond' right').lexemes) ++
            block'.lexemes := by
      simpa [Stmt.lexemes, Atom.lexemes] using h
    obtain ⟨rfl, fronts⟩ := block.eq_of_append block' regrouped
    obtain ⟨conds, words⟩ := Atom.eq_of_append _ _ fronts
    obtain ⟨same, sameWord⟩ := concat_inj words
    cases Subtype.ext sameWord
    cases conds
    exact ⟨rfl, same⟩
  -- A block by itself is not taken for that of a conditional, since no statement starts after
  -- a closing parenthesis.
  | .conditional word left cond right block, .block block', before, before', _, start, h => by
    have regrouped :
        ((before ++ word.val :: left.val :: cond.lexemes) ++ [right.val]) ++ block.lexemes =
          before' ++ block'.lexemes := by
      simpa [Stmt.lexemes] using h
    obtain ⟨_, rfl⟩ := block.eq_of_append block' regrouped
    exact absurd start (not_atStmt_concat _ right (by decide))
  | .block block, .conditional word left cond right block', before, before', start, _, h => by
    have regrouped : before ++ block.lexemes =
        ((before' ++ word.val :: left.val :: cond.lexemes) ++ [right.val]) ++ block'.lexemes := by
      simpa [Stmt.lexemes] using h
    obtain ⟨_, rfl⟩ := block.eq_of_append block' regrouped
    exact absurd start (not_atStmt_concat _ right (by decide))
  | .simple _ _, .block _, _, _, _, _, h => nomatch lastKind_eq h
  | .simple _ _, .conditional _ _ _ _ _, _, _, _, _, h => nomatch lastKind_eq h
  | .block _, .simple _ _, _, _, _, _, h => nomatch lastKind_eq h
  | .conditional _ _ _ _ _, .simple _ _, _, _, _, _, h => nomatch lastKind_eq h

/-- A statement list at the end of some lexemes is determined by them, if it starts where a
list may start. -/
theorem Stmts.eq_of_append : (s t : Stmts) → {before before' : List Lexeme} →
    AtStmts before → AtStmts before' → before ++ s.lexemes = before' ++ t.lexemes →
    s = t ∧ before = before'
  | .empty, .empty, _, _, _, _, h => ⟨rfl, by simpa [Stmts.lexemes] using h⟩
  | .empty, .snoc init last, before, before', start, _, h => by
    have whole : before = (before' ++ init.lexemes) ++ last.lexemes := by
      simpa [Stmts.lexemes] using h
    exact absurd (whole ▸ start) (not_atStmts_append_stmt _ last)
  | .snoc init last, .empty, before, before', _, start, h => by
    have whole : (before ++ init.lexemes) ++ last.lexemes = before' := by
      simpa [Stmts.lexemes] using h
    exact absurd (whole ▸ start) (not_atStmts_append_stmt _ last)
  | .snoc init last, .snoc init' last', before, before', start, start', h => by
    have regrouped : (before ++ init.lexemes) ++ last.lexemes =
        (before' ++ init'.lexemes) ++ last'.lexemes := by
      simpa [Stmts.lexemes] using h
    obtain ⟨rfl, inits⟩ :=
      last.eq_of_append last' (start.atStmt init) (start'.atStmt init') regrouped
    obtain ⟨rfl, same⟩ := init.eq_of_append init' start start' inits
    exact ⟨rfl, same⟩

end

/-- The grammar, with expressions derived from the left, is unambiguous. -/
theorem Stmts.lexemes_injective : Function.Injective Stmts.lexemes := by
  intro s t h
  exact (s.eq_of_append t (.inl lastKind?_nil) (.inl lastKind?_nil) h).1

end Derivation

end BlockLang

import BlockLang.Proofs.Mirror

/-!
# Progress of checked programs

Execution checks nothing. What a program that is checked without reports can still fail on
is listed by `ResidualFault`: integers that are too long or not written as such, and one
use of a variable that checking lets pass. A variable is declared for checking before its
first value is looked at, and for execution only after its first value is found, so that a
first value that reads its own variable finds nothing unless an outer scope has a variable
of the same name.

The failing statement and the scopes at that moment are known from the walk. Each reason to
fail that is not residual contradicts the typing of the statement or the mirroring of the
scopes.
-/

namespace BlockLang

theorem Node.binary_notMem_leaves (node : Node) {op : Token} {left right : Node} :
    .binary op left right ∉ node.leaves := by
  fun_induction Node.leaves node with
  | case1 _ _ _ left_ih right_ih =>
      intro member
      rcases List.mem_append.mp member with inLeft | inRight
      · exact left_ih inLeft
      · exact right_ih inRight
  | case2 node notBinary =>
      intro member
      exact notBinary op left right (List.mem_singleton.mp member).symm

theorem literalValue_eq_error {text : String} {f : Fault} (h : literalValue text = .error f) :
    f = .badNumeral text ∨ ∃ digits, f = .longNumeral digits := by
  unfold literalValue at h
  split at h
  · cases h
  · exact .inl (Except.error.inj h).symm
  · exact .inr ⟨_, (Except.error.inj h).symm⟩

theorem Numeral.write?_eq_none_iff {value : Int} :
    write? value = none ↔ digitLimit < (Nat.repr value.natAbs).length := by
  unfold write?
  split <;> simp [*]

/-- The faults that a statement of a checked program can end with in the given scopes. -/
inductive ResidualFault (scopes : ScopeStack) : Node → Fault → Prop
  /-- An integer literal in the expression of the statement is not read. -/
  | literal {stmt expr : Node} {literal : Token} {f : Fault}
      (part : stmt.expression? = some expr) (member : .intLit literal ∈ expr.leaves)
      (unread : literalValue literal.text = .error f) : ResidualFault scopes stmt f
  /-- The value to print has too many digits. -/
  | longValue {word : Token} {node : Node} {value : Int}
      (evaluated : evaluate scopes node = .ok value)
      (long : Numeral.digitLimit < (Nat.repr value.natAbs).length) :
      ResidualFault scopes (.print word node) .longValue
  /-- The first value of a variable reads the variable, and no open scope has one of that
  name. -/
  | ownName {word name equals use : Token} {init : Node} (member : .ident use ∈ init.leaves)
      (own : use.text = name.text) (unbound : scopes.lookup? name.text = none) :
      ResidualFault scopes (.varDecl word name equals init) (.unbound name.text)

/-- No fault for a node of the wrong sort, a word that is no type or a missing scope is
residual. -/
theorem ResidualFault.kind {scopes : ScopeStack} {stmt : Node} {f : Fault}
    (h : ResidualFault scopes stmt f) :
    (∃ text, f = .badNumeral text) ∨ (∃ digits, f = .longNumeral digits) ∨ f = .longValue ∨
      ∃ name, f = .unbound name := by
  cases h with
  | literal _ _ unread =>
      rcases literalValue_eq_error unread with isBad | isLong
      · exact .inl ⟨_, isBad⟩
      · exact .inr (.inl isLong)
  | longValue => exact .inr (.inr (.inl rfl))
  | ownName => exact .inr (.inr (.inr ⟨_, rfl⟩))

/-- The statement that finds a variable unbound is the declaration of that variable. -/
theorem ResidualFault.ownName_of_unbound {scopes : ScopeStack} {stmt : Node} {unbound : String}
    (h : ResidualFault scopes stmt (.unbound unbound)) :
    ∃ word name equals init use, stmt = .varDecl word name equals init ∧
      .ident use ∈ init.leaves ∧ use.text = name.text ∧ name.text = unbound ∧
      scopes.lookup? unbound = none := by
  cases h with
  | literal _ _ unread =>
      rcases literalValue_eq_error unread with isBad | ⟨_, isLong⟩
      · cases isBad
      · cases isLong
  | ownName member own outside => exact ⟨_, _, _, _, _, rfl, member, own, rfl, outside⟩

namespace WellTyped

variable {Γ Δ : ScopeStack} {stmt expr : Node} {rest : List Node}

/-- The expression of a well-typed statement is typed in the scopes of the statement,
which for a declaration have the declared name in addition. -/
theorem expression (h : WellTyped Γ (stmt :: rest) Δ) (part : stmt.expression? = some expr) :
    ∃ Γ' type, HasType Γ' expr type ∧
      (Γ' = Γ ∨ ∃ word name equals,
        stmt = .varDecl word name equals expr ∧
          Γ.insert? ⟨name.text, type, name, none⟩ = some Γ') := by
  cases h with
  | varDecl _ _ extended value _ =>
      cases part
      exact ⟨_, _, value, .inr ⟨_, _, _, rfl, extended⟩⟩
  | assign _ value _ =>
      cases part
      exact ⟨Γ, _, value, .inl rfl⟩
  | conditional isBoolean _ _ =>
      cases part
      exact ⟨Γ, _, isBoolean, .inl rfl⟩
  | block => cases part
  | print value _ =>
      cases part
      exact ⟨Γ, _, value, .inl rfl⟩

end WellTyped

/-- A well-typed expression fails on a literal or, in a declaration, on its own name. -/
theorem ResidualFault.of_expression {scopes Γ Δ : ScopeStack} {stmt expr : Node}
    {rest : List Node} {f : Fault} (allowed : WellTyped Γ (stmt :: rest) Δ)
    (m : Mirrors scopes Γ) (part : stmt.expression? = some expr)
    (failed : evaluate scopes expr = .error f) : ResidualFault scopes stmt f := by
  obtain ⟨leaf, member, cause⟩ := exists_leaf_of_evaluate_eq_error failed
  obtain ⟨Γ', type, typed, visible⟩ := allowed.expression part
  obtain ⟨_, leafTyped⟩ := typed.leaf member
  cases leafTyped with
  | intLit literal => exact .literal part member cause
  | boolLit => cases cause
  | binary => exact absurd member (Node.binary_notMem_leaves expr)
  | @ident use sym _ bound _ =>
      have unbound := ScopeStack.lookup?_eq_none_of_valueOf m.valued cause
      have hidden : Γ.lookup? use.text = none := by
        rw [← m.same, ScopeStack.lookup?_withoutValues, unbound]
        rfl
      rcases visible with rfl | ⟨word, name, equals, rfl, extended⟩
      · rw [hidden] at bound
        cases bound
      · by_cases own : use.text = name.text
        · rw [ScopeStack.eq_unbound_of_valueOf cause, own]
          rw [own] at unbound
          exact .ownName member own unbound
        · rw [ScopeStack.lookup?_insert? extended, if_neg own, hidden] at bound
          cases bound

/-- A well-typed statement that fails ends with a residual fault. -/
theorem Exec.Fails.residual {scopes Γ Δ : ScopeStack} {stmt : Node} {rest : List Node}
    {f : Fault} (h : Exec.Fails scopes stmt f) (allowed : WellTyped Γ (stmt :: rest) Δ)
    (m : Mirrors scopes Γ) : ResidualFault scopes stmt f := by
  cases h with
  | expression part failed => exact .of_expression allowed m part failed
  | unknownType unknown =>
      cases allowed with
      | varDecl known _ _ _ _ =>
          rw [unknown] at known
          cases known
  | noScope outside =>
      cases allowed with
      | varDecl _ _ extended _ _ =>
          obtain ⟨innermost, outer, nonempty, _⟩ := ScopeStack.insert?_eq_some_iff.mp extended
          rw [← m.same] at nonempty
          simp [ScopeStack.withoutValues, outside] at nonempty
  | unbound unbound =>
      cases allowed with
      | assign bound _ _ =>
          obtain ⟨_, _, found, _⟩ := m.lookup? bound
          rw [unbound] at found
          cases found
  | longValue evaluated long => exact .longValue evaluated (Numeral.write?_eq_none_iff.mp long)
  | unknownStatement other => cases allowed <;> cases other

/-- An execution of a well-typed program that fails has come to a statement that fails with
a residual fault, and ends in the state in which it came to it. -/
theorem WellTyped.exists_residual {p : Program} {Δ : ScopeStack} {f : Fault} {e : Executor}
    (h : WellTyped .initial p.stmts Δ) (ran : Exec.program p .initial = .error f e) :
    ∃ place stmt left, Exec.walk.Reaches p.stmts .initial place (stmt :: left) e ∧
      Exec.statement stmt e = .error f e ∧ ResidualFault e.scopes stmt f := by
  obtain ⟨place, stmt, left, reached, failed, fails⟩ := Exec.exists_fails ran
  obtain ⟨d, _, m, _, allowed⟩ := h.at_place reached
  exact ⟨place, stmt, left, reached, failed, fails.residual allowed m⟩

/-- Progress: a program that is checked without reports is executed to its end, or execution
comes to a statement that fails with a residual fault in the scopes of that moment. The
residual faults are those of numerals and of variables that are not bound, and the latter
only befall a declaration whose first value reads its own name. -/
theorem checked_program_progress {p : Program} {c : Checker}
    (checked : Check.program p .initial = .ok () c) (clean : c.hasErrors = false) :
    (∃ e, Exec.program p .initial = .ok () e) ∨
    ∃ f e, Exec.program p .initial = .error f e ∧
      ((∃ text, f = .badNumeral text) ∨ (∃ digits, f = .longNumeral digits) ∨
        f = .longValue ∨ ∃ name, f = .unbound name) ∧
      ∃ place stmt left, Exec.walk.Reaches p.stmts .initial place (stmt :: left) e ∧
        Exec.statement stmt e = .error f e ∧ ResidualFault e.scopes stmt f ∧
        ∀ unbound, f = .unbound unbound →
          ∃ word name equals init use, stmt = .varDecl word name equals init ∧
            .ident use ∈ init.leaves ∧ use.text = name.text ∧ name.text = unbound ∧
            e.scopes.lookup? unbound = none := by
  cases ran : Exec.program p .initial with
  | ok _ e => exact .inl ⟨e, rfl⟩
  | error f e =>
      have h := (Check.program_clean_iff.mp ⟨checked, clean⟩).1
      obtain ⟨place, stmt, left, reached, failed, residual⟩ := h.exists_residual ran
      refine .inr ⟨f, e, rfl, residual.kind, place, stmt, left, reached, failed, residual, ?_⟩
      rintro unbound rfl
      exact residual.ownName_of_unbound

/-- The program `{ int x = x; }`, with all its tokens at the start. -/
def Program.ownRead : Program where
  stmts := [.block (.atStart "\x7b")
    [.varDecl (.atStart "int") (.atStart "x") (.atStart "=") (.ident (.atStart "x"))]]

theorem checked_program_progress_ownRead :
    ∃ c, Check.program .ownRead .initial = .ok () c ∧ c.hasErrors = false ∧
      ∃ e place stmt left, Exec.program .ownRead .initial = .error (.unbound "x") e ∧
        Exec.walk.Reaches Program.ownRead.stmts .initial place (stmt :: left) e ∧
        ResidualFault e.scopes stmt (.unbound "x") := by
  refine ⟨_, rfl, rfl, ?_⟩
  rcases checked_program_progress (p := .ownRead) rfl rfl with
    ⟨e, ran⟩ | ⟨f, e, ran, _, place, stmt, left, reached, _, residual, _⟩
  · cases ran
  · have failed : Exec.program .ownRead .initial = .error (.unbound "x") e := by
      cases ran
      rfl
    rw [failed] at ran
    cases ran
    exact ⟨e, place, stmt, left, failed, reached, residual⟩

end BlockLang

import BlockLang.Exec
import BlockLang.Proofs.Scopes
import BlockLang.Proofs.Walk

/-!
# Laws of execution

Execution as a walk, and what one statement can do. A statement that succeeds has one of
the effects listed by the `statement_*_eq_ok_iff` laws. A statement that fails by itself
leaves the state as it was, and `Exec.Fails` lists the reasons: an expression that has no
value, a type word or an open scope that is missing, a target that is not bound, a value
that is too long to be printed, or a node that is no statement.

An expression fails because of one of its operands, so that the faults of evaluation are
the faults of literals, variables and nodes that are no expressions.
-/

namespace BlockLang

section Evaluation

variable {scopes : ScopeStack}

theorem evaluate_binary_eq_error_iff {op : Token} {left right : Node} {f : Fault} :
    evaluate scopes (.binary op left right) = .error f ↔
      evaluate scopes left = .error f ∨
        ∃ l, evaluate scopes left = .ok l ∧ evaluate scopes right = .error f := by
  simp only [evaluate, bind, Except.bind, pure, Except.pure]
  cases evaluate scopes left with
  | error f => simp
  | ok l =>
      cases evaluate scopes right with
      | error f => simp
      | ok r => simp

/-- An expression without a value has an operand without a value. -/
theorem exists_leaf_of_evaluate_eq_error {node : Node} {f : Fault}
    (h : evaluate scopes node = .error f) :
    ∃ leaf ∈ node.leaves, evaluate scopes leaf = .error f := by
  fun_induction Node.leaves node with
  | case1 op left right left_ih right_ih =>
      rcases evaluate_binary_eq_error_iff.mp h with failed | ⟨_, _, failed⟩
      · obtain ⟨leaf, member, cause⟩ := left_ih failed
        exact ⟨leaf, List.mem_append_left _ member, cause⟩
      · obtain ⟨leaf, member, cause⟩ := right_ih failed
        exact ⟨leaf, List.mem_append_right _ member, cause⟩
  | case2 node _ => exact ⟨node, List.mem_singleton.mpr rfl, h⟩

theorem ScopeStack.valueOf_eq_ok_iff {name : String} {value : Int} :
    scopes.valueOf name = .ok value ↔
      ∃ sym, scopes.lookup? name = some sym ∧ sym.value = some value := by
  unfold ScopeStack.valueOf
  cases scopes.lookup? name with
  | none => simp
  | some sym =>
      cases h : sym.value with
      | none => simp [h]
      | some v => simp [h]

theorem ScopeStack.eq_unbound_of_valueOf {name : String} {f : Fault}
    (h : scopes.valueOf name = .error f) : f = .unbound name := by
  unfold ScopeStack.valueOf at h
  split at h
  · cases h
  · exact (Except.error.inj h).symm

/-- Where all variables have values, a variable without a value is not bound at all. -/
theorem ScopeStack.lookup?_eq_none_of_valueOf {name : String} {f : Fault}
    (valued : scopes.All fun sym => sym.value.isSome) (h : scopes.valueOf name = .error f) :
    scopes.lookup? name = none := by
  cases found : scopes.lookup? name with
  | none => rfl
  | some sym =>
      obtain ⟨value, hasValue⟩ := Option.isSome_iff_exists.mp (valued.lookup? found)
      rw [ScopeStack.valueOf_eq_ok_iff.mpr ⟨sym, found, hasValue⟩] at h
      cases h

end Evaluation

namespace Exec

variable {e e' : Executor} {f : Fault}

theorem valueOf_eq_ok_iff {node : Node} {value : Int} :
    valueOf node e = .ok value e' ↔ evaluate e.scopes node = .ok value ∧ e' = e := by
  simp only [valueOf, Step.get_bind_apply]
  cases evaluate e.scopes node with
  | ok v => simp [eq_comm]
  | error f => simp

theorem valueOf_eq_error_iff {node : Node} :
    valueOf node e = .error f e' ↔ evaluate e.scopes node = .error f ∧ e' = e := by
  simp only [valueOf, Step.get_bind_apply]
  cases evaluate e.scopes node with
  | ok v => simp
  | error f => simp [eq_comm]

theorem declare_eq_ok_iff {word name : Token} {value : Int} :
    declare word name value e = .ok () e' ↔
      ∃ type scopes, Ty.ofWord? word.text = some type ∧
        e.scopes.insert? ⟨name.text, type, name, some value⟩ = some scopes ∧
        e' = { e with scopes := scopes } := by
  unfold declare
  cases Ty.ofWord? word.text with
  | none => simp
  | some type =>
      simp only [Step.get_bind_apply]
      cases h : e.scopes.insert? ⟨name.text, type, name, some value⟩ with
      | none => simp [h]
      | some scopes => simp [h, eq_comm]

theorem assign_eq_ok_iff {name : Token} {value : Int} :
    assign name value e = .ok () e' ↔
      ∃ scopes, e.scopes.setValue? name.text (some value) = some scopes ∧
        e' = { e with scopes := scopes } := by
  simp only [assign, Step.get_bind_apply]
  cases e.scopes.setValue? name.text (some value) with
  | none => simp
  | some scopes => simp [eq_comm]

theorem print_eq_ok_iff {value : Int} :
    print value e = .ok () e' ↔
      ∃ line, Numeral.write? value = some line ∧ e' = e.printLine line := by
  unfold print
  cases Numeral.write? value with
  | none => simp
  | some line => simp [eq_comm]

theorem declare_eq_error {word name : Token} {value : Int}
    (h : declare word name value e = .error f e') :
    e' = e ∧ (Ty.ofWord? word.text = none ∧ f = .unknownType word.text ∨
      e.scopes.scopes = [] ∧ f = .noScope) := by
  unfold declare at h
  cases known : Ty.ofWord? word.text with
  | none =>
      simp only [known, Step.throw_apply, EStateM.Result.error.injEq] at h
      exact ⟨h.2.symm, .inl ⟨rfl, h.1.symm⟩⟩
  | some type =>
      simp only [known, Step.get_bind_apply, ScopeStack.insert?] at h
      cases scopes : e.scopes.scopes with
      | nil =>
          simp only [scopes, Step.throw_apply, EStateM.Result.error.injEq] at h
          exact ⟨h.2.symm, .inr ⟨rfl, h.1.symm⟩⟩
      | cons innermost outer => simp [scopes] at h

theorem assign_eq_error {name : Token} {value : Int} (h : assign name value e = .error f e') :
    e' = e ∧ e.scopes.lookup? name.text = none ∧ f = .unbound name.text := by
  simp only [assign, Step.get_bind_apply] at h
  cases updated : e.scopes.setValue? name.text (some value) with
  | none =>
      simp only [updated, Step.throw_apply, EStateM.Result.error.injEq] at h
      exact ⟨h.2.symm, ScopeStack.setValue?_eq_none_iff.mp updated, h.1.symm⟩
  | some scopes => simp [updated] at h

theorem print_eq_error {value : Int} (h : print value e = .error f e') :
    e' = e ∧ Numeral.write? value = none ∧ f = .longValue := by
  unfold print at h
  cases written : Numeral.write? value with
  | none =>
      simp only [written, Step.throw_apply, EStateM.Result.error.injEq] at h
      exact ⟨h.2.symm, rfl, h.1.symm⟩
  | some line => simp [written] at h

/-- The state in which execution comes to the statements between the braces of a
statement: at a block always, and at a conditional if its condition is true. -/
def enter? (stmt : Node) (e : Executor) : Option Executor :=
  match stmt with
  | .block _ _ => some { e with scopes := e.scopes.openScope }
  | .conditional _ cond _ _ =>
    match evaluate e.scopes cond with
    | .ok value =>
      if value = trueValue then some { e with scopes := e.scopes.openScope } else none
    | .error _ => none
  | _ => none

/-- What execution does to its state at a closing brace. -/
def leave (e : Executor) : Executor := { e with scopes := e.scopes.closeScope }

theorem statements_eq_sequence (stmts : List Node) :
    statements stmts = Step.sequence statement stmts := by
  induction stmts with
  | nil => simp only [statements, Step.sequence]
  | cons stmt rest ih => simp only [statements, Step.sequence, ih]

theorem enter?_conditional_eq_some_iff {paren brace : Token} {cond : Node} {body : List Node} :
    enter? (.conditional paren cond brace body) e = some e' ↔
      evaluate e.scopes cond = .ok trueValue ∧ e' = { e with scopes := e.scopes.openScope } := by
  simp only [enter?]
  cases evaluate e.scopes cond with
  | error f => simp
  | ok value =>
      by_cases h : value = trueValue
      · simp [h, eq_comm]
      · simp [h]

/-- Execution as a walk. -/
def walk : Walk Executor where
  statement := statement
  enter? := enter?
  leave := leave
  statement_of_enter := by
    intro stmt e e' entered
    rw [← statements_eq_sequence]
    cases stmt with
    | block brace stmts =>
        cases entered
        simp only [statement, Node.body]
        rfl
    | conditional paren cond brace body =>
        obtain ⟨isTrue, rfl⟩ := enter?_conditional_eq_some_iff.mp entered
        simp only [statement, Node.body]
        rw [Step.bind_of_ok (valueOf_eq_ok_iff.mpr ⟨isTrue, rfl⟩), if_pos rfl]
        rfl
    | _ => cases entered

theorem statements_eq_walk (stmts : List Node) : statements stmts = walk.statements stmts :=
  statements_eq_sequence stmts

theorem statement_varDecl_eq_ok_iff {word name equals : Token} {init : Node} :
    statement (.varDecl word name equals init) e = .ok () e' ↔
      ∃ value type scopes, evaluate e.scopes init = .ok value ∧
        Ty.ofWord? word.text = some type ∧
        e.scopes.insert? ⟨name.text, type, name, some value⟩ = some scopes ∧
        e' = { e with scopes := scopes } := by
  simp only [statement, Step.bind_eq_ok_iff, valueOf_eq_ok_iff, declare_eq_ok_iff]
  constructor
  · rintro ⟨value, _, ⟨evaluated, rfl⟩, type, scopes, effect⟩
    exact ⟨value, type, scopes, evaluated, effect⟩
  · rintro ⟨value, type, scopes, evaluated, effect⟩
    exact ⟨value, e, ⟨evaluated, rfl⟩, type, scopes, effect⟩

theorem statement_assign_eq_ok_iff {name equals : Token} {node : Node} :
    statement (.assign name equals node) e = .ok () e' ↔
      ∃ value scopes, evaluate e.scopes node = .ok value ∧
        e.scopes.setValue? name.text (some value) = some scopes ∧
        e' = { e with scopes := scopes } := by
  simp only [statement, Step.bind_eq_ok_iff, valueOf_eq_ok_iff, assign_eq_ok_iff]
  constructor
  · rintro ⟨value, _, ⟨evaluated, rfl⟩, scopes, effect⟩
    exact ⟨value, scopes, evaluated, effect⟩
  · rintro ⟨value, scopes, evaluated, effect⟩
    exact ⟨value, e, ⟨evaluated, rfl⟩, scopes, effect⟩

theorem statement_print_eq_ok_iff {word : Token} {node : Node} :
    statement (.print word node) e = .ok () e' ↔
      ∃ value line, evaluate e.scopes node = .ok value ∧ Numeral.write? value = some line ∧
        e' = e.printLine line := by
  simp only [statement, Step.bind_eq_ok_iff, valueOf_eq_ok_iff, print_eq_ok_iff]
  constructor
  · rintro ⟨value, _, ⟨evaluated, rfl⟩, line, effect⟩
    exact ⟨value, line, evaluated, effect⟩
  · rintro ⟨value, line, evaluated, effect⟩
    exact ⟨value, e, ⟨evaluated, rfl⟩, line, effect⟩

/-- A conditional that is not entered has no effect. -/
theorem statement_conditional_eq_ok {paren brace : Token} {cond : Node} {body : List Node}
    (h : statement (.conditional paren cond brace body) e = .ok () e')
    (skipped : enter? (.conditional paren cond brace body) e = none) : e' = e := by
  simp only [statement, Step.bind_eq_ok_iff, valueOf_eq_ok_iff] at h
  obtain ⟨value, _, ⟨evaluated, rfl⟩, ran⟩ := h
  have isFalse : value ≠ trueValue := by
    rintro rfl
    simp [enter?, evaluated] at skipped
  rw [if_neg isFalse] at ran
  simpa [eq_comm] using ran

/-- Why a statement fails by itself. -/
inductive Fails (scopes : ScopeStack) : Node → Fault → Prop
  /-- Its expression has no value. -/
  | expression {stmt expr : Node} {f : Fault} (part : stmt.expression? = some expr)
      (failed : evaluate scopes expr = .error f) : Fails scopes stmt f
  /-- It declares a variable of no type. -/
  | unknownType {word name equals : Token} {init : Node}
      (unknown : Ty.ofWord? word.text = none) :
      Fails scopes (.varDecl word name equals init) (.unknownType word.text)
  /-- It declares a variable outside all scopes. -/
  | noScope {word name equals : Token} {init : Node} (outside : scopes.scopes = []) :
      Fails scopes (.varDecl word name equals init) .noScope
  /-- It assigns to a variable that is not bound. -/
  | unbound {name equals : Token} {value : Node} (unbound : scopes.lookup? name.text = none) :
      Fails scopes (.assign name equals value) (.unbound name.text)
  /-- It prints a value with too many digits. -/
  | longValue {word : Token} {node : Node} {value : Int}
      (evaluated : evaluate scopes node = .ok value) (long : Numeral.write? value = none) :
      Fails scopes (.print word node) .longValue
  /-- It is no statement. -/
  | unknownStatement {stmt : Node} (other : stmt.isStatement = false) :
      Fails scopes stmt (.unknownStatement stmt.sort)

/-- A statement that fails before its braces leaves the state as it was. -/
theorem Fails.of_statement {stmt : Node} (h : statement stmt e = .error f e')
    (own : enter? stmt e = none) : e' = e ∧ Fails e.scopes stmt f := by
  cases stmt with
  | varDecl word name equals init =>
      simp only [statement, Step.bind_eq_error_iff, valueOf_eq_error_iff, valueOf_eq_ok_iff] at h
      rcases h with ⟨failed, rfl⟩ | ⟨value, _, ⟨_, rfl⟩, failed⟩
      · exact ⟨rfl, .expression rfl failed⟩
      · obtain ⟨rfl, ⟨unknown, rfl⟩ | ⟨outside, rfl⟩⟩ := declare_eq_error failed
        · exact ⟨rfl, .unknownType unknown⟩
        · exact ⟨rfl, .noScope outside⟩
  | assign name equals node =>
      simp only [statement, Step.bind_eq_error_iff, valueOf_eq_error_iff, valueOf_eq_ok_iff] at h
      rcases h with ⟨failed, rfl⟩ | ⟨value, _, ⟨_, rfl⟩, failed⟩
      · exact ⟨rfl, .expression rfl failed⟩
      · obtain ⟨rfl, unbound, rfl⟩ := assign_eq_error failed
        exact ⟨rfl, .unbound unbound⟩
  | print word node =>
      simp only [statement, Step.bind_eq_error_iff, valueOf_eq_error_iff, valueOf_eq_ok_iff] at h
      rcases h with ⟨failed, rfl⟩ | ⟨value, _, ⟨evaluated, rfl⟩, failed⟩
      · exact ⟨rfl, .expression rfl failed⟩
      · obtain ⟨rfl, long, rfl⟩ := print_eq_error failed
        exact ⟨rfl, .longValue evaluated long⟩
  | conditional paren cond brace body =>
      simp only [statement, Step.bind_eq_error_iff, valueOf_eq_error_iff, valueOf_eq_ok_iff] at h
      rcases h with ⟨failed, rfl⟩ | ⟨value, _, ⟨evaluated, rfl⟩, failed⟩
      · exact ⟨rfl, .expression rfl failed⟩
      · by_cases isTrue : value = trueValue
        · simp [enter?, evaluated, isTrue] at own
        · simp [isTrue] at failed
  | block brace stmts => cases own
  | _ =>
      simp only [statement, Step.throw_apply, EStateM.Result.error.injEq] at h
      obtain ⟨rfl, rfl⟩ := h
      exact ⟨rfl, .unknownStatement rfl⟩

/-- An execution that succeeds comes to the place after the last statement. -/
theorem reaches_end {stmts : List Node} (h : statements stmts e = .ok () e') :
    walk.Reaches stmts e [stmts.length] [] e' := by
  rw [statements_eq_walk] at h
  exact Walk.reaches_end h

/-- An execution that fails has come to a statement that fails by itself, and ends in the
state in which it came to it. -/
theorem exists_fails {stmts : List Node} (h : statements stmts e = .error f e') :
    ∃ place stmt left, walk.Reaches stmts e place (stmt :: left) e' ∧
      statement stmt e' = .error f e' ∧ Fails e'.scopes stmt f := by
  rw [statements_eq_walk] at h
  obtain ⟨place, stmt, left, u, reached, own, failed⟩ := Walk.exists_failing h
  obtain ⟨rfl, fails⟩ := Fails.of_statement failed own
  exact ⟨place, stmt, left, reached, failed, fails⟩

end Exec

end BlockLang

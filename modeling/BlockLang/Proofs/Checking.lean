import BlockLang.Check
import BlockLang.Proofs.Scopes
import BlockLang.Proofs.Walk

/-!
# Laws of checking

Checking as a walk, and what its steps can do. Reports are only ever added, whether a step
succeeds or fails. A step that succeeds and adds no report is clean, and a sequence of
steps is clean if each of them is; this is how the absence of reports after a whole program
is turned into facts about each of its statements.

For the steps that report something, the laws here say what it means that they did not: a
clean declaration is of a fresh name, a clean use of a name finds a symbol, and clean
comparisons of types are between types that match, unless one of them is lost.
-/

namespace BlockLang

namespace Step

/-- The state in which a step ends, with or without a fault. -/
def endState {ε σ α : Type} : EStateM.Result ε σ α → σ
  | .ok _ s => s
  | .error _ s => s

end Step

namespace Check

variable {α β : Type}

/-- Whatever the step does, it only adds reports. -/
def Grows (step : Check α) : Prop :=
  ∀ c : Checker, c.reports.toList <+: (Step.endState (step c)).reports.toList

namespace Grows

theorem ok {step : Check α} (h : Grows step) {c c' : Checker} {a : α}
    (ran : step c = .ok a c') : c.reports.toList <+: c'.reports.toList := by
  have grown := h c
  rwa [ran] at grown

theorem pure (a : α) : Grows (pure a) := fun _ => List.prefix_rfl

theorem throw (f : Fault) : Grows (throw f : Check α) := fun _ => List.prefix_rfl

theorem bind {x : Check α} {f : α → Check β} (first : Grows x) (second : ∀ a, Grows (f a)) :
    Grows (x >>= f) := by
  intro c
  have grown := first c
  change _ <+: (Step.endState (EStateM.bind x f c)).reports.toList
  unfold EStateM.bind
  cases h : x c with
  | ok a u =>
      rw [h] at grown
      exact grown.trans (second a u)
  | error e u =>
      rw [h] at grown
      exact grown

/-- A change of the scopes keeps the reports. -/
theorem modifyScopes (g : ScopeStack → ScopeStack) :
    Grows (modify fun c : Checker => { c with scopes := g c.scopes }) :=
  fun _ => List.prefix_rfl

end Grows

theorem grows_report (problem : Problem) (token : Token) : Grows (report problem token) := by
  intro c
  change c.reports.toList <+: (c.reports.push ⟨problem, token⟩).toList
  rw [Array.toList_push]
  exact List.prefix_append _ _

theorem grows_declaredType (word : Token) : Grows (declaredType word) := by
  unfold declaredType
  split
  · exact .pure _
  · exact .throw _

theorem grows_declare (name : Token) (type : Ty) : Grows (declare name type) := by
  intro c
  simp only [declare, Step.get_bind_apply]
  cases c.scopes.declare name.text type name with
  | ok scopes => exact List.prefix_rfl
  | error e =>
      cases e with
      | noScope => exact List.prefix_rfl
      | redeclared name token line => exact grows_report _ _ c

theorem grows_resolve (name : Token) : Grows (resolve name) := by
  intro c
  simp only [resolve, Step.get_bind_apply]
  cases c.scopes.lookup? name.text with
  | some sym => exact List.prefix_rfl
  | none => exact (grows_report _ _).bind (fun _ => .pure _) c

theorem grows_operation (op : Token) (left right : Ty) : Grows (operation op left right) := by
  unfold operation
  split
  · exact .pure _
  · split
    · exact .pure _
    · exact (grows_report _ _).bind fun _ => .pure _

theorem grows_expectMatch (equals : Token) (found expected : Ty) :
    Grows (expectMatch equals found expected) := by
  unfold expectMatch
  split
  · exact grows_report _ _
  · exact .pure _

theorem grows_expectCondition (paren : Token) (found : Ty) :
    Grows (expectCondition paren found) := by
  unfold expectCondition
  split
  · exact grows_report _ _
  · exact .pure _

theorem grows_typeOf (node : Node) : Grows (typeOf node) := by
  fun_induction typeOf node with
  | case1 => exact .pure _
  | case2 => exact .pure _
  | case3 name =>
      apply (grows_resolve name).bind
      intro target
      cases target with
      | none => exact .pure _
      | some sym => exact .pure _
  | case4 op left right left_ih right_ih =>
      apply left_ih.bind
      intro l
      apply right_ih.bind
      intro r
      exact grows_operation op l r
  | case5 => exact .throw _

/-- What checking does at a conditional before the statements between its braces. -/
def openConditional (paren : Token) (cond : Node) : Check Unit := do
  let type ← typeOf cond
  expectCondition paren type
  openScope

theorem statement_conditional (paren brace : Token) (cond : Node) (body : List Node) :
    statement (.conditional paren cond brace body) =
      (do openConditional paren cond; statements body; closeScope) := by
  simp only [statement, openConditional, bind_assoc]

theorem grows_openScope : Grows openScope := .modifyScopes _

theorem grows_closeScope : Grows closeScope := .modifyScopes _

theorem grows_openConditional (paren : Token) (cond : Node) :
    Grows (openConditional paren cond) := by
  apply (grows_typeOf cond).bind
  intro found
  apply (grows_expectCondition paren found).bind
  intro _
  exact grows_openScope

/-- Checking a statement only adds reports, if checking what stands between its braces
does. -/
theorem grows_statement_of_body {stmt : Node} (body : Grows (statements stmt.body)) :
    Grows (statement stmt) := by
  cases stmt with
  | varDecl word name equals init =>
      simp only [statement]
      apply (grows_declaredType word).bind
      intro type
      apply (grows_declare name type).bind
      intro _
      apply (grows_typeOf init).bind
      intro found
      exact grows_expectMatch equals found type
  | assign name equals value =>
      simp only [statement]
      apply (grows_resolve name).bind
      intro target
      apply (grows_typeOf value).bind
      intro found
      cases target with
      | none => exact .pure _
      | some sym => exact grows_expectMatch equals found sym.type
  | conditional paren cond brace stmts =>
      rw [statement_conditional]
      exact (grows_openConditional paren cond).bind fun _ => body.bind fun _ => grows_closeScope
  | block brace stmts =>
      simp only [statement]
      exact grows_openScope.bind fun _ => body.bind fun _ => grows_closeScope
  | print word value =>
      simp only [statement]
      exact (grows_typeOf value).bind fun _ => .pure _
  | _ =>
      simp only [statement]
      exact .throw _

theorem grows_statements (stmts : List Node) : Grows (statements stmts) := by
  induction stmts using Node.list_induction with
  | nil =>
      simp only [statements]
      exact .pure _
  | cons stmt rest body_ih rest_ih =>
      simp only [statements]
      exact (grows_statement_of_body body_ih).bind fun _ => rest_ih

theorem grows_statement (stmt : Node) : Grows (statement stmt) :=
  grows_statement_of_body (grows_statements stmt.body)

/-- The step succeeds and reports nothing. -/
structure Clean (step : Check α) (c : Checker) (a : α) (c' : Checker) : Prop where
  ran : step c = .ok a c'
  quiet : c'.reports = c.reports

section Clean

variable {c c' : Checker}

/-- Two steps in sequence are clean if both are. Without the growth of reports the second
step might take back what the first has reported. -/
theorem clean_bind_iff {x : Check α} {f : α → Check β} {b : β} (first : Grows x)
    (second : ∀ a, Grows (f a)) :
    Clean (x >>= f) c b c' ↔ ∃ a u, Clean x c a u ∧ Clean (f a) u b c' := by
  constructor
  · rintro ⟨ran, quiet⟩
    obtain ⟨a, u, left, right⟩ := Step.bind_eq_ok_iff.mp ran
    have grown := first.ok left
    have grown' := (second a).ok right
    rw [quiet] at grown'
    have same : u.reports = c.reports :=
      Array.toList_inj.mp (grown'.eq_of_length_le grown.length_le)
    exact ⟨a, u, ⟨left, same⟩, ⟨right, quiet.trans same.symm⟩⟩
  · rintro ⟨a, u, ⟨left, same⟩, ⟨right, same'⟩⟩
    exact ⟨Step.bind_eq_ok_iff.mpr ⟨a, u, left, right⟩, same'.trans same⟩

theorem clean_pure_iff {a b : α} : Clean (pure a) c b c' ↔ b = a ∧ c' = c := by
  constructor
  · rintro ⟨ran, _⟩
    cases ran
    exact ⟨rfl, rfl⟩
  · rintro ⟨rfl, rfl⟩
    exact ⟨rfl, rfl⟩

theorem not_clean_throw {f : Fault} {a : α} : ¬ Clean (throw f) c a c' := by
  rintro ⟨ran, _⟩
  cases ran

theorem not_clean_report {problem : Problem} {token : Token} :
    ¬ Clean (report problem token) c () c' := by
  rintro ⟨ran, quiet⟩
  cases ran
  have size := congrArg Array.size quiet
  simp [Checker.report] at size

theorem clean_modifyScopes_iff {g : ScopeStack → ScopeStack} :
    Clean (modify fun c : Checker => { c with scopes := g c.scopes }) c () c' ↔
      c' = { c with scopes := g c.scopes } := by
  constructor
  · rintro ⟨ran, _⟩
    cases ran
    rfl
  · rintro rfl
    exact ⟨rfl, rfl⟩

theorem clean_declaredType_iff {word : Token} {type : Ty} :
    Clean (declaredType word) c type c' ↔ Ty.ofWord? word.text = some type ∧ c' = c := by
  unfold declaredType
  cases Ty.ofWord? word.text with
  | none => simp [not_clean_throw]
  | some known => simp [clean_pure_iff, eq_comm]

/-- A declaration without a report is of a name that its scope does not have. -/
theorem clean_declare_iff {name : Token} {type : Ty} :
    Clean (declare name type) c () c' ↔
      c.scopes.Fresh name.text ∧ ∃ scopes,
        c.scopes.insert? ⟨name.text, type, name, none⟩ = some scopes ∧
        c' = { c with scopes := scopes } := by
  constructor
  · rintro ⟨ran, quiet⟩
    simp only [declare, Step.get_bind_apply] at ran
    cases declared : c.scopes.declare name.text type name with
    | ok scopes =>
        rw [declared] at ran
        cases ran
        obtain ⟨fresh, inserted⟩ := ScopeStack.declare_eq_ok_iff.mp declared
        exact ⟨fresh, scopes, inserted, rfl⟩
    | error e =>
        cases e with
        | noScope =>
            rw [declared] at ran
            cases ran
        | redeclared earlier token line =>
            rw [declared] at ran
            exact absurd ⟨ran, quiet⟩ not_clean_report
  · rintro ⟨fresh, scopes, inserted, rfl⟩
    have declared := ScopeStack.declare_eq_ok_iff.mpr ⟨fresh, inserted⟩
    refine ⟨?_, rfl⟩
    simp only [declare, Step.get_bind_apply, declared]
    rfl

/-- A use of a name without a report finds a symbol. -/
theorem clean_resolve_iff {name : Token} {target : Option Symbol} :
    Clean (resolve name) c target c' ↔
      ∃ sym, c.scopes.lookup? name.text = some sym ∧ target = some sym ∧ c' = c := by
  constructor
  · rintro ⟨ran, quiet⟩
    simp only [resolve, Step.get_bind_apply] at ran
    cases found : c.scopes.lookup? name.text with
    | some sym =>
        rw [found] at ran
        cases ran
        exact ⟨sym, rfl, rfl, rfl⟩
    | none =>
        rw [found] at ran
        obtain ⟨_, u, reported, _⟩ :=
          (clean_bind_iff (grows_report _ _) fun _ => .pure _).mp ⟨ran, quiet⟩
        exact absurd reported not_clean_report
  · rintro ⟨sym, found, rfl, rfl⟩
    refine ⟨?_, rfl⟩
    simp only [resolve, Step.get_bind_apply, found]
    rfl

theorem clean_operation_iff {op : Token} {left right type : Ty} :
    Clean (operation op left right) c type c' ↔
      c' = c ∧ ((left.isError || right.isError) = true ∧ type = .error ∨
        (left.isError || right.isError) = false ∧
          (left.isMatch .int && right.isMatch .int) = true ∧ type = .int) := by
  unfold operation
  by_cases lost : (left.isError || right.isError) = true
  · simp [lost, clean_pure_iff, and_comm]
  · by_cases ints : (left.isMatch .int && right.isMatch .int) = true
    · simp [lost, ints, clean_pure_iff, and_comm]
    · rw [if_neg lost, if_neg ints, clean_bind_iff (grows_report _ _) fun _ => .pure _]
      constructor
      · rintro ⟨_, _, reported, _⟩
        exact absurd reported not_clean_report
      · rintro ⟨_, ⟨isLost, _⟩ | ⟨_, areInts, _⟩⟩
        · exact absurd isLost lost
        · exact absurd areInts ints

theorem clean_expectMatch_iff {equals : Token} {found expected : Ty} :
    Clean (expectMatch equals found expected) c () c' ↔
      (found.isError || found.isMatch expected) = true ∧ c' = c := by
  unfold expectMatch
  cases found.isError <;> cases found.isMatch expected <;>
    simp [clean_pure_iff, not_clean_report]

theorem clean_expectCondition_iff {paren : Token} {found : Ty} :
    Clean (expectCondition paren found) c () c' ↔
      (found.isError || found.isMatch .boolean) = true ∧ c' = c := by
  unfold expectCondition
  cases found.isError <;> cases found.isMatch .boolean <;>
    simp [clean_pure_iff, not_clean_report]

/-- Statements between braces that are entered by a clean step are clean if they are clean
after it, and the scope they are in is closed after them. -/
theorem clean_braces_iff {opening step : Check Unit} (opens : Grows opening) (h : Grows step) :
    Clean (do opening; step; closeScope) c () c' ↔
      ∃ u v, Clean opening c () u ∧ Clean step u () v ∧
        c' = { v with scopes := v.scopes.closeScope } := by
  have closes : ∀ _ : Unit, Grows closeScope := fun _ => grows_closeScope
  rw [clean_bind_iff opens fun _ => h.bind closes]
  constructor
  · rintro ⟨_, u, opened, inner⟩
    obtain ⟨_, v, body, closed⟩ := (clean_bind_iff h closes).mp inner
    exact ⟨u, v, opened, body, clean_modifyScopes_iff.mp closed⟩
  · rintro ⟨u, v, opened, body, closed⟩
    refine ⟨(), u, opened, ?_⟩
    rw [clean_bind_iff h closes]
    exact ⟨(), v, body, clean_modifyScopes_iff.mpr closed⟩

theorem clean_statements_cons_iff {stmt : Node} {rest : List Node} :
    Clean (statements (stmt :: rest)) c () c' ↔
      ∃ u, Clean (statement stmt) c () u ∧ Clean (statements rest) u () c' := by
  simp only [statements]
  rw [clean_bind_iff (grows_statement stmt) fun _ => grows_statements rest]
  constructor
  · rintro ⟨_, u, first, remaining⟩
    exact ⟨u, first, remaining⟩
  · rintro ⟨u, first, remaining⟩
    exact ⟨(), u, first, remaining⟩

end Clean

/-- The state in which checking comes to the statements between the braces of a
statement: after the condition, if there is one. -/
def enter? (stmt : Node) (c : Checker) : Option Checker :=
  match stmt with
  | .block _ _ => some { c with scopes := c.scopes.openScope }
  | .conditional paren cond _ _ =>
    match openConditional paren cond c with
    | .ok _ c' => some c'
    | .error _ _ => none
  | _ => none

/-- What checking does to its state at a closing brace. -/
def leave (c : Checker) : Checker := { c with scopes := c.scopes.closeScope }

theorem statements_eq_sequence (stmts : List Node) :
    statements stmts = Step.sequence statement stmts := by
  induction stmts with
  | nil => simp only [statements, Step.sequence]
  | cons stmt rest ih => simp only [statements, Step.sequence, ih]

/-- Checking as a walk. -/
def walk : Walk Checker where
  statement := statement
  enter? := enter?
  leave := leave
  statement_of_enter := by
    intro stmt c c' entered
    rw [← statements_eq_sequence]
    cases stmt with
    | block brace stmts =>
        cases entered
        simp only [statement, Node.body]
        rfl
    | conditional paren cond brace body =>
        cases came : openConditional paren cond c with
        | ok _ u =>
            simp only [enter?, came, Option.some.injEq] at entered
            subst entered
            rw [statement_conditional, Step.bind_of_ok came]
            rfl
        | error f u => simp [enter?, came] at entered
    | _ => cases entered

theorem statements_eq_walk (stmts : List Node) : statements stmts = walk.statements stmts :=
  statements_eq_sequence stmts

end Check

end BlockLang

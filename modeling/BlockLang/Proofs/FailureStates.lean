import BlockLang.Proofs.Resolution
import BlockLang.Proofs.Sessions
import BlockLang.Proofs.SourceFaults

/-!
# What a failed execution leaves behind

An expression is evaluated before a statement has any effect, so a statement that fails has none.
When execution fails, the state is therefore the one in which it came to the failing statement.
This state is described without any reference to the failure: `Exec.approach` executes the
statements before a place in order, and opens the braces on the path to the place without closing
them.

The failing statement is the only one that fails. The statements before it have succeeded, those
after it are never come to, and a block fails only because of a statement in it.
-/

namespace BlockLang

/-- Around a place there is one list for each of its numbers. -/
theorem Node.Stands.length_eq {stmt : Node} {stmts : List Node} {place : Place}
    {lists : List (List Node)} (h : Stands stmt stmts place lists) :
    lists.length = place.length := by
  induction h with
  | here => rfl
  | inside _ _ _ ih => simp [ih]

/-- A statement that a walk comes to stands at the place that is come to. -/
theorem Walk.Reaches.stands {σ : Type} {w : Walk σ} {stmts left : List Node} {stmt : Node}
    {s t : σ} {place : Place} (reached : w.Reaches stmts s place (stmt :: left) t) :
    ∃ passed around, Node.Stands stmt stmts place ((passed ++ [stmt]) :: around) := by
  obtain ⟨passed, around, _, stands⟩ :=
    reached.carries (P := fun _ _ => True) (fun _ _ => trivial) (fun _ _ => trivial) trivial
  exact ⟨passed, around, stands⟩

namespace Exec

variable {e e' d : Executor} {stmt : Node} {stmts left : List Node} {place : Place} {f : Fault}

/-- Executes what stands before a place, and opens a scope at each of the braces around it. -/
def approach : List Node → Place → Exec Unit
  | _, [] => pure ()
  | stmts, [n] => statements (stmts.take n)
  | stmts, n :: m :: place => do
    statements (stmts.take n)
    openScope
    approach ((stmts[n]?).elim [] Node.body) (m :: place)

/-- The state in which execution comes to a place is the one that the statements before it make. -/
theorem approach_of_reaches (reached : walk.Reaches stmts e place left d) :
    approach stmts place e = .ok () d := by
  induction reached with
  | here => simp [approach, statements]
  | @after stmt rest left e u d n place ran _ ih =>
      cases place with
      | nil =>
          simp only [approach, List.take_succ_cons, statements] at ih ⊢
          exact (Step.bind_of_ok ran).trans ih
      | cons m place =>
          simp only [approach, List.take_succ_cons, statements, List.getElem?_cons_succ,
            bind_assoc] at ih ⊢
          exact (Step.bind_of_ok ran).trans ih
  | @inside stmt rest left e u d place entered reached ih =>
      obtain ⟨m, place, rfl⟩ := List.exists_cons_of_ne_nil reached.place_ne_nil
      cases enter?_eq_some entered
      simp only [approach, List.take_zero, statements, List.getElem?_cons_zero, Option.elim_some]
      exact ih

/-- Wherever execution comes to a statement, one more scope is open for each list around its
own. -/
theorem depth_around (reached : walk.Reaches stmts e place (stmt :: left) d) :
    ∃ passed around, d.scopes.depth = e.scopes.depth + around.length ∧
      Node.Stands stmt stmts place ((passed ++ [stmt]) :: around) := by
  obtain ⟨passed, around, stands⟩ := reached.stands
  have lists := stands.length_eq
  have depth := depth_at reached
  rw [List.length_cons] at lists
  exact ⟨passed, around, by omega, stands⟩

/-- A statement that fails by itself is a declaration, an assignment or the printing of a value, or
it is a conditional whose condition has no value, or it is no statement. -/
theorem Fails.kind {scopes : ScopeStack} (h : Fails scopes stmt f) :
    (∃ word name equals init, stmt = .varDecl word name equals init) ∨
    (∃ name equals value, stmt = .assign name equals value) ∨
    (∃ word value, stmt = .print word value) ∨
    (∃ paren cond brace body, stmt = .conditional paren cond brace body ∧
      evaluate scopes cond = .error f) ∨
    (stmt.isStatement = false ∧ f = .unknownStatement stmt.sort) := by
  cases h with
  | expression part failed =>
      cases stmt with
      | varDecl word name equals init => exact .inl ⟨word, name, equals, init, rfl⟩
      | assign name equals value => exact .inr (.inl ⟨name, equals, value, rfl⟩)
      | print word value => exact .inr (.inr (.inl ⟨word, value, rfl⟩))
      | conditional paren cond brace body =>
          cases part
          exact .inr (.inr (.inr (.inl ⟨paren, _, brace, body, rfl, failed⟩)))
      | _ => cases part
  | unknownType => exact .inl ⟨_, _, _, _, rfl⟩
  | noScope => exact .inl ⟨_, _, _, _, rfl⟩
  | unbound => exact .inr (.inl ⟨_, _, _, rfl⟩)
  | longValue => exact .inr (.inr (.inl ⟨_, _, rfl⟩))
  | unknownStatement other => exact .inr (.inr (.inr (.inr ⟨other, rfl⟩)))

/-- Between two states lines were printed, to the output and to the stream alike. -/
def Prints (e e' : Executor) : Prop :=
  ∃ lines : List String, e'.output.toList = e.output.toList ++ lines ∧
    e'.stream = e.stream ++ String.join (lines.map (· ++ "\n"))

theorem Prints.change (h : Prints e d) (change : Change d e') : Prints e e' := by
  cases change with
  | print line =>
      obtain ⟨lines, output, stream⟩ := h
      refine ⟨lines ++ [line], ?_, ?_⟩
      · simp [Executor.printLine, output]
      · simp [Executor.printLine, stream, String.append_assoc]
  | _ => exact h

theorem prints_statements (stmts : List Node) (e : Executor) :
    Prints e (Step.endState (statements stmts e)) := by
  have start : Prints e e := ⟨[], (List.append_nil _).symm, String.append_empty.symm⟩
  exact keeps_of_changes (P := Prints e) (fun change prints => prints.change change)
    (makes_statements stmts e) start

end Exec

/-- A failure leaves the state in which the failing statement was come to. Take any state of
execution, and any program whose execution fails. Then execution has come to a statement that fails
before its braces, for one of the reasons in `Exec.Fails`, and leaves the state as it is. No other
statement that execution comes to fails before its braces. The state that is left behind is the one
that the statements before the failing one make, with the braces around it opened and not closed: one
scope more is open for each of the lists around its own. What was printed before is kept in the
output and in the stream, and any further lines are the same in both. -/
theorem failure_leaves_approach {p : Program} {e e' : Executor} {f : Fault}
    (failed : Exec.program p e = .error f e') :
    ∃ place stmt left passed around,
      Exec.walk.Reaches p.stmts e place (stmt :: left) e' ∧ Exec.enter? stmt e' = none ∧
      Exec.statement stmt e' = .error f e' ∧ Exec.Fails e'.scopes stmt f ∧
      ((∃ word name equals init, stmt = .varDecl word name equals init) ∨
        (∃ name equals value, stmt = .assign name equals value) ∨
        (∃ word value, stmt = .print word value) ∨
        (∃ paren cond brace body, stmt = .conditional paren cond brace body ∧
          evaluate e'.scopes cond = .error f) ∨
        (stmt.isStatement = false ∧ f = .unknownStatement stmt.sort)) ∧
      (∀ place' stmt' left' d f' d',
        Exec.walk.Reaches p.stmts e place' (stmt' :: left') d → Exec.enter? stmt' d = none →
        Exec.statement stmt' d = .error f' d' → place' = place ∧ stmt' = stmt ∧ d' = e') ∧
      Exec.approach p.stmts place e = .ok () e' ∧
      Node.Stands stmt p.stmts place ((passed ++ [stmt]) :: around) ∧
      e'.scopes.depth = e.scopes.depth + around.length ∧
      ∃ lines : List String, e'.output.toList = e.output.toList ++ lines ∧
        e'.stream = e.stream ++ String.join (lines.map (· ++ "\n")) := by
  have walked : Exec.walk.statements p.stmts e = .error f e' := by
    rw [← Exec.statements_eq_walk]
    exact failed
  obtain ⟨place, stmt, left, d, reached, own, fails⟩ := Walk.exists_failing walked
  obtain ⟨rfl, why⟩ := Exec.Fails.of_statement fails own
  obtain ⟨passed, around, depth, stands⟩ := Exec.depth_around reached
  have printed : Exec.Prints e e' := by
    have prints := Exec.prints_statements p.stmts e
    have ran : Exec.statements p.stmts e = .error f e' := failed
    rwa [ran] at prints
  refine ⟨place, stmt, left, passed, around, reached, own, fails, why, why.kind, ?_,
    Exec.approach_of_reaches reached, stands, depth, printed⟩
  intro place' stmt' left' d f' d' reached' own' fails'
  cases reached.failing_unique own fails reached' own' fails'
  obtain ⟨same, rfl⟩ := reached.unique reached'
  cases same
  cases fails.symm.trans fails'
  exact ⟨rfl, rfl, rfl⟩

/-- A program that prints, declares and assigns at two depths, and then fails on the condition of an
inner conditional. -/
def Program.breaking : Program where
  stmts := [
    .varDecl ⟨"int", 1, 0⟩ ⟨"x", 1, 4⟩ ⟨"=", 1, 6⟩ (.boolLit ⟨"true", 1, 8⟩),
    .block ⟨"\x7b", 2, 0⟩ [
      .print ⟨"print", 2, 2⟩ (.ident ⟨"x", 2, 8⟩),
      .varDecl ⟨"int", 3, 2⟩ ⟨"y", 3, 6⟩ ⟨"=", 3, 8⟩ (.ident ⟨"x", 3, 10⟩),
      .conditional ⟨"(", 4, 5⟩ (.ident ⟨"y", 4, 6⟩) ⟨"\x7b", 4, 9⟩ [
        .assign ⟨"x", 5, 4⟩ ⟨"=", 5, 6⟩ (.boolLit ⟨"false", 5, 8⟩),
        .block ⟨"\x7b", 6, 4⟩ [.print ⟨"print", 6, 6⟩ (.ident ⟨"x", 6, 12⟩)],
        .conditional ⟨"(", 7, 7⟩ (.ident ⟨"z", 7, 8⟩) ⟨"\x7b", 7, 11⟩ [],
        .print ⟨"print", 8, 4⟩ (.ident ⟨"x", 8, 10⟩)]]]

theorem failure_leaves_approach_breaking :
    ∃ e' place stmt left, Exec.program .breaking .initial = .error (.unbound "z") e' ∧
      e'.output = #["1", "0"] ∧ e'.stream = "1\n0\n" ∧
      e'.scopes.scopes.map (·.symbols.map Symbol.name) = [[], ["y"], ["x"]] ∧
      (e'.scopes.lookup? "x").bind Symbol.value = some 0 ∧
      Exec.walk.Reaches Program.breaking.stmts .initial place (stmt :: left) e' ∧
      Exec.statement stmt e' = .error (.unbound "z") e' ∧
      Exec.approach Program.breaking.stmts place .initial = .ok () e' := by
  obtain ⟨place, stmt, left, _, _, reached, _, fails, _, _, _, approached, _⟩ :=
    failure_leaves_approach (p := .breaking) (e := .initial) rfl
  exact ⟨_, place, stmt, left, rfl, rfl, rfl, rfl, rfl, reached, fails, approached⟩

end BlockLang

import BlockLang.Session
import BlockLang.Proofs.Execution
import BlockLang.Proofs.Typing
import Mathlib.Logic.Relation

/-!
# Sessions

A session keeps a checker and an executor through any steps, in any order. A step may end
with a fault and leave the scopes of unfinished blocks open, and scopes may be closed by hand
until none is left. What holds of the two passes all the same is shown here.

Both passes are made of few changes of their states, which `Check.Change` and `Exec.Change`
list: scopes are opened and closed, a symbol is declared, and besides checking reports a
problem, while execution updates a symbol or prints a line. Whatever is checked or executed,
and wherever it ends, the state has come about by such changes one after another. What each
change keeps is therefore kept by every session.
-/

namespace BlockLang

open Relation (ReflTransGen)

namespace Step

variable {ε σ α β : Type} {R : σ → σ → Prop}

/-- The step makes changes of one kind, one after another, whether it succeeds or fails. -/
def Makes (R : σ → σ → Prop) (step : EStateM ε σ α) : Prop :=
  ∀ s, ReflTransGen R s (endState (step s))

namespace Makes

theorem pure (a : α) : Makes R (pure a : EStateM ε σ α) := fun _ => .refl

theorem throw (e : ε) : Makes R (throw e : EStateM ε σ α) := fun _ => .refl

theorem modify {g : σ → σ} (change : ∀ s, R s (g s)) :
    Makes R (modify g : EStateM ε σ PUnit) :=
  fun s => .single (change s)

theorem bind {x : EStateM ε σ α} {f : α → EStateM ε σ β} (first : Makes R x)
    (second : ∀ a, Makes R (f a)) : Makes R (x >>= f) := by
  intro s
  have made := first s
  change ReflTransGen R s (endState (EStateM.bind x f s))
  unfold EStateM.bind
  cases h : x s with
  | ok a t =>
      rw [h] at made
      exact made.trans (second a t)
  | error e t =>
      rw [h] at made
      exact made

end Makes

end Step

open Step (Makes)

namespace Check

/-- A single change of the state of checking. -/
inductive Change (c : Checker) : Checker → Prop
  | report (problem : Problem) (token : Token) : Change c (c.report problem token)
  | declare {word : String} {name : Token} {type : Ty} {scopes : ScopeStack}
      (known : Ty.ofWord? word = some type)
      (declared : c.scopes.declare name.text type name = .ok scopes) :
      Change c { c with scopes := scopes }
  | openScope : Change c { c with scopes := c.scopes.openScope }
  | closeScope : Change c { c with scopes := c.scopes.closeScope }

/-- Changes of this kind include all reports. -/
def IncludesReports (R : Checker → Checker → Prop) : Prop :=
  ∀ (c : Checker) (problem : Problem) (token : Token), R c (c.report problem token)

theorem includesReports_change : IncludesReports Change := fun _ => .report

section Reporting

variable {R : Checker → Checker → Prop}

theorem makes_report (reports : IncludesReports R) (problem : Problem) (token : Token) :
    Makes R (report problem token) :=
  .modify fun c => reports c problem token

theorem makes_reportIf (reports : IncludesReports R) (wrong : Bool) (problem : Problem)
    (token : Token) : Makes R (if wrong then report problem token else pure ()) := by
  split
  · exact makes_report reports problem token
  · exact .pure ()

theorem makes_resolve (reports : IncludesReports R) (name : Token) : Makes R (resolve name) := by
  intro c
  simp only [resolve, Step.get_bind_apply]
  cases c.scopes.lookup? name.text with
  | some sym => exact .refl
  | none => exact (makes_report reports _ name).bind (fun _ => .pure _) c

/-- Nothing but reports is made by looking for the type of an expression. -/
theorem makes_typeOf (reports : IncludesReports R) (node : Node) : Makes R (typeOf node) := by
  fun_induction typeOf node with
  | case1 => exact .pure _
  | case2 => exact .pure _
  | case3 name =>
      apply (makes_resolve reports name).bind
      intro target
      cases target with
      | none => exact .pure _
      | some sym => exact .pure _
  | case4 op left right left_ih right_ih =>
      apply left_ih.bind
      intro l
      apply right_ih.bind
      intro r
      unfold operation
      split
      · exact .pure _
      · split
        · exact .pure _
        · exact (makes_report reports _ op).bind fun _ => .pure _
  | case5 => exact .throw _

end Reporting

theorem makes_openScope : Makes Change openScope := .modify fun _ => .openScope

theorem makes_closeScope : Makes Change closeScope := .modify fun _ => .closeScope

/-- A name is declared with a type of the language, or reported. -/
theorem makes_declare {word : String} {type : Ty} (known : Ty.ofWord? word = some type)
    (name : Token) : Makes Change (declare name type) := by
  intro c
  simp only [declare, Step.get_bind_apply]
  cases declared : c.scopes.declare name.text type name with
  | ok scopes => exact .single (.declare known declared)
  | error e =>
      cases e with
      | noScope => exact .refl
      | redeclared name token line => exact makes_report includesReports_change _ token c

/-- Between braces a scope is opened first and closed last. -/
theorem makes_braces {step : Check Unit} (h : Makes Change step) :
    Makes Change (do openScope; step; closeScope) :=
  makes_openScope.bind fun _ => h.bind fun _ => makes_closeScope

theorem makes_statement {stmt : Node} (body : Makes Change (statements stmt.body)) :
    Makes Change (statement stmt) := by
  cases stmt with
  | varDecl word name equals init =>
      cases known : Ty.ofWord? word.text with
      | none =>
          simp only [statement, declaredType, known]
          exact fun _ => .refl
      | some type =>
          simp only [statement, declaredType, known, pure_bind]
          apply (makes_declare known name).bind
          intro _
          apply (makes_typeOf includesReports_change init).bind
          intro found
          exact makes_reportIf includesReports_change _ _ equals
  | assign name equals value =>
      simp only [statement]
      apply (makes_resolve includesReports_change name).bind
      intro target
      apply (makes_typeOf includesReports_change value).bind
      intro found
      cases target with
      | none => exact .pure _
      | some sym => exact makes_reportIf includesReports_change _ _ equals
  | conditional paren cond brace stmts =>
      simp only [statement]
      apply (makes_typeOf includesReports_change cond).bind
      intro found
      apply (makes_reportIf includesReports_change _ _ paren).bind
      intro _
      exact makes_braces body
  | block brace stmts =>
      simp only [statement]
      exact makes_braces body
  | print word value =>
      simp only [statement]
      exact (makes_typeOf includesReports_change value).bind fun _ => .pure _
  | _ =>
      simp only [statement]
      exact .throw _

/-- Checking makes changes one after another, wherever it ends. -/
theorem makes_statements (stmts : List Node) : Makes Change (statements stmts) := by
  induction stmts using Node.list_induction with
  | nil =>
      simp only [statements]
      exact .pure _
  | cons stmt rest body_ih rest_ih =>
      simp only [statements]
      exact (makes_statement body_ih).bind fun _ => rest_ih

end Check

namespace Exec

/-- A single change of the state of execution. -/
inductive Change (e : Executor) : Executor → Prop
  | declare {word : String} {name : Token} {type : Ty} {value : Int} {scopes : ScopeStack}
      (known : Ty.ofWord? word = some type)
      (inserted : e.scopes.insert? ⟨name.text, type, name, some value⟩ = some scopes) :
      Change e { e with scopes := scopes }
  | assign {name : String} {value : Int} {scopes : ScopeStack}
      (updated : e.scopes.setValue? name (some value) = some scopes) :
      Change e { e with scopes := scopes }
  | print (line : String) : Change e (e.printLine line)
  | openScope : Change e { e with scopes := e.scopes.openScope }
  | closeScope : Change e { e with scopes := e.scopes.closeScope }

theorem makes_openScope : Makes Change openScope := .modify fun _ => .openScope

theorem makes_closeScope : Makes Change closeScope := .modify fun _ => .closeScope

/-- Evaluation changes nothing. -/
theorem makes_valueOf (node : Node) : Makes Change (valueOf node) := by
  intro e
  simp only [valueOf, Step.get_bind_apply]
  cases evaluate e.scopes node with
  | ok value => exact .refl
  | error f => exact .refl

theorem makes_declare (word name : Token) (value : Int) :
    Makes Change (declare word name value) := by
  intro e
  unfold declare
  cases known : Ty.ofWord? word.text with
  | none => exact .refl
  | some type =>
      simp only [Step.get_bind_apply]
      cases inserted : e.scopes.insert? ⟨name.text, type, name, some value⟩ with
      | none => exact .refl
      | some scopes => exact .single (.declare known inserted)

theorem makes_assign (name : Token) (value : Int) : Makes Change (assign name value) := by
  intro e
  simp only [assign, Step.get_bind_apply]
  cases updated : e.scopes.setValue? name.text (some value) with
  | none => exact .refl
  | some scopes => exact .single (.assign updated)

theorem makes_print (value : Int) : Makes Change (print value) := by
  unfold print
  cases Numeral.write? value with
  | none => exact .throw _
  | some line => exact .modify fun _ => .print line

/-- Between braces a scope is opened first and closed last. -/
theorem makes_braces {step : Exec Unit} (h : Makes Change step) :
    Makes Change (do openScope; step; closeScope) :=
  makes_openScope.bind fun _ => h.bind fun _ => makes_closeScope

theorem makes_statement {stmt : Node} (body : Makes Change (statements stmt.body)) :
    Makes Change (statement stmt) := by
  cases stmt with
  | varDecl word name equals init =>
      simp only [statement]
      exact (makes_valueOf init).bind fun value => makes_declare word name value
  | assign name equals node =>
      simp only [statement]
      exact (makes_valueOf node).bind fun value => makes_assign name value
  | print word node =>
      simp only [statement]
      exact (makes_valueOf node).bind fun value => makes_print value
  | conditional paren cond brace stmts =>
      simp only [statement]
      apply (makes_valueOf cond).bind
      intro value
      split
      · exact makes_braces body
      · exact .pure ()
  | block brace stmts =>
      simp only [statement]
      exact makes_braces body
  | _ =>
      simp only [statement]
      exact .throw _

/-- Execution makes changes one after another, wherever it ends. -/
theorem makes_statements (stmts : List Node) : Makes Change (statements stmts) := by
  induction stmts using Node.list_induction with
  | nil =>
      simp only [statements]
      exact .pure _
  | cons stmt rest body_ih rest_ih =>
      simp only [statements]
      exact (makes_statement body_ih).bind fun _ => rest_ih

end Exec

/-- In a scope with distinct names, what is found under a name are the symbols that have the
name. -/
theorem Scope.Distinct.find?_eq_some_iff {s : Scope} (h : s.Distinct) {name : String}
    {sym : Symbol} : s.find? name = some sym ↔ sym ∈ s.symbols ∧ sym.name = name := by
  constructor
  · intro found
    have named := List.find?_some found
    exact ⟨find?_mem found, beq_iff_eq.mp named⟩
  · rintro ⟨member, rfl⟩
    exact h.find?_of_mem member

namespace ScopeStack

variable {s t : ScopeStack} {valued : Option Int → Prop}

/-- What holds of the scopes of a pass: in each scope the names are distinct, every symbol has
the text of its token for a name and a type of the language, and its value is as the pass
leaves it. -/
structure Sound (valued : Option Int → Prop) (s : ScopeStack) : Prop where
  distinct : s.Distinct
  named : s.All fun sym => sym.token.text = sym.name
  typed : s.All Symbol.Typed
  valued : s.All fun sym => valued sym.value

namespace Sound

theorem initial : Sound valued initial :=
  ⟨distinct_initial, all_initial, all_initial, all_initial⟩

theorem openScope (h : s.Sound valued) : s.openScope.Sound valued :=
  ⟨h.distinct.openScope, h.named.openScope, h.typed.openScope, h.valued.openScope⟩

theorem closeScope (h : s.Sound valued) : s.closeScope.Sound valued :=
  ⟨h.distinct.closeScope, h.named.closeScope, h.typed.closeScope, h.valued.closeScope⟩

/-- A declaration puts a symbol into the scopes that is named by its token. -/
theorem insert? {word : String} {name : Token} {type : Ty} {value : Option Int}
    (h : s.Sound valued) (known : Ty.ofWord? word = some type) (new : valued value)
    (inserted : s.insert? ⟨name.text, type, name, value⟩ = some t) : t.Sound valued where
  distinct := h.distinct.insert? inserted
  named := h.named.insert? inserted rfl
  typed := by
    apply h.typed.insert? inserted
    obtain ⟨rfl, _⟩ | ⟨rfl, _⟩ := Ty.ofWord?_eq_some known
    · exact .inl rfl
    · exact .inr rfl
  valued := h.valued.insert? inserted new

/-- An update leaves the name, the type and the token of the symbol as they are. -/
theorem setValue? {name : String} {value : Option Int} (h : s.Sound valued)
    (new : valued value) (updated : s.setValue? name value = some t) : t.Sound valued where
  distinct := h.distinct.setValue? updated
  named := h.named.setValue? h.distinct updated fun sym found =>
    show sym.token.text = sym.name from h.named.lookup? found
  typed := h.typed.setValue? h.distinct updated fun sym found =>
    show sym.Typed from h.typed.lookup? found
  valued := h.valued.setValue? h.distinct updated fun _ _ => new

/-- Each scope has its symbols under their names, and no two under one name. -/
theorem entries (h : s.Sound valued) :
    s.All (fun sym => sym.token.text = sym.name ∧ sym.Typed) ∧
    ∀ scope ∈ s.scopes, (scope.symbols.map Symbol.name).Nodup ∧
      ∀ name sym, scope.find? name = some sym ↔ sym ∈ scope.symbols ∧ sym.name = name := by
  refine ⟨?_, ?_⟩
  · intro scope member sym symbol
    exact ⟨h.named scope member sym symbol, h.typed scope member sym symbol⟩
  · intro scope member
    have distinct := h.distinct scope member
    exact ⟨List.pairwise_map.mpr distinct, fun _ _ => distinct.find?_eq_some_iff⟩

/-- Where all symbols have values, a variable can be read if and only if some scope has it. -/
theorem exists_valueOf_iff (h : s.Sound fun value => value.isSome) {name : String} :
    (∃ value, s.valueOf name = .ok value) ↔ (s.lookup? name).isSome := by
  simp only [valueOf_eq_ok_iff, Option.isSome_iff_exists]
  constructor
  · rintro ⟨_, sym, found, _⟩
    exact ⟨sym, found⟩
  · rintro ⟨sym, found⟩
    obtain ⟨value, given⟩ := Option.isSome_iff_exists.mp (h.valued.lookup? found)
    exact ⟨value, sym, found, given⟩

end Sound

end ScopeStack

namespace Check.Change

variable {c c' : Checker}

theorem sound (h : Change c c') (sound : c.scopes.Sound (· = none)) :
    c'.scopes.Sound (· = none) := by
  cases h with
  | report => exact sound
  | declare known declared =>
      exact sound.insert? known rfl (ScopeStack.declare_eq_ok_iff.mp declared).2
  | openScope => exact sound.openScope
  | closeScope => exact sound.closeScope

theorem reports_prefix (h : Change c c') : c.reports.toList <+: c'.reports.toList := by
  cases h with
  | report problem token => exact grows_report problem token c
  | _ => exact List.prefix_rfl

end Check.Change

/-- The stream shows the printed lines, each with a line feed after it. -/
def Executor.Streamed (e : Executor) : Prop :=
  e.stream = String.join (e.output.toList.map (· ++ "\n"))

namespace Exec.Change

variable {e e' : Executor}

theorem sound (h : Change e e') (sound : e.scopes.Sound fun value => value.isSome) :
    e'.scopes.Sound fun value => value.isSome := by
  cases h with
  | declare known inserted => exact sound.insert? known rfl inserted
  | assign updated => exact sound.setValue? rfl updated
  | print => exact sound
  | openScope => exact sound.openScope
  | closeScope => exact sound.closeScope

theorem streamed (h : Change e e') (streamed : e.Streamed) : e'.Streamed := by
  cases h with
  | print line =>
      unfold Executor.Streamed at streamed ⊢
      simp [Executor.printLine, streamed, String.append_assoc]
  | _ => exact streamed

theorem output_prefix (h : Change e e') : e.output.toList <+: e'.output.toList := by
  cases h with
  | print line =>
      rw [Executor.printLine, Array.toList_push]
      exact List.prefix_append _ _
  | _ => exact List.prefix_rfl

end Exec.Change

/-- What each change keeps is kept by changes one after another. -/
theorem keeps_of_changes {σ : Type} {R : σ → σ → Prop} {P : σ → Prop} {s t : σ}
    (step : ∀ {s t}, R s t → P s → P t) (changes : ReflTransGen R s t) (start : P s) : P t := by
  induction changes with
  | refl => exact start
  | tail _ change ih => exact step change ih

namespace Session

/-- The session after steps in order, of which any may end with a fault. -/
def performAll (s : Session) (steps : List Step) : Session :=
  steps.foldl (fun s step => (s.perform step).1) s

/-- The one session comes from the other by changes of the two passes. -/
structure Follows (s t : Session) : Prop where
  checker : ReflTransGen Check.Change s.checker t.checker
  executor : ReflTransGen Exec.Change s.executor t.executor

theorem Follows.trans {s t u : Session} (first : Follows s t) (second : Follows t u) :
    Follows s u :=
  ⟨first.checker.trans second.checker, first.executor.trans second.executor⟩

theorem follows_performCheck (s : Session) {step : Check Answer}
    (h : Makes Check.Change step) : Follows s (s.performCheck step).1 := by
  have made := h s.checker
  unfold performCheck
  cases ran : step s.checker with
  | ok answer checker =>
      rw [ran] at made
      exact ⟨made, .refl⟩
  | error fault checker =>
      rw [ran] at made
      exact ⟨made, .refl⟩

theorem follows_performExec (s : Session) {step : Exec Answer}
    (h : Makes Exec.Change step) : Follows s (s.performExec step).1 := by
  have made := h s.executor
  unfold performExec
  cases ran : step s.executor with
  | ok answer executor =>
      rw [ran] at made
      exact ⟨.refl, made⟩
  | error fault executor =>
      rw [ran] at made
      exact ⟨.refl, made⟩

/-- A step changes the states of the passes, also if it ends with a fault. -/
theorem follows_perform (s : Session) (step : Step) : Follows s (s.perform step).1 := by
  cases step with
  | check p => exact s.follows_performCheck ((Check.makes_statements _).bind fun _ => .pure _)
  | exec p => exact s.follows_performExec ((Exec.makes_statements _).bind fun _ => .pure _)
  | typeOf node =>
      have looked := Check.makes_typeOf Check.includesReports_change node
      exact s.follows_performCheck (looked.bind fun _ => .pure _)
  | valueOf node => exact s.follows_performExec ((Exec.makes_valueOf _).bind fun _ => .pure _)
  | openScope pass =>
      cases pass with
      | check => exact s.follows_performCheck (Check.makes_openScope.bind fun _ => .pure _)
      | exec => exact s.follows_performExec (Exec.makes_openScope.bind fun _ => .pure _)
  | closeScope pass =>
      cases pass with
      | check => exact s.follows_performCheck (Check.makes_closeScope.bind fun _ => .pure _)
      | exec => exact s.follows_performExec (Exec.makes_closeScope.bind fun _ => .pure _)

theorem follows_performAll (s : Session) (steps : List Step) :
    Follows s (s.performAll steps) := by
  induction steps generalizing s with
  | nil => exact ⟨.refl, .refl⟩
  | cons step rest ih => exact (s.follows_perform step).trans (ih _)

theorem performAll_append (s : Session) (first second : List Step) :
    s.performAll (first ++ second) = (s.performAll first).performAll second :=
  List.foldl_append

end Session

/-- The invariant of sessions: after any steps, in both passes, each scope has its symbols under
their names and no two under one name, every symbol has the text of its token for a name, and
its type is one of the language. No symbol of checking has a value, and every symbol of
execution has one, so that a variable can be read if and only if some scope has it. The stream
shows the printed lines, each with a line feed after it. Later steps only add diagnostics and
printed lines. -/
theorem session_invariant (steps later : List Session.Step) :
    let s := Session.initial.performAll steps
    let t := Session.initial.performAll (steps ++ later)
    (∀ stack ∈ [s.checker.scopes, s.executor.scopes],
      stack.All (fun sym => sym.token.text = sym.name ∧ (sym.type = .int ∨ sym.type = .boolean)) ∧
      ∀ scope ∈ stack.scopes, (scope.symbols.map Symbol.name).Nodup ∧
        ∀ name sym, scope.find? name = some sym ↔ sym ∈ scope.symbols ∧ sym.name = name) ∧
    s.checker.scopes.All (fun sym => sym.value = none) ∧
    s.executor.scopes.All (fun sym => ∃ value : Int, sym.value = some value) ∧
    (∀ name, (∃ value, s.executor.scopes.valueOf name = .ok value) ↔
      (s.executor.scopes.lookup? name).isSome) ∧
    s.executor.stream = String.join (s.executor.output.toList.map (· ++ "\n")) ∧
    s.checker.diagnostics <+: t.checker.diagnostics ∧
    s.executor.output.toList <+: t.executor.output.toList := by
  intro s t
  have before : Session.Follows .initial s := Session.follows_performAll _ steps
  have after : Session.Follows s t := by
    have changed := Session.follows_performAll s later
    rwa [← Session.performAll_append] at changed
  have checked : s.checker.scopes.Sound (· = none) :=
    keeps_of_changes (P := fun c : Checker => c.scopes.Sound (· = none)) Check.Change.sound
      before.checker .initial
  have executed : s.executor.scopes.Sound fun value => value.isSome :=
    keeps_of_changes (P := fun e : Executor => e.scopes.Sound fun value => value.isSome)
      Exec.Change.sound before.executor .initial
  have reported : s.checker.reports.toList <+: t.checker.reports.toList :=
    keeps_of_changes (P := fun c : Checker => s.checker.reports.toList <+: c.reports.toList)
      (fun change so => so.trans change.reports_prefix) after.checker List.prefix_rfl
  have printed : s.executor.output.toList <+: t.executor.output.toList :=
    keeps_of_changes (P := fun e : Executor => s.executor.output.toList <+: e.output.toList)
      (fun change so => so.trans change.output_prefix) after.executor List.prefix_rfl
  refine ⟨?_, checked.valued, ?_, fun _ => executed.exists_valueOf_iff, ?_, reported.map _, printed⟩
  · intro stack member
    simp only [List.mem_cons, List.not_mem_nil, or_false] at member
    rcases member with rfl | rfl
    · exact checked.entries
    · exact executed.entries
  · intro scope within sym symbol
    exact Option.isSome_iff_exists.mp (executed.valued scope within sym symbol)
  · exact keeps_of_changes (P := Executor.Streamed) Exec.Change.streamed before.executor rfl

/-- Steps that end with faults: a check inside a block, so that its scope stays open, an
execution after it has printed a line, and one while no scope is open. -/
def Session.unruly : List Session.Step :=
  [.check ⟨[.varDecl ⟨"int", 1, 0⟩ ⟨"x", 1, 4⟩ ⟨"=", 1, 6⟩ (.ident ⟨"y", 1, 8⟩),
      .block ⟨"\x7b", 1, 11⟩ [.varDecl ⟨"boolean", 1, 13⟩ ⟨"x", 1, 21⟩ ⟨"=", 1, 23⟩
        (.boolLit ⟨"true", 1, 25⟩), .absent]]⟩,
    .exec ⟨[.varDecl ⟨"int", 1, 0⟩ ⟨"z", 1, 4⟩ ⟨"=", 1, 6⟩ (.intLit ⟨"7", 1, 8⟩),
      .print ⟨"print", 2, 0⟩ (.ident ⟨"z", 2, 6⟩), .print ⟨"print", 3, 0⟩ (.ident ⟨"w", 3, 6⟩)]⟩,
    .closeScope .exec,
    .exec ⟨[.varDecl ⟨"int", 4, 0⟩ ⟨"v", 4, 4⟩ ⟨"=", 4, 6⟩ (.intLit ⟨"8", 4, 8⟩)]⟩]

theorem session_invariant_unruly :
    let s := Session.initial.performAll Session.unruly
    s.checker.scopes.depth = 2 ∧ s.checker.diagnostics.length = 1 ∧
    s.executor.scopes.depth = 0 ∧ s.executor.output = #["7"] ∧
    s.checker.scopes.All (fun sym => sym.token.text = sym.name ∧
      (sym.type = .int ∨ sym.type = .boolean)) ∧
    s.checker.scopes.All (fun sym => sym.value = none) ∧
    s.executor.stream = String.join (s.executor.output.toList.map (· ++ "\n")) ∧
    s.checker.diagnostics <+:
      (Session.initial.performAll (Session.unruly ++ [.typeOf .absent])).checker.diagnostics := by
  intro s
  obtain ⟨sound, values, _, _, streamed, reported, _⟩ :=
    session_invariant Session.unruly [.typeOf .absent]
  exact ⟨rfl, rfl, rfl, rfl, (sound _ (.head _)).1, values, streamed, reported⟩

end BlockLang

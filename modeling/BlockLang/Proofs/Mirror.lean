import BlockLang.Proofs.Execution
import BlockLang.Proofs.Typing

/-!
# Execution mirrors checking

On a well-typed program the scopes of execution are, at every place and up to values, the
scopes of the typing rules there, and so those of checking. The two passes get there in
different ways. Checking declares a name before it looks at the first value and refuses a
name twice; execution finds the first value before it declares the name and replaces a
symbol of the same name. Checking goes through every block; execution skips the blocks of
conditionals that are not true.

The simulation is an induction on the typing derivation for whole lists, which covers the
skipped blocks, and an induction on the way to a place for the states in between.
-/

namespace BlockLang

/-- The scopes of execution are those of the typing rules, up to values. Every variable has
a value, and the names in each scope are distinct. -/
structure Mirrors (scopes Γ : ScopeStack) : Prop where
  same : scopes.withoutValues = Γ
  valued : scopes.All fun sym => sym.value.isSome
  distinct : scopes.Distinct

namespace Mirrors

variable {scopes scopes' Γ Γ' : ScopeStack} {name : String} {sym : Symbol} {value : Int}

theorem initial : Mirrors .initial .initial :=
  ⟨rfl, ScopeStack.all_initial, ScopeStack.distinct_initial⟩

theorem openScope (h : Mirrors scopes Γ) : Mirrors scopes.openScope Γ.openScope :=
  ⟨by rw [ScopeStack.withoutValues_openScope, h.same], h.valued.openScope, h.distinct.openScope⟩

theorem closeScope (h : Mirrors scopes Γ) : Mirrors scopes.closeScope Γ.closeScope :=
  ⟨by rw [ScopeStack.withoutValues_closeScope, h.same], h.valued.closeScope,
    h.distinct.closeScope⟩

theorem insert? {type : Ty} {token : Token} (h : Mirrors scopes Γ)
    (extended : Γ.insert? ⟨name, type, token, none⟩ = some Γ')
    (inserted : scopes.insert? ⟨name, type, token, some value⟩ = some scopes') :
    Mirrors scopes' Γ' := by
  have commutes := ScopeStack.insert?_withoutValues scopes ⟨name, type, token, some value⟩
  rw [inserted, h.same, Symbol.withoutValue_mk, extended] at commutes
  exact ⟨(Option.some.inj commutes).symm, h.valued.insert? inserted rfl,
    h.distinct.insert? inserted⟩

/-- Where the typing rules allow a declaration, a scope is open. -/
theorem exists_insert? {type : Ty} {token : Token} (h : Mirrors scopes Γ)
    (extended : Γ.insert? ⟨name, type, token, none⟩ = some Γ') (value : Int) :
    ∃ scopes', scopes.insert? ⟨name, type, token, some value⟩ = some scopes' := by
  have commutes := ScopeStack.insert?_withoutValues scopes ⟨name, type, token, some value⟩
  rw [h.same, Symbol.withoutValue_mk, extended] at commutes
  obtain ⟨scopes', inserted, _⟩ := Option.map_eq_some_iff.mp commutes.symm
  exact ⟨scopes', inserted⟩

theorem setValue? (h : Mirrors scopes Γ)
    (updated : scopes.setValue? name (some value) = some scopes') : Mirrors scopes' Γ := by
  refine ⟨(ScopeStack.withoutValues_setValue? updated).trans h.same, ?_,
    h.distinct.setValue? updated⟩
  apply h.valued.setValue? h.distinct updated
  intro sym _
  rfl

/-- A name that is visible to the typing rules is bound to a value. -/
theorem lookup? (h : Mirrors scopes Γ) (visible : Γ.lookup? name = some sym) :
    ∃ bound value, scopes.lookup? name = some bound ∧ bound.type = sym.type ∧
      bound.value = some value := by
  rw [← h.same, ScopeStack.lookup?_withoutValues, Option.map_eq_some_iff] at visible
  obtain ⟨bound, found, rfl⟩ := visible
  obtain ⟨value, hasValue⟩ := Option.isSome_iff_exists.mp (h.valued.lookup? found)
  exact ⟨bound, value, found, rfl, hasValue⟩

theorem fresh (h : Mirrors scopes Γ) (isFresh : Γ.Fresh name) : scopes.Fresh name := by
  rw [← h.same] at isFresh
  exact ScopeStack.fresh_withoutValues.mp isFresh

end Mirrors

theorem Exec.enter?_eq_some {stmt : Node} {e e' : Executor} (h : Exec.enter? stmt e = some e') :
    e' = { e with scopes := e.scopes.openScope } := by
  cases stmt with
  | block brace body => exact (Option.some.inj h).symm
  | conditional paren cond brace body => exact (Exec.enter?_conditional_eq_some_iff.mp h).2
  | _ => cases h

namespace WellTyped

variable {Γ Γ' Δ : ScopeStack} {stmt : Node} {stmts : List Node} {e e' : Executor}

/-- Braces that are entered and left again leave no trace in the scopes. -/
theorem mirrors_braces (inner : WellTyped Γ.openScope stmts Γ') (m : Mirrors e.scopes Γ)
    (within : ∀ {d d' : Executor}, Mirrors d.scopes Γ.openScope →
      Exec.statements stmts d = .ok () d' → Mirrors d'.scopes Γ')
    (body : stmt.body = stmts) {t : Executor} (entered : Exec.enter? stmt e = some t)
    (ran : Exec.statement stmt e = .ok () e') : Mirrors e'.scopes Γ := by
  obtain ⟨u, done, rfl⟩ := (Exec.walk.statement_eq_ok_iff entered).mp ran
  rw [← Exec.statements_eq_walk, body] at done
  cases Exec.enter?_eq_some entered
  have closed := (within m.openScope done).closeScope
  rwa [inner.closeScope_eq] at closed

/-- The scopes that execution leaves mirror those that the typing rules give. -/
theorem mirrors (h : WellTyped Γ stmts Δ) (m : Mirrors e.scopes Γ)
    (ran : Exec.statements stmts e = .ok () e') : Mirrors e'.scopes Δ := by
  induction h generalizing e e' with
  | nil =>
      cases ran
      exact m
  | varDecl known _ extended _ _ ih =>
      obtain ⟨_, u, first, others⟩ := Step.bind_eq_ok_iff.mp ran
      obtain ⟨value, type, scopes, _, known', inserted, rfl⟩ :=
        Exec.statement_varDecl_eq_ok_iff.mp first
      cases known.symm.trans known'
      exact ih (m.insert? extended inserted) others
  | assign _ _ _ ih =>
      obtain ⟨_, u, first, others⟩ := Step.bind_eq_ok_iff.mp ran
      obtain ⟨value, scopes, _, updated, rfl⟩ := Exec.statement_assign_eq_ok_iff.mp first
      exact ih (m.setValue? updated) others
  | conditional _ inner _ inner_ih ih =>
      obtain ⟨_, u, first, others⟩ := Step.bind_eq_ok_iff.mp ran
      refine ih ?_ others
      cases entry : Exec.enter? _ e with
      | some t => exact mirrors_braces inner m inner_ih rfl entry first
      | none =>
          cases Exec.statement_conditional_eq_ok first entry
          exact m
  | block inner _ inner_ih ih =>
      obtain ⟨_, u, first, others⟩ := Step.bind_eq_ok_iff.mp ran
      exact ih (mirrors_braces inner m inner_ih rfl rfl first) others
  | print _ _ ih =>
      obtain ⟨_, u, first, others⟩ := Step.bind_eq_ok_iff.mp ran
      obtain ⟨value, line, _, _, rfl⟩ := Exec.statement_print_eq_ok_iff.mp first
      have kept : Mirrors (e.printLine line).scopes _ := m
      exact ih kept others

/-- Checking enters the braces that execution enters, and reports nothing on the way. -/
theorem check_enter? {c : Checker} {rest : List Node} {t : Executor}
    (h : WellTyped c.scopes (stmt :: rest) Δ) (typed : c.scopes.All Symbol.Typed)
    (entered : Exec.enter? stmt e = some t) :
    Check.enter? stmt c = some { c with scopes := c.scopes.openScope } := by
  cases h with
  | block => rfl
  | @conditional _ _ _ paren _ cond _ _ isBoolean _ _ =>
      have opened : Check.openConditional paren cond c = .ok () _ :=
        ((Check.clean_openConditional_iff typed).mpr ⟨isBoolean, rfl⟩).ran
      simp only [Check.enter?, opened]
  | _ => cases entered

/-- Wherever execution comes to, checking has come to before, and their scopes mirror each
other there. What is left at the place is well typed. -/
theorem mirrors_at {c : Checker} {left : List Node} {place : Place}
    (reached : Exec.walk.Reaches stmts e place left e') (h : WellTyped c.scopes stmts Δ)
    (typed : c.scopes.All Symbol.Typed) (m : Mirrors e.scopes c.scopes) :
    ∃ c', Check.walk.Reaches stmts c place left c' ∧ c'.scopes.All Symbol.Typed ∧
      Mirrors e'.scopes c'.scopes ∧ ∃ Δ', WellTyped c'.scopes left Δ' := by
  induction reached generalizing c Δ with
  | here stmts e => exact ⟨c, .here stmts c, typed, m, Δ, h⟩
  | @after stmt rest left e _ _ _ _ ran _ ih =>
      obtain ⟨Γ', first, tail⟩ := WellTyped.cons_iff.mp h
      have checked :=
        ((Check.clean_statement_iff (Check.agrees stmt.body) typed).mpr ⟨Γ', first, rfl⟩).ran
      have alone : Exec.statements [stmt] e = .ok () _ :=
        Step.bind_eq_ok_iff.mpr ⟨(), _, ran, rfl⟩
      obtain ⟨c', reached, others⟩ :=
        ih (c := { c with scopes := Γ' }) tail (first.typed typed) (first.mirrors m alone)
      exact ⟨c', .after checked reached, others⟩
  | inside entered _ ih =>
      have entry := h.check_enter? typed entered
      obtain ⟨Γ', inner⟩ := h.body
      cases Exec.enter?_eq_some entered
      obtain ⟨c', reached, others⟩ :=
        ih (c := { c with scopes := c.scopes.openScope }) inner typed.openScope m.openScope
      exact ⟨c', .inside entry reached, others⟩

/-- Wherever execution of a well-typed program comes to, checking comes to as well, with
scopes that mirror each other, and what is left at the place is well typed. -/
theorem at_place {p : Program} {left : List Node} {place : Place}
    (h : WellTyped .initial p.stmts Δ)
    (reached : Exec.walk.Reaches p.stmts .initial place left e) :
    ∃ c, Check.walk.Reaches p.stmts .initial place left c ∧ Mirrors e.scopes c.scopes ∧
      ∃ Δ', WellTyped c.scopes left Δ' := by
  have start : Mirrors Executor.initial.scopes Checker.initial.scopes := .initial
  obtain ⟨c, came, _, m, allowed⟩ := h.mirrors_at reached ScopeStack.all_initial start
  exact ⟨c, came, m, allowed⟩

end WellTyped

/-- Execution of a program that is checked without reports mirrors checking. Wherever
execution comes to, checking has come to, exactly once, and the open scopes are the same
there up to values: as many scopes, and in each the same names with the same types and
tokens. So execution never replaces a symbol by a declaration, and if it succeeds, it
leaves the scopes that checking leaves. -/
theorem execution_mirrors_checking {p : Program} {c : Checker}
    (checked : Check.program p .initial = .ok () c) (clean : c.hasErrors = false) :
    (∀ place left e, Exec.walk.Reaches p.stmts .initial place left e →
      ∃ d, Check.walk.Reaches p.stmts .initial place left d ∧
        (∀ left' d', Check.walk.Reaches p.stmts .initial place left' d' →
          left' = left ∧ d' = d) ∧
        e.scopes.withoutValues = d.scopes) ∧
    (∀ place word name equals init left e,
      Exec.walk.Reaches p.stmts .initial place (.varDecl word name equals init :: left) e →
        e.scopes.Fresh name.text) ∧
    ∀ e, Exec.program p .initial = .ok () e → e.scopes.withoutValues = c.scopes := by
  have h : WellTyped Checker.initial.scopes p.stmts c.scopes :=
    (Check.program_clean_iff.mp ⟨checked, clean⟩).1
  refine ⟨?_, ?_, ?_⟩
  · intro place left e reached
    obtain ⟨d, came, m, _⟩ := h.at_place reached
    exact ⟨d, came, fun left' d' came' => came.unique came', m.same⟩
  · intro place word name equals init left e reached
    obtain ⟨d, _, m, _, allowed⟩ := h.at_place reached
    cases allowed with
    | varDecl _ fresh _ _ _ => exact m.fresh fresh
  · intro e ran
    have start : Mirrors Executor.initial.scopes Checker.initial.scopes := .initial
    exact (h.mirrors start ran).same

/-- A token at the start of the text. -/
def Token.atStart (text : String) : Token := ⟨text, .start⟩

/-- The program `int x = 2; if (false) { boolean y = true; } { boolean x = true; x = false; }`,
with all its tokens at the start. -/
def Program.shadowing : Program where
  stmts := [
    .varDecl (.atStart "int") (.atStart "x") (.atStart "=") (.intLit (.atStart "2")),
    .conditional (.atStart "(") (.boolLit (.atStart "false")) (.atStart "\x7b")
      [.varDecl (.atStart "boolean") (.atStart "y") (.atStart "=") (.boolLit (.atStart "true"))],
    .block (.atStart "\x7b")
      [.varDecl (.atStart "boolean") (.atStart "x") (.atStart "=") (.boolLit (.atStart "true")),
       .assign (.atStart "x") (.atStart "=") (.boolLit (.atStart "false"))]]

theorem execution_mirrors_checking_shadowing :
    ∃ c e, Check.program .shadowing .initial = .ok () c ∧ c.hasErrors = false ∧
      Exec.program .shadowing .initial = .ok () e ∧ e.scopes.withoutValues = c.scopes :=
  ⟨_, _, rfl, rfl, rfl, (execution_mirrors_checking (p := .shadowing) rfl rfl).2.2 _ rfl⟩

end BlockLang

import BlockLang.Proofs.Typing

/-!
# The type system

The rules by which programs are well typed, without any part of checking. An environment
lists the names and types that the open scopes declare, innermost scope first, and the rules
say of each sort of phrase what it needs from its environment. A node of any sort that has no
rule where it stands is not well typed.

The rules of `Typing` are about the scopes that checking keeps, with their symbols and
their look-ups. Those scopes have distinct names, and under this condition the two sets of
rules agree on the environment that a scope stack stands for. So checking decides the type
system: it ends without a fault and without a diagnostic on the well-typed programs, and on
no others.
-/

namespace BlockLang

/-- The names that the open scopes declare and their types, innermost scope first. -/
abbrev TypeEnv := List (List (String × Ty))

namespace TypeSystem

/-- The word denotes the type. -/
inductive Denotes : String → Ty → Prop
  | int : Denotes "int" .int
  | boolean : Denotes "boolean" .boolean

/-- No type goes with the name in the scope. -/
def Undeclared (name : String) (scope : List (String × Ty)) : Prop :=
  ∀ type, (name, type) ∉ scope

/-- The innermost scope that declares the name declares it with the type. -/
inductive Binds (name : String) (type : Ty) : TypeEnv → Prop
  | innermost {scope : List (String × Ty)} {outer : TypeEnv}
      (declared : (name, type) ∈ scope) : Binds name type (scope :: outer)
  | outer {scope : List (String × Ty)} {outer : TypeEnv} (absent : Undeclared name scope)
      (further : Binds name type outer) : Binds name type (scope :: outer)

/-- The expression has the type in the environment. -/
inductive Expression (Γ : TypeEnv) : Node → Ty → Prop
  | intLit (literal : Token) : Expression Γ (.intLit literal) .int
  | boolLit (literal : Token) : Expression Γ (.boolLit literal) .boolean
  | ident {name : Token} {type : Ty} (bound : Binds name.text type Γ) :
      Expression Γ (.ident name) type
  | binary {op : Token} {left right : Node} (leftInt : Expression Γ left .int)
      (rightInt : Expression Γ right .int) : Expression Γ (.binary op left right) .int

mutual

/-- The statement is well typed in the environment `Γ`, and `Δ` is the environment of what
follows it. -/
inductive Statement : TypeEnv → Node → TypeEnv → Prop
  /-- The name is new to the innermost scope, and visible in its own first value. -/
  | varDecl {scope : List (String × Ty)} {outer : TypeEnv} {word name equals : Token}
      {init : Node} {type : Ty} (known : Denotes word.text type)
      (new : Undeclared name.text scope)
      (value : Expression (((name.text, type) :: scope) :: outer) init type) :
      Statement (scope :: outer) (.varDecl word name equals init)
        (((name.text, type) :: scope) :: outer)
  | assign {Γ : TypeEnv} {name equals : Token} {node : Node} {type : Ty}
      (bound : Binds name.text type Γ) (value : Expression Γ node type) :
      Statement Γ (.assign name equals node) Γ
  | conditional {Γ Γ' : TypeEnv} {paren brace : Token} {cond : Node} {body : List Node}
      (isBoolean : Expression Γ cond .boolean) (inner : Statements ([] :: Γ) body Γ') :
      Statement Γ (.conditional paren cond brace body) Γ
  /-- A block has a new innermost scope, which is dropped at its end. -/
  | block {Γ Γ' : TypeEnv} {brace : Token} {body : List Node}
      (inner : Statements ([] :: Γ) body Γ') : Statement Γ (.block brace body) Γ
  | print {Γ : TypeEnv} {word : Token} {node : Node} {type : Ty}
      (value : Expression Γ node type) : Statement Γ (.print word node) Γ

/-- The statements are well typed one after the other, from the environment `Γ` to the
environment `Δ`. -/
inductive Statements : TypeEnv → List Node → TypeEnv → Prop
  | nil (Γ : TypeEnv) : Statements Γ [] Γ
  | cons {Γ Γ' Δ : TypeEnv} {stmt : Node} {rest : List Node} (first : Statement Γ stmt Γ')
      (tail : Statements Γ' rest Δ) : Statements Γ (stmt :: rest) Δ

end

theorem denotes_iff {word : String} {type : Ty} :
    Denotes word type ↔ Ty.ofWord? word = some type := by
  constructor
  · intro h
    cases h with
    | int => rfl
    | boolean => rfl
  · intro known
    obtain ⟨rfl, rfl⟩ | ⟨rfl, rfl⟩ := Ty.ofWord?_eq_some known
    · exact .int
    · exact .boolean

end TypeSystem

open TypeSystem

namespace Scope

variable {s : Scope} {name : String} {sym : Symbol} {type : Ty}

/-- The names of the scope and their types. -/
def bindings (s : Scope) : List (String × Ty) :=
  s.symbols.map fun sym => (sym.name, sym.type)

theorem mem_bindings_iff (distinct : s.Distinct) :
    (name, type) ∈ s.bindings ↔ ∃ sym, s.find? name = some sym ∧ sym.type = type := by
  simp only [bindings, List.mem_map, Prod.mk.injEq]
  constructor
  · rintro ⟨sym, member, rfl, declared⟩
    exact ⟨sym, distinct.find?_of_mem member, declared⟩
  · rintro ⟨sym, found, declared⟩
    have named : sym.name = name := by simpa using List.find?_some found
    exact ⟨sym, find?_mem found, named, declared⟩

theorem undeclared_bindings_iff : Undeclared name s.bindings ↔ s.find? name = none := by
  simp only [Undeclared, bindings, find?, List.mem_map, List.find?_eq_none, Prod.mk.injEq,
    beq_iff_eq]
  constructor
  · intro absent sym member named
    exact absent sym.type ⟨sym, member, named, rfl⟩
  · rintro absent type ⟨sym, member, named, _⟩
    exact absent sym member named

/-- A symbol with a new name replaces no other. -/
theorem bindings_insert (new : s.find? sym.name = none) :
    (s.insert sym).bindings = (sym.name, sym.type) :: s.bindings := by
  have kept : s.symbols.filter (·.name != sym.name) = s.symbols := by
    apply List.filter_eq_self.mpr
    intro a member
    simpa using List.find?_eq_none.mp new a member
  simp [bindings, insert, kept]

end Scope

namespace ScopeStack

variable {s : ScopeStack} {name : String} {type : Ty}

/-- The environment of the open scopes. -/
def env (s : ScopeStack) : TypeEnv :=
  s.scopes.map Scope.bindings

theorem binds_env_iff (distinct : s.Distinct) :
    Binds name type s.env ↔ ∃ sym, s.lookup? name = some sym ∧ sym.type = type := by
  obtain ⟨scopes⟩ := s
  change Binds name type (scopes.map Scope.bindings) ↔ ∃ sym, findIn? name scopes = some sym ∧ _
  induction scopes with
  | nil =>
      constructor
      · intro h
        cases h
      · rintro ⟨sym, found, _⟩
        cases found
  | cons first rest ih =>
      have here : first.Distinct := distinct first (.head _)
      have further := ih fun scope member => distinct scope (.tail _ member)
      simp only [findIn?, List.findSome?_cons, List.map_cons] at further ⊢
      cases found : first.find? name with
      | some sym =>
          have declared : (name, type) ∈ first.bindings ↔ sym.type = type := by
            simp [Scope.mem_bindings_iff here, found]
          simp only [Option.some.injEq, exists_eq_left']
          rw [← declared]
          constructor
          · intro h
            cases h with
            | innermost declared => exact declared
            | outer absent _ =>
                rw [Scope.undeclared_bindings_iff, found] at absent
                cases absent
          · exact .innermost
      | none =>
          have absent := Scope.undeclared_bindings_iff.mpr found
          rw [← further]
          constructor
          · intro h
            cases h with
            | innermost declared => exact absurd declared (absent type)
            | outer _ further => exact further
          · exact .outer absent

/-- A symbol with a fresh name is added to the innermost scope of the environment. -/
theorem insert?_env_iff (sym : Symbol) {Γ : TypeEnv} :
    (∃ t, s.Fresh sym.name ∧ s.insert? sym = some t ∧ t.env = Γ) ↔
      ∃ scope outer, s.env = scope :: outer ∧ Undeclared sym.name scope ∧
        Γ = ((sym.name, sym.type) :: scope) :: outer := by
  obtain ⟨scopes⟩ := s
  cases scopes with
  | nil => simp [insert?, env]
  | cons innermost others =>
      constructor
      · rintro ⟨t, fresh, inserted, rfl⟩
        have new : innermost.find? sym.name = none := fresh innermost rfl
        cases inserted
        refine ⟨_, _, rfl, Scope.undeclared_bindings_iff.mpr new, ?_⟩
        simp [env, Scope.bindings_insert new]
      · rintro ⟨scope, outer, same, new, rfl⟩
        cases same
        rw [Scope.undeclared_bindings_iff] at new
        refine ⟨_, ?_, rfl, by simp [env, Scope.bindings_insert new]⟩
        intro scope head
        cases head
        exact new

end ScopeStack

/-- Well-typed statements leave scopes with distinct names. -/
theorem WellTyped.distinct {Γ Δ : ScopeStack} {stmts : List Node} (h : WellTyped Γ stmts Δ)
    (distinct : Γ.Distinct) : Δ.Distinct := by
  induction h with
  | nil => exact distinct
  | varDecl _ _ extended _ _ ih => exact ih (distinct.insert? extended)
  | assign _ _ _ ih => exact ih distinct
  | conditional _ _ _ _ ih => exact ih distinct
  | block _ _ _ ih => exact ih distinct
  | print _ _ ih => exact ih distinct

namespace TypeSystem

variable {Γ : ScopeStack} {E : TypeEnv}

theorem expression_env_iff {node : Node} {type : Ty} (distinct : Γ.Distinct) :
    Expression Γ.env node type ↔ HasType Γ node type := by
  constructor
  · intro h
    induction h with
    | intLit literal => exact .intLit literal
    | boolLit literal => exact .boolLit literal
    | ident bound =>
        obtain ⟨sym, found, declared⟩ := (ScopeStack.binds_env_iff distinct).mp bound
        exact .ident found declared
    | binary _ _ left_ih right_ih => exact .binary left_ih right_ih
  · intro h
    induction h with
    | intLit literal => exact .intLit literal
    | boolLit literal => exact .boolLit literal
    | ident found declared =>
        exact .ident ((ScopeStack.binds_env_iff distinct).mpr ⟨_, found, declared⟩)
    | binary _ _ left_ih right_ih => exact .binary left_ih right_ih

/-- On these statements the rules for environments agree with those for scopes. -/
def Agrees (stmts : List Node) : Prop :=
  ∀ {Γ : ScopeStack} {E : TypeEnv}, Γ.Distinct →
    (Statements Γ.env stmts E ↔ ∃ Δ, WellTyped Γ stmts Δ ∧ Δ.env = E)

theorem Agrees.braces {body : List Node} (h : Agrees body) (distinct : Γ.Distinct) :
    (∃ E, Statements ([] :: Γ.env) body E) ↔ ∃ Δ, WellTyped Γ.openScope body Δ := by
  constructor
  · rintro ⟨E, inner⟩
    obtain ⟨Δ, allowed, _⟩ := (h distinct.openScope).mp inner
    exact ⟨Δ, allowed⟩
  · rintro ⟨Δ, allowed⟩
    exact ⟨Δ.env, (h distinct.openScope).mpr ⟨Δ, allowed, rfl⟩⟩

/-- The step of the agreement, with one case for each sort of statement. -/
theorem statement_env_iff {stmt : Node} (inner : Agrees stmt.body) (distinct : Γ.Distinct) :
    Statement Γ.env stmt E ↔ ∃ Δ, WellTyped Γ [stmt] Δ ∧ Δ.env = E := by
  constructor
  · intro h
    generalize same : Γ.env = E₀ at h
    cases h with
    | @varDecl _ _ _ name _ _ type known new value =>
        obtain ⟨Δ, fresh, extended, rest⟩ :=
          (ScopeStack.insert?_env_iff ⟨name.text, type, name, none⟩).mpr ⟨_, _, same, new, rfl⟩
        rw [← rest, expression_env_iff (distinct.insert? extended)] at value
        exact ⟨Δ, .varDecl (denotes_iff.mp known) fresh extended value (.nil Δ), rest⟩
    | assign bound value =>
        subst same
        obtain ⟨sym, found, rfl⟩ := (ScopeStack.binds_env_iff distinct).mp bound
        exact ⟨Γ, .assign found ((expression_env_iff distinct).mp value) (.nil Γ), rfl⟩
    | conditional isBoolean body =>
        subst same
        obtain ⟨Δ, allowed⟩ := (inner.braces distinct).mp ⟨_, body⟩
        exact ⟨Γ, .conditional ((expression_env_iff distinct).mp isBoolean) allowed (.nil Γ), rfl⟩
    | block body =>
        subst same
        obtain ⟨Δ, allowed⟩ := (inner.braces distinct).mp ⟨_, body⟩
        exact ⟨Γ, .block allowed (.nil Γ), rfl⟩
    | print value =>
        subst same
        exact ⟨Γ, .print ((expression_env_iff distinct).mp value) (.nil Γ), rfl⟩
  · rintro ⟨Δ, h, rfl⟩
    cases h with
    | varDecl known fresh extended value last =>
        cases last
        obtain ⟨scope, outer, same, new, rest⟩ :=
          (ScopeStack.insert?_env_iff _).mp ⟨Δ, fresh, extended, rfl⟩
        rw [← expression_env_iff (distinct.insert? extended), rest] at value
        rw [same, rest]
        exact .varDecl (denotes_iff.mpr known) new value
    | assign found value last =>
        cases last
        exact .assign ((ScopeStack.binds_env_iff distinct).mpr ⟨_, found, rfl⟩)
          ((expression_env_iff distinct).mpr value)
    | conditional isBoolean allowed last =>
        cases last
        obtain ⟨_, body⟩ := (inner.braces distinct).mpr ⟨_, allowed⟩
        exact .conditional ((expression_env_iff distinct).mpr isBoolean) body
    | block allowed last =>
        cases last
        obtain ⟨_, body⟩ := (inner.braces distinct).mpr ⟨_, allowed⟩
        exact .block body
    | print value last =>
        cases last
        exact .print ((expression_env_iff distinct).mpr value)

theorem agrees (stmts : List Node) : Agrees stmts := by
  induction stmts using Node.list_induction with
  | nil =>
      intro Γ E _
      constructor
      · intro h
        cases h
        exact ⟨Γ, .nil Γ, rfl⟩
      · rintro ⟨Δ, h, rfl⟩
        cases h
        exact .nil Γ.env
  | cons stmt rest body_ih rest_ih =>
      intro Γ E distinct
      constructor
      · intro h
        cases h with
        | cons first tail =>
            obtain ⟨Γ', allowed, rfl⟩ := (statement_env_iff body_ih distinct).mp first
            obtain ⟨Δ, remaining, rfl⟩ := (rest_ih (allowed.distinct distinct)).mp tail
            exact ⟨Δ, WellTyped.cons_iff.mpr ⟨Γ', allowed, remaining⟩, rfl⟩
      · rintro ⟨Δ, h, rfl⟩
        obtain ⟨Γ', allowed, remaining⟩ := WellTyped.cons_iff.mp h
        have first := (statement_env_iff body_ih distinct).mpr ⟨Γ', allowed, rfl⟩
        exact .cons first ((rest_ih (allowed.distinct distinct)).mpr ⟨Δ, remaining, rfl⟩)

/-- The rules derive the program in the environment with one empty scope. -/
def Admits (p : Program) : Prop :=
  ∃ Γ, Statements [[]] p.stmts Γ

theorem admits_iff_wellTyped {p : Program} : Admits p ↔ ∃ Δ, WellTyped .initial p.stmts Δ := by
  constructor
  · rintro ⟨E, h⟩
    obtain ⟨Δ, allowed, _⟩ := (agrees p.stmts ScopeStack.distinct_initial).mp h
    exact ⟨Δ, allowed⟩
  · rintro ⟨Δ, allowed⟩
    exact ⟨Δ.env, (agrees p.stmts ScopeStack.distinct_initial).mpr ⟨Δ, allowed, rfl⟩⟩

theorem admits_iff_clean {p : Program} :
    Admits p ↔ ∃ c, Check.program p .initial = .ok () c ∧ c.hasErrors = false := by
  rw [admits_iff_wellTyped]
  constructor
  · rintro ⟨Δ, allowed⟩
    exact ⟨⟨Δ, #[]⟩, Check.program_clean_iff.mpr ⟨allowed, rfl⟩⟩
  · rintro ⟨c, clean⟩
    exact ⟨c.scopes, (Check.program_clean_iff.mp clean).1⟩

instance (p : Program) : Decidable (Admits p) :=
  match ran : Check.program p .initial with
  | .error f c => isFalse (by
    rw [admits_iff_clean]
    rintro ⟨d, ended, _⟩
    rw [ran] at ended
    cases ended)
  | .ok _ c =>
    if quiet : c.hasErrors = false then isTrue (admits_iff_clean.mpr ⟨c, ran, quiet⟩)
    else isFalse (by
      rw [admits_iff_clean]
      rintro ⟨d, ended, quiet'⟩
      rw [ran] at ended
      cases ended
      exact quiet quiet')

end TypeSystem

/-- Checking decides the type system: a program tree of any shape is checked to its end
without a diagnostic if and only if the rules derive it. -/
theorem checking_decides_type_system (p : Program) :
    (∃ c, Check.program p .initial = .ok () c ∧ c.diagnostics = []) ↔
      ∃ Γ, TypeSystem.Statements [[]] p.stmts Γ := by
  have silent : ∀ c : Checker, c.diagnostics = [] ↔ c.hasErrors = false := by
    intro c
    simp [Checker.diagnostics, Checker.hasErrors]
  simp only [silent]
  exact TypeSystem.admits_iff_clean.symm

/-- A variable is visible in its own first value, but not before its declaration. -/
example :
    let t (text : String) : Token := ⟨text, .start⟩
    let decl : Node := .varDecl (t "boolean") (t "x") (t "=") (.ident (t "x"))
    let use : Node := .print (t "print") (.ident (t "x"))
    TypeSystem.Admits ⟨[decl, use]⟩ ∧ ¬ TypeSystem.Admits ⟨[use, decl]⟩ := by
  decide

end BlockLang

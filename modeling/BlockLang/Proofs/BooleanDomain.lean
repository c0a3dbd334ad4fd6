import BlockLang.Program.Parse
import BlockLang.Proofs.Progress
import Mathlib

/-!
# The domain of truth values

Truth values and integers share one domain at run time, so that nothing but typing keeps
other integers out of the boolean variables. Boolean values are copied and never computed,
so where boolean variables hold values of some domain, what is typed as boolean evaluates
to a truth value or to a value of that domain, and each statement keeps the variables in
it. There is one exception: in `boolean x = x` the first value is typed by the new variable
and found in an outer one, which may be an integer variable. `Leak` is the moment in which
such a declaration finds something else than a truth value.

The boolean variables of a checked program therefore hold truth values and leaked values
at all times, and a state in which they do not all hold truth values is one in which a
leaked value is left. Programs without a declaration that reads its own name have no leaks,
and for them nothing is ever unbound either.
-/

namespace BlockLang

/-- The integer stands for a truth value. -/
def IsTruth (value : Int) : Prop :=
  value = falseValue ∨ value = trueValue

instance : DecidablePred IsTruth :=
  fun value => inferInstanceAs (Decidable (value = falseValue ∨ value = trueValue))

/-- If the variable is a boolean one, it holds a value of the domain. -/
def Symbol.BooleanIn (D : Int → Prop) (s : Symbol) : Prop :=
  s.type = .boolean → ∃ value, s.value = some value ∧ D value

namespace ScopeStack

/-- Every boolean variable in the open scopes holds a value of the domain. -/
def BooleansIn (D : Int → Prop) (s : ScopeStack) : Prop :=
  s.All (Symbol.BooleanIn D)

/-- Every boolean variable in the open scopes holds a truth value. -/
abbrev BooleanDomain (s : ScopeStack) : Prop :=
  s.BooleansIn IsTruth

/-- Some boolean variable in the open scopes holds the value. -/
def BooleanHolds (s : ScopeStack) (value : Int) : Prop :=
  ∃ scope ∈ s.scopes, ∃ sym ∈ scope.symbols, sym.type = .boolean ∧ sym.value = some value

end ScopeStack

instance (D : Int → Prop) [DecidablePred D] (s : Symbol) : Decidable (s.BooleanIn D) :=
  decidable_of_iff (s.type = .boolean → s.value.any (fun value => decide (D value)) = true) (by
    simp only [Symbol.BooleanIn, Option.any_eq_true, decide_eq_true_eq])

instance (D : Int → Prop) [DecidablePred D] (s : ScopeStack) : Decidable (s.BooleansIn D) :=
  inferInstanceAs (Decidable (∀ scope ∈ s.scopes, ∀ sym ∈ scope.symbols, sym.BooleanIn D))

/-- The statement declares a boolean variable from an outer variable of the same name, which
holds the value, and the value is no truth value. -/
inductive Leak (scopes : ScopeStack) : Node → Int → Prop
  | varDecl {word name equals use : Token} {value : Int} (isBoolean : word.text = "boolean")
      (own : use.text = name.text) (outer : scopes.valueOf name.text = .ok value)
      (other : ¬ IsTruth value) : Leak scopes (.varDecl word name equals (.ident use)) value

/-- Execution from the given state comes to a leak of the value. -/
def Exec.Leaks (stmts : List Node) (e : Executor) (value : Int) : Prop :=
  ∃ place stmt left t, Exec.walk.Reaches stmts e place (stmt :: left) t ∧
    Leak t.scopes stmt value

theorem isTruth_boolLit (literal : Token) :
    IsTruth (if literal.text = "true" then trueValue else falseValue) := by
  split
  · exact .inr rfl
  · exact .inl rfl

namespace ScopeStack

variable {s : ScopeStack} {D D' : Int → Prop}

theorem BooleansIn.mono (h : s.BooleansIn D) (weaker : ∀ value, D value → D' value) :
    s.BooleansIn D' := by
  intro scope isOpen sym member isBoolean
  obtain ⟨value, held, holds⟩ := h scope isOpen sym member isBoolean
  exact ⟨value, held, weaker value holds⟩

/-- Boolean variables that hold truth values and values of another sort do not all hold
truth values if and only if one of them holds a value of the other sort. -/
theorem BooleansIn.not_booleanDomain_iff (h : s.BooleansIn fun value => IsTruth value ∨ D value)
    (other : ∀ value, D value → ¬ IsTruth value) :
    ¬ s.BooleanDomain ↔ ∃ value, D value ∧ s.BooleanHolds value := by
  constructor
  · intro broken
    apply Classical.byContradiction
    intro none
    apply broken
    intro scope isOpen sym member isBoolean
    obtain ⟨value, held, isTruth | foreign⟩ := h scope isOpen sym member isBoolean
    · exact ⟨value, held, isTruth⟩
    · exact absurd ⟨value, foreign, scope, isOpen, sym, member, isBoolean, held⟩ none
  · rintro ⟨value, foreign, scope, isOpen, sym, member, isBoolean, held⟩ domain
    obtain ⟨value', held', isTruth⟩ := domain scope isOpen sym member isBoolean
    rw [held] at held'
    cases held'
    exact other value foreign isTruth

end ScopeStack

section Values

variable {scopes Γ Γ' : ScopeStack} {node : Node} {D : Int → Prop}

/-- An expression of boolean type is a literal or a variable. -/
theorem HasType.boolean_cases (h : HasType Γ node .boolean) :
    (∃ literal, node = .boolLit literal) ∨
      ∃ name sym, node = .ident name ∧ Γ.lookup? name.text = some sym ∧ sym.type = .boolean := by
  generalize expected : Ty.boolean = type at h
  cases h with
  | intLit => exact absurd expected (by decide)
  | boolLit literal => exact .inl ⟨literal, rfl⟩
  | ident bound declared => exact .inr ⟨_, _, rfl, bound, declared⟩
  | binary => exact absurd expected (by decide)

/-- A boolean variable that the typing rules see holds a value of the domain. -/
theorem Mirrors.valueOf_boolean {name : String} {sym : Symbol} (m : Mirrors scopes Γ)
    (domain : scopes.BooleansIn D) (visible : Γ.lookup? name = some sym)
    (isBoolean : sym.type = .boolean) :
    ∃ value, scopes.valueOf name = .ok value ∧ D value := by
  obtain ⟨bound, _, found, sameType, _⟩ := m.lookup? visible
  have declared : bound.type = .boolean := sameType.trans isBoolean
  obtain ⟨value, hasValue, holds⟩ := domain.lookup? found declared
  exact ⟨value, ScopeStack.valueOf_eq_ok_iff.mpr ⟨bound, found, hasValue⟩, holds⟩

/-- What is typed as boolean evaluates to a value of any domain with the truth values that
the boolean variables are in. -/
theorem HasType.evaluate_boolean (h : HasType Γ node .boolean) (m : Mirrors scopes Γ)
    (truth : ∀ value, IsTruth value → D value) (domain : scopes.BooleansIn D) :
    ∃ value, evaluate scopes node = .ok value ∧ D value := by
  rcases h.boolean_cases with ⟨literal, rfl⟩ | ⟨name, sym, rfl, visible, isBoolean⟩
  · exact ⟨_, rfl, truth _ (isTruth_boolLit literal)⟩
  · exact m.valueOf_boolean domain visible isBoolean

/-- The first value of a boolean variable is in the domain, if leaks are. Typing is of no
help if the first value is the variable itself, since the variable that is read is another
one then. -/
theorem HasType.boolean_init {word name equals : Token} {value : Int}
    (h : HasType Γ' node .boolean)
    (extended : Γ.insert? ⟨name.text, .boolean, name, none⟩ = some Γ') (m : Mirrors scopes Γ)
    (truth : ∀ value, IsTruth value → D value) (domain : scopes.BooleansIn D)
    (isBoolean : word.text = "boolean")
    (leaks : ∀ value, Leak scopes (.varDecl word name equals node) value → D value)
    (evaluated : evaluate scopes node = .ok value) : D value := by
  rcases h.boolean_cases with ⟨literal, rfl⟩ | ⟨use, sym, rfl, visible, declared⟩
  · cases evaluated
    exact truth _ (isTruth_boolLit literal)
  · change scopes.valueOf use.text = .ok value at evaluated
    by_cases own : use.text = name.text
    · by_cases isTruth : IsTruth value
      · exact truth value isTruth
      · rw [own] at evaluated
        exact leaks value (.varDecl isBoolean own evaluated isTruth)
    · rw [ScopeStack.lookup?_insert? extended, if_neg own] at visible
      obtain ⟨_, held, holds⟩ := m.valueOf_boolean domain visible declared
      rw [evaluated] at held
      cases held
      exact holds

end Values

/-- A well-typed statement keeps the boolean variables in a domain with the truth values, if
the value that it leaks is in the domain as well. Statements with entered braces are left to
the walk. -/
theorem WellTyped.keeps_booleansIn {Γ Δ : ScopeStack} {stmt : Node} {rest : List Node}
    {e e' : Executor} {D : Int → Prop} (h : WellTyped Γ (stmt :: rest) Δ)
    (m : Mirrors e.scopes Γ) (truth : ∀ value, IsTruth value → D value)
    (domain : e.scopes.BooleansIn D) (leaks : ∀ value, Leak e.scopes stmt value → D value)
    (own : Exec.enter? stmt e = none) (ran : Exec.statement stmt e = .ok () e') :
    e'.scopes.BooleansIn D := by
  cases h with
  | varDecl known _ extended value _ =>
      obtain ⟨found, type, scopes, evaluated, known', inserted, rfl⟩ :=
        Exec.statement_varDecl_eq_ok_iff.mp ran
      obtain rfl := Option.some.inj (known'.symm.trans known)
      apply domain.insert? inserted
      intro isBoolean
      change type = .boolean at isBoolean
      subst isBoolean
      rcases Ty.ofWord?_eq_some known with ⟨isInt, _⟩ | ⟨_, word⟩
      · exact absurd isInt (by decide)
      · exact ⟨found, rfl, value.boolean_init extended m truth domain word leaks evaluated⟩
  | @assign _ _ name _ _ declared _ bound value _ =>
      obtain ⟨found, scopes, evaluated, updated, rfl⟩ := Exec.statement_assign_eq_ok_iff.mp ran
      apply domain.setValue? m.distinct updated
      intro sym target isBoolean
      have sameType : declared.type = .boolean := by
        rw [← m.same, ScopeStack.lookup?_withoutValues, target] at bound
        rw [← Option.some.inj bound]
        exact isBoolean
      rw [sameType] at value
      obtain ⟨_, held, holds⟩ := value.evaluate_boolean m truth domain
      rw [evaluated] at held
      cases held
      exact ⟨found, rfl, holds⟩
  | conditional =>
      cases Exec.statement_conditional_eq_ok ran own
      exact domain
  | block => cases own
  | print =>
      obtain ⟨_, _, _, _, rfl⟩ := Exec.statement_print_eq_ok_iff.mp ran
      exact domain

namespace WellTyped

variable {p : Program} {Δ : ScopeStack} {place : Place} {left : List Node} {e : Executor}

/-- At every place the boolean variables hold truth values and leaked values. -/
theorem booleans_at (h : WellTyped .initial p.stmts Δ)
    (reached : Exec.walk.Reaches p.stmts .initial place left e) :
    e.scopes.BooleansIn fun value => IsTruth value ∨ Exec.Leaks p.stmts .initial value := by
  refine Walk.keeps (P := fun t : Executor => t.scopes.BooleansIn _) ?_ ?_ ?_ ?_ reached
  · intro stmt t u domain entered
    cases Exec.enter?_eq_some entered
    exact domain.openScope
  · intro t domain
    exact domain.closeScope
  · exact ScopeStack.all_initial
  · intro place stmt left t u reached domain own ran
    obtain ⟨d, _, m, _, allowed⟩ := h.at_place reached
    refine allowed.keeps_booleansIn m (fun _ => .inl) domain ?_ own ran
    intro value leak
    exact .inr ⟨place, stmt, left, t, reached, leak⟩

/-- Without leaks the boolean variables hold truth values at every place. -/
theorem booleanDomain (h : WellTyped .initial p.stmts Δ)
    (leakFree : ∀ value, ¬ Exec.Leaks p.stmts .initial value)
    (reached : Exec.walk.Reaches p.stmts .initial place left e) : e.scopes.BooleanDomain := by
  apply (h.booleans_at reached).mono
  rintro value (isTruth | leaks)
  · exact isTruth
  · exact absurd leaks (leakFree value)

/-- A place at which some boolean variable holds no truth value is one at which a boolean
variable holds a leaked value. -/
theorem not_booleanDomain_iff (h : WellTyped .initial p.stmts Δ)
    (reached : Exec.walk.Reaches p.stmts .initial place left e) :
    ¬ e.scopes.BooleanDomain ↔
      ∃ value, Exec.Leaks p.stmts .initial value ∧ e.scopes.BooleanHolds value := by
  apply (h.booleans_at reached).not_booleanDomain_iff
  rintro value ⟨_, _, _, _, _, leak⟩
  cases leak with
  | varDecl _ _ _ other => exact other

/-- A leak is executed, and in the state after it the declared variable holds the leaked
value. -/
theorem exists_of_leaks {value : Int} (h : WellTyped .initial p.stmts Δ)
    (leaks : Exec.Leaks p.stmts .initial value) :
    ∃ place left e, Exec.walk.Reaches p.stmts .initial place left e ∧
      ¬ e.scopes.BooleanDomain := by
  obtain ⟨place, stmt, left, e, reached, leak⟩ := leaks
  obtain ⟨d, _, m, _, allowed⟩ := h.at_place reached
  cases leak with
  | @varDecl word name equals use _ isBoolean own outer other =>
      cases allowed with
      | varDecl known _ extended _ _ =>
          obtain ⟨rfl, isInt⟩ | ⟨rfl, _⟩ := Ty.ofWord?_eq_some known
          · rw [isBoolean] at isInt
            exact absurd isInt (by decide)
          · obtain ⟨scopes, inserted⟩ := m.exists_insert? extended value
            have evaluated : evaluate e.scopes (.ident use) = .ok value := by
              change e.scopes.valueOf use.text = .ok value
              rw [own, outer]
            have ran : Exec.statement (.varDecl word name equals (.ident use)) e = .ok () _ :=
              Exec.statement_varDecl_eq_ok_iff.mpr
                ⟨value, .boolean, scopes, evaluated, known, inserted, rfl⟩
            obtain ⟨place', after⟩ := reached.next ran
            refine ⟨place', left, _, after, ?_⟩
            intro domain
            have visible := ScopeStack.lookup?_insert? inserted name.text
            rw [if_pos rfl] at visible
            obtain ⟨held, hasValue, isTruth⟩ := domain.lookup? visible rfl
            cases hasValue
            exact other isTruth

/-- The boolean variables of a well-typed program hold truth values at all places if and
only if nothing is leaked. -/
theorem booleanDomain_iff (h : WellTyped .initial p.stmts Δ) :
    (∀ place left e, Exec.walk.Reaches p.stmts .initial place left e →
      e.scopes.BooleanDomain) ↔ ∀ value, ¬ Exec.Leaks p.stmts .initial value := by
  constructor
  · intro domain value leaks
    obtain ⟨place, left, e, reached, broken⟩ := h.exists_of_leaks leaks
    exact broken (domain place left e reached)
  · intro leakFree place left e reached
    exact h.booleanDomain leakFree reached

end WellTyped

/-- No declaration in the program reads its own name in its first value. -/
def Program.NoOwnReads (p : Program) : Prop :=
  ∀ word name equals init use, Node.Within (.varDecl word name equals init) p.stmts →
    .ident use ∈ init.leaves → use.text ≠ name.text

theorem Program.NoOwnReads.not_leaks {p : Program} (h : p.NoOwnReads) (e : Executor)
    (value : Int) : ¬ Exec.Leaks p.stmts e value := by
  rintro ⟨place, stmt, left, t, reached, leak⟩
  cases leak with
  | @varDecl word name equals use _ _ own _ _ =>
      exact h word name equals _ use reached.within (List.mem_singleton.mpr rfl) own

/-- What checking types as boolean in a statement that does not read its own name evaluates
to a truth value when execution comes to the statement. -/
theorem Check.GivesAt.evaluate_boolean {scopes Δ : ScopeStack} {d : Checker} {stmt part : Node}
    {rest : List Node} (h : Check.GivesAt d stmt part .boolean)
    (allowed : WellTyped d.scopes (stmt :: rest) Δ) (m : Mirrors scopes d.scopes)
    (domain : scopes.BooleanDomain)
    (noOwn : ∀ word name equals init use, stmt = .varDecl word name equals init →
      .ident use ∈ init.leaves → use.text ≠ name.text) :
    ∃ value, evaluate scopes part = .ok value ∧ IsTruth value := by
  cases h with
  | @varDecl d₁ d₂ word name equals init _ declared _ named entered within =>
      cases allowed with
      | @varDecl _ Γ' _ _ _ _ _ type _ known fresh extended value _ =>
          have isNamed : Check.declaredType word d = .ok type d :=
            (Check.clean_declaredType_iff.mpr ⟨known, rfl⟩).ran
          rw [isNamed] at named
          cases named
          have isDeclared : Check.declare name declared d = .ok () { d with scopes := Γ' } :=
            (Check.clean_declare_iff.mpr ⟨fresh, Γ', extended, rfl⟩).ran
          rw [isDeclared] at entered
          cases entered
          obtain ⟨hasType, leaves⟩ := within.hasType value
          have unused : HasType d.scopes part .boolean := hasType.of_insert? extended
            fun use member => noOwn word name equals init use rfl (leaves _ member)
          exact unused.evaluate_boolean m (fun _ => id) domain
  | assign resolved within =>
      cases allowed with
      | assign bound value _ =>
          have isResolved : Check.resolve _ d = .ok (some _) d :=
            (Check.clean_resolve_iff.mpr ⟨_, bound, rfl, rfl⟩).ran
          rw [isResolved] at resolved
          cases resolved
          exact (within.hasType value).1.evaluate_boolean m (fun _ => id) domain
  | conditional within =>
      cases allowed with
      | conditional isBoolean _ _ =>
          exact (within.hasType isBoolean).1.evaluate_boolean m (fun _ => id) domain
  | print within =>
      cases allowed with
      | print value _ => exact (within.hasType value).1.evaluate_boolean m (fun _ => id) domain

/-- Soundness of types: let a program be checked without reports, and let none of its
declarations read its own name. In every state of its execution the boolean variables hold
truth values, and so do those of the last state, whether execution succeeds or fails. Each
condition that execution comes to evaluates to a truth value, and so does each part of a
statement that checking types as boolean. Execution only fails with the faults of numerals,
so that no variable is ever unbound. -/
theorem boolean_type_soundness {p : Program} {c : Checker}
    (checked : Check.program p .initial = .ok () c) (clean : c.hasErrors = false)
    (noOwn : p.NoOwnReads) :
    (∀ place left e, Exec.walk.Reaches p.stmts .initial place left e →
      e.scopes.BooleanDomain ∧
      (∀ paren cond brace body rest, left = .conditional paren cond brace body :: rest →
        ∃ value, evaluate e.scopes cond = .ok value ∧ IsTruth value) ∧
      ∀ stmt rest d part, left = stmt :: rest →
        Check.walk.Reaches p.stmts .initial place left d → Check.GivesAt d stmt part .boolean →
        ∃ value, evaluate e.scopes part = .ok value ∧ IsTruth value) ∧
    (∀ e, Exec.program p .initial = .ok () e → e.scopes.BooleanDomain) ∧
    ∀ f e, Exec.program p .initial = .error f e →
      e.scopes.BooleanDomain ∧
      ((∃ text, f = .badNumeral text) ∨ (∃ digits, f = .longNumeral digits) ∨ f = .longValue) := by
  have h : WellTyped .initial p.stmts c.scopes :=
    (Check.program_clean_iff.mp ⟨checked, clean⟩).1
  have atPlace : ∀ place left e, Exec.walk.Reaches p.stmts .initial place left e →
      e.scopes.BooleanDomain :=
    h.booleanDomain_iff.mpr (noOwn.not_leaks .initial)
  refine ⟨?_, ?_, ?_⟩
  · intro place left e reached
    have domain := atPlace place left e reached
    obtain ⟨d, came, m, Δ, allowed⟩ := h.at_place reached
    refine ⟨domain, ?_, ?_⟩
    · rintro paren cond brace body rest rfl
      cases allowed with
      | conditional isBoolean _ _ => exact isBoolean.evaluate_boolean m (fun _ => id) domain
    · rintro stmt rest d' part rfl came' given
      obtain ⟨_, rfl⟩ := came.unique came'
      apply given.evaluate_boolean allowed m domain
      rintro word name equals init use rfl
      exact noOwn word name equals init use reached.within
  · intro e ran
    exact atPlace _ [] e (Exec.reaches_end ran)
  · intro f e ran
    obtain ⟨place, stmt, left, reached, _, residual⟩ := h.exists_residual ran
    refine ⟨atPlace place _ e reached, ?_⟩
    rcases residual.kind with isBad | isLong | isLongValue | ⟨unbound, rfl⟩
    · exact .inl isBad
    · exact .inr (.inl isLong)
    · exact .inr (.inr isLongValue)
    · obtain ⟨_, _, _, _, _, rfl, member, own, _⟩ := residual.ownName_of_unbound
      exact absurd own (noOwn _ _ _ _ _ reached.within member)

/-- The source text of a program that reads and writes boolean variables. -/
def flagsSource : String :=
  "boolean b = true; if (b) \x7b boolean c = b; b = false; \x7d print(b);"

/-- The program of `flagsSource`. -/
def Program.flags : Program where
  stmts := [
    .varDecl ⟨"boolean", 1, 0⟩ ⟨"b", 1, 8⟩ ⟨"=", 1, 10⟩ (.boolLit ⟨"true", 1, 12⟩),
    .conditional ⟨"(", 1, 21⟩ (.ident ⟨"b", 1, 22⟩) ⟨"\x7b", 1, 25⟩
      [.varDecl ⟨"boolean", 1, 27⟩ ⟨"c", 1, 35⟩ ⟨"=", 1, 37⟩ (.ident ⟨"b", 1, 39⟩),
       .assign ⟨"b", 1, 42⟩ ⟨"=", 1, 44⟩ (.boolLit ⟨"false", 1, 46⟩)],
    .print ⟨"print", 1, 55⟩ (.ident ⟨"b", 1, 61⟩)]

theorem Program.flags_noOwnReads : flags.NoOwnReads := by
  intro word name equals init use within member own
  simp only [flags, Node.within_cons_iff, Node.not_within_nil, Node.body] at within
  simp only [Node.varDecl.injEq, reduceCtorEq, or_false, false_or] at within
  rcases within with ⟨rfl, rfl, rfl, rfl⟩ | ⟨rfl, rfl, rfl, rfl⟩
  · cases List.mem_singleton.mp member
  · cases List.mem_singleton.mp member
    exact absurd own (by decide)

theorem boolean_type_soundness_flags :
    ∃ c, Check.program .flags .initial = .ok () c ∧ c.hasErrors = false ∧
      Program.flags.NoOwnReads ∧
      ∃ e, Exec.program .flags .initial = .ok () e ∧ e.scopes.BooleanDomain :=
  ⟨_, rfl, rfl, Program.flags_noOwnReads, _, rfl,
    (boolean_type_soundness (p := .flags) rfl rfl Program.flags_noOwnReads).2.1 _ rfl⟩

/-- The law of boolean variables for source texts, exactly: let a text be read, checked
without reports and executed. At the end some boolean variable holds no truth value if and
only if a boolean variable is left that holds a leaked value, and the boolean variables hold
truth values in all states if and only if nothing is leaked. -/
theorem source_boolean_domain {source : String} {p : Program} {c : Checker} {e : Executor}
    (_parsed : Program.parse source = .ok p) (checked : Check.program p .initial = .ok () c)
    (clean : c.hasErrors = false) (ran : Exec.program p .initial = .ok () e) :
    (¬ e.scopes.BooleanDomain ↔
      ∃ value, Exec.Leaks p.stmts .initial value ∧ e.scopes.BooleanHolds value) ∧
    ((∀ place left t, Exec.walk.Reaches p.stmts .initial place left t →
      t.scopes.BooleanDomain) ↔ ∀ value, ¬ Exec.Leaks p.stmts .initial value) := by
  have h : WellTyped .initial p.stmts c.scopes :=
    (Check.program_clean_iff.mp ⟨checked, clean⟩).1
  exact ⟨h.not_booleanDomain_iff (Exec.reaches_end ran), h.booleanDomain_iff⟩

theorem parse_flagsSource : Program.parse flagsSource = .ok .flags := by
  cbv

theorem source_boolean_domain_flags :
    ∃ c e, Program.parse flagsSource = .ok .flags ∧
      Check.program .flags .initial = .ok () c ∧ c.hasErrors = false ∧
      Exec.program .flags .initial = .ok () e ∧ e.scopes.BooleanDomain :=
  ⟨_, _, parse_flagsSource, rfl, rfl, rfl,
    (source_boolean_domain parse_flagsSource rfl rfl rfl).2.mpr
      (Program.flags_noOwnReads.not_leaks .initial) _ [] _ (Exec.reaches_end rfl)⟩

/-- The source text of a program that hands an integer to a boolean variable. -/
def leakySource : String :=
  "boolean b = true; int x = 5; \x7b boolean x = x; b = x; \x7d"

/-- The program of `leakySource`. -/
def Program.leaky : Program where
  stmts := [
    .varDecl ⟨"boolean", 1, 0⟩ ⟨"b", 1, 8⟩ ⟨"=", 1, 10⟩ (.boolLit ⟨"true", 1, 12⟩),
    .varDecl ⟨"int", 1, 18⟩ ⟨"x", 1, 22⟩ ⟨"=", 1, 24⟩ (.intLit ⟨"5", 1, 26⟩),
    .block ⟨"\x7b", 1, 29⟩
      [.varDecl ⟨"boolean", 1, 31⟩ ⟨"x", 1, 39⟩ ⟨"=", 1, 41⟩ (.ident ⟨"x", 1, 43⟩),
       .assign ⟨"b", 1, 46⟩ ⟨"=", 1, 48⟩ (.ident ⟨"x", 1, 50⟩)]]

/-- Checking without reports does not keep integers out of the boolean variables that are
left at the end. -/
theorem leakySource_leaves_integer :
    ∃ p c e sym, Program.parse leakySource = .ok p ∧
      Check.program p .initial = .ok () c ∧ c.hasErrors = false ∧
      Exec.program p .initial = .ok () e ∧ e.scopes.lookup? "b" = some sym ∧
      sym.type = .boolean ∧ sym.value = some 5 ∧ ¬ e.scopes.BooleanDomain := by
  refine ⟨.leaky, _, _, _, ?parsed, rfl, rfl, rfl, rfl, rfl, ?five, ?outside⟩
  case parsed => cbv
  case five => decide +kernel
  case outside => decide +kernel

end BlockLang

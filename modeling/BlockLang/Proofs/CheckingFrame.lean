import BlockLang.Proofs.Redeclaration
import BlockLang.Proofs.Sessions

/-!
# What checking does to the scopes it finds

A statement that is checked to its end leaves the scopes as it found them, except that a
declaration puts its symbol into the innermost one. Between braces a scope is opened first and
closed last, and whatever is declared there is gone after the closing brace.

A fault ends checking at once, and then no brace is closed any more. The scopes that were there
before are still below, with the symbol of the statement itself if it is a declaration, and above
them there is one scope for each pair of braces around the statement that fails.
-/

namespace BlockLang

/-- A scope after a statement of its list: the symbol of a declaration is put before the others,
unless the scope has a symbol of its name. -/
def Scope.declaring (s : Scope) (stmt : Node) : Scope :=
  match stmt.symbol? with
  | none => s
  | some sym =>
    match s.find? sym.name with
    | some _ => s
    | none => ⟨sym :: s.symbols⟩

theorem Node.symbol?_varDecl {word name equals : Token} {init : Node} {type : Ty}
    (known : Ty.ofWord? word.text = some type) :
    (varDecl word name equals init).symbol? = some ⟨name.text, type, name, none⟩ := by
  simp [symbol?, known]

namespace Scope

variable {s : Scope} {sym : Symbol} {stmt : Node}

theorem insert_of_fresh (fresh : s.find? sym.name = none) : s.insert sym = ⟨sym :: s.symbols⟩ := by
  have others : s.symbols.filter (·.name != sym.name) = s.symbols := by
    rw [List.filter_eq_self]
    intro other member
    simpa using List.find?_eq_none.mp fresh other member
  rw [insert, others]

theorem declaring_of_silent (silent : stmt.symbol? = none) : s.declaring stmt = s := by
  simp only [declaring, silent]

theorem declaring_of_bound {old : Symbol} (known : stmt.symbol? = some sym)
    (bound : s.find? sym.name = some old) : s.declaring stmt = s := by
  simp only [declaring, known, bound]

theorem declaring_of_fresh (known : stmt.symbol? = some sym) (fresh : s.find? sym.name = none) :
    s.declaring stmt = ⟨sym :: s.symbols⟩ := by
  simp only [declaring, known, fresh]

/-- A statement changes a scope only by a declaration of a name that the scope does not have, and
then by one new symbol. -/
theorem declaring_cases (s : Scope) (stmt : Node) :
    s.declaring stmt = s ∨ ∃ word name equals init type,
      stmt = .varDecl word name equals init ∧ Ty.ofWord? word.text = some type ∧
      s.find? name.text = none ∧
      s.declaring stmt = ⟨⟨name.text, type, name, none⟩ :: s.symbols⟩ := by
  cases stmt with
  | varDecl word name equals init =>
      cases known : Ty.ofWord? word.text with
      | none => exact .inl (declaring_of_silent (by simp [Node.symbol?, known]))
      | some type =>
          cases found : s.find? name.text with
          | some old => exact .inl (declaring_of_bound (Node.symbol?_varDecl known) found)
          | none =>
              exact .inr ⟨word, name, equals, init, type, rfl, known, found,
                declaring_of_fresh (Node.symbol?_varDecl known) found⟩
  | _ => exact .inl rfl

end Scope

namespace Check

variable {c c' d : Checker} {stmt : Node} {stmts left : List Node} {place : Place}
variable {top : Scope} {below : List Scope}

/-- The two states have the same scopes. -/
def SameScopes (c c' : Checker) : Prop :=
  c'.scopes = c.scopes

theorem includesReports_sameScopes : IncludesReports SameScopes := fun _ _ _ => rfl

/-- A step that keeps the scopes in each of its changes ends with the scopes it began with, also
if it fails. -/
theorem scopes_endState {α : Type} {step : Check α} (h : Step.Makes SameScopes step) (c : Checker) :
    (Step.endState (step c)).scopes = c.scopes :=
  keeps_of_changes (P := fun d : Checker => d.scopes = c.scopes)
    (fun change same => Eq.trans change same) (h c) rfl

theorem sameScopes_condition (paren : Token) (cond : Node) :
    Step.Makes SameScopes (do expectCondition paren (← typeOf cond)) :=
  (makes_typeOf includesReports_sameScopes cond).bind fun _ =>
    makes_reportIf includesReports_sameScopes _ _ paren

theorem openConditional_eq (paren : Token) (cond : Node) :
    openConditional paren cond =
      (do (do expectCondition paren (← typeOf cond)); openScope) := by
  simp only [openConditional, bind_assoc]

/-- Braces are entered with a new scope. -/
theorem scopes_of_enter? (entered : enter? stmt c = some d) :
    d.scopes.scopes = .empty :: c.scopes.scopes := by
  cases stmt with
  | block brace body =>
      cases entered
      rfl
  | conditional paren cond brace body =>
      cases came : openConditional paren cond c with
      | error f u => simp [enter?, came] at entered
      | ok _ u =>
          simp only [enter?, came, Option.some.injEq] at entered
          subst entered
          rw [openConditional_eq] at came
          obtain ⟨_, v, looked, opened⟩ := Step.bind_eq_ok_iff.mp came
          have same := scopes_endState (sameScopes_condition paren cond) c
          rw [looked] at same
          cases opened
          exact congrArg (fun scopes : ScopeStack => .empty :: scopes.scopes) same
  | _ => cases entered

theorem symbol?_of_enter? (entered : enter? stmt c = some d) : stmt.symbol? = none := by
  cases stmt with
  | block => rfl
  | conditional => rfl
  | _ => cases entered

/-- A condition that fails keeps the scopes. -/
theorem scopes_of_condition {paren brace : Token} {cond : Node} {body : List Node}
    (own : enter? (.conditional paren cond brace body) c = none) :
    (Step.endState (statement (.conditional paren cond brace body) c)).scopes = c.scopes := by
  cases came : openConditional paren cond c with
  | ok _ u => simp [enter?, came] at own
  | error f u =>
      have failed : statement (.conditional paren cond brace body) c = .error f u := by
        rw [statement_conditional]
        exact Step.bind_eq_error_iff.mpr (.inl came)
      rw [openConditional_eq] at came
      obtain looked | ⟨_, v, _, opened⟩ := Step.bind_eq_error_iff.mp came
      · have same := scopes_endState (sameScopes_condition paren cond) c
        rw [looked] at same
        rwa [failed]
      · cases opened

/-- A declaration puts its symbol into the innermost scope, and then looks at the first value. -/
theorem scopes_of_varDecl {word name equals : Token} {init : Node}
    (opened : c.scopes.scopes = top :: below) :
    (Step.endState (statement (.varDecl word name equals init) c)).scopes.scopes =
      top.declaring (.varDecl word name equals init) :: below := by
  cases known : Ty.ofWord? word.text with
  | none =>
      simp only [statement, declaredType, known]
      rw [Scope.declaring_of_silent (by simp [Node.symbol?, known])]
      exact opened
  | some type =>
      have value : Step.Makes SameScopes (do expectMatch equals (← typeOf init) type) :=
        (makes_typeOf includesReports_sameScopes init).bind fun _ =>
          makes_reportIf includesReports_sameScopes _ _ equals
      simp only [statement, declaredType, known, pure_bind]
      cases found : top.find? name.text with
      | none =>
          rw [Step.bind_of_ok (declare_of_fresh opened found), scopes_endState value,
            Scope.declaring_of_fresh (Node.symbol?_varDecl known) found,
            Scope.insert_of_fresh found]
      | some old =>
          rw [Step.bind_of_ok (declare_of_bound opened found), scopes_endState value,
            Scope.declaring_of_bound (Node.symbol?_varDecl known) found]
          exact opened

/-- A statement that checking does not come into declares its symbol, whether it succeeds or
fails, and does nothing else to the scopes. -/
theorem scopes_of_own (opened : c.scopes.scopes = top :: below) (own : enter? stmt c = none) :
    (Step.endState (statement stmt c)).scopes.scopes = top.declaring stmt :: below := by
  cases stmt with
  | varDecl word name equals init => exact scopes_of_varDecl opened
  | conditional paren cond brace body =>
      rw [scopes_of_condition own]
      exact opened
  | block brace body => cases own
  | assign name equals value =>
      have step : Step.Makes SameScopes (statement (.assign name equals value)) := by
        simp only [statement]
        apply (makes_resolve includesReports_sameScopes name).bind
        intro target
        apply (makes_typeOf includesReports_sameScopes value).bind
        intro found
        cases target with
        | none => exact .pure _
        | some sym => exact makes_reportIf includesReports_sameScopes _ _ equals
      rw [scopes_endState step]
      exact opened
  | print word value =>
      have step : Step.Makes SameScopes (statement (.print word value)) := by
        simp only [statement]
        exact (makes_typeOf includesReports_sameScopes value).bind fun _ => .pure _
      rw [scopes_endState step]
      exact opened
  | _ =>
      simp only [statement]
      exact opened

/-- Statements that are checked to their end leave their symbols in the innermost scope, and the
others as they are. -/
def Frames (stmts : List Node) : Prop :=
  ∀ {top below} {c c' : Checker}, c.scopes.scopes = top :: below →
    statements stmts c = .ok () c' → c'.scopes.scopes = stmts.foldl Scope.declaring top :: below

theorem Frames.statement (body : Frames stmt.body) (opened : c.scopes.scopes = top :: below)
    (ran : statement stmt c = .ok () c') : c'.scopes.scopes = top.declaring stmt :: below := by
  cases entry : enter? stmt c with
  | none =>
      have own := scopes_of_own opened entry
      rwa [ran] at own
  | some d =>
      obtain ⟨d', inner, rfl⟩ := (walk.statement_eq_ok_iff entry).mp ran
      rw [← statements_eq_walk] at inner
      -- The scope of the body is closed again, and with it go its symbols.
      have closed : (leave d').scopes.scopes = c.scopes.scopes :=
        congrArg List.tail (body (scopes_of_enter? entry) inner)
      rw [Scope.declaring_of_silent (symbol?_of_enter? entry)]
      exact closed.trans opened

theorem frames (stmts : List Node) : Frames stmts := by
  induction stmts using Node.list_induction with
  | nil =>
      intro top below c c' opened ran
      simp only [statements] at ran
      cases ran
      exact opened
  | cons stmt rest body_ih rest_ih =>
      intro top below c c' opened ran
      simp only [statements] at ran
      obtain ⟨_, d, first, others⟩ := Step.bind_eq_ok_iff.mp ran
      exact rest_ih (body_ih.statement opened first) others

theorem scopes_statement (opened : c.scopes.scopes = top :: below)
    (ran : statement stmt c = .ok () c') : c'.scopes.scopes = top.declaring stmt :: below :=
  Frames.statement (frames stmt.body) opened ran

/-- At every place there is one scope more for each pair of braces around it, above the scopes
that were below from the start. -/
theorem scopes_at (reached : walk.Reaches stmts c place left d)
    (opened : c.scopes.scopes = top :: below) :
    ∃ innermost between, d.scopes.scopes = innermost :: between ++ below ∧
      between.length + 1 = place.length := by
  induction reached generalizing top below with
  | here => exact ⟨top, [], opened, rfl⟩
  | @after stmt rest left c u d n place ran _ ih =>
      exact ih (scopes_statement opened ran)
  | @inside stmt rest left c u d place entered _ ih =>
      obtain ⟨innermost, between, scopes, count⟩ := ih (opened ▸ scopes_of_enter? entered)
      refine ⟨innermost, between ++ [top], ?_, ?_⟩
      · simpa using scopes
      · simpa using count

end Check

/-- Checking keeps to the innermost scope. Take any state of checking with an open scope, and any
statement. If the statement is checked to its end, then as many scopes are open as before; those
below the innermost are the same, and the innermost is what `Scope.declaring` makes of it. If there
is a fault, then it comes from a statement that fails before its braces, at some place in the
statement; the scopes that were there are still below, the former innermost again with what the
statement declares, and above them there is one scope for each pair of braces around that place.
What a statement declares is nothing, or one symbol of a name that is new to the scope, which is put
before the others. In any case the old diagnostics are the first of the new ones. -/
theorem checking_keeps_to_innermost_scope {c : Checker} {top : Scope} {below : List Scope}
    (opened : c.scopes.scopes = top :: below) (stmt : Node) :
    (∀ c', Check.statement stmt c = .ok () c' →
      c'.scopes.depth = c.scopes.depth ∧ c'.scopes.scopes = top.declaring stmt :: below) ∧
    (∀ f c', Check.statement stmt c = .error f c' →
      ∃ extra place inner left d, c'.scopes.scopes = extra ++ top.declaring stmt :: below ∧
        extra.length = place.length ∧
        Check.walk.Reaches [stmt] c (0 :: place) (inner :: left) d ∧
        Check.enter? inner d = none ∧ Check.statement inner d = .error f c') ∧
    (top.declaring stmt = top ∨ ∃ word name equals init type,
      stmt = .varDecl word name equals init ∧ Ty.ofWord? word.text = some type ∧
      top.find? name.text = none ∧
      top.declaring stmt = ⟨⟨name.text, type, name, none⟩ :: top.symbols⟩) ∧
    c.diagnostics <+: (Step.endState (Check.statement stmt c)).diagnostics := by
  refine ⟨?_, ?_, top.declaring_cases stmt, (Check.grows_statement stmt c).map _⟩
  · intro c' ran
    have scopes := Check.scopes_statement opened ran
    refine ⟨?_, scopes⟩
    simp [ScopeStack.depth, scopes, opened]
  · intro f c' failed
    cases entry : Check.enter? stmt c with
    | none =>
        have own := Check.scopes_of_own opened entry
        rw [failed] at own
        exact ⟨[], [], stmt, [], c, own, rfl, .here [stmt] c, entry, failed⟩
    | some u =>
        have within := (Check.walk.statement_eq_error_iff entry).mp failed
        obtain ⟨place, inner, left, d, reached, own, fails⟩ := Walk.exists_failing within
        have start : u.scopes.scopes = .empty :: top :: below :=
          opened ▸ Check.scopes_of_enter? entry
        obtain ⟨innermost, between, scopes, count⟩ := Check.scopes_at reached start
        -- The failing statement may have declared a name in the scope that it stands in.
        have after := Check.scopes_of_own scopes own
        change (Step.endState (Check.walk.statement inner d)).scopes.scopes = _ at after
        rw [fails] at after
        rw [Scope.declaring_of_silent (Check.symbol?_of_enter? entry)]
        exact ⟨innermost.declaring inner :: between, place, inner, left, d, after, count,
          .inside entry reached, own, fails⟩

/-- A block with declarations and a nested conditional, in which a declaration without a readable
first value stands. -/
def Node.unfinished : Node :=
  .block ⟨"\x7b", 2, 0⟩ [
    .varDecl ⟨"int", 2, 2⟩ ⟨"y", 2, 6⟩ ⟨"=", 2, 8⟩ (.ident ⟨"q", 2, 10⟩),
    .block ⟨"\x7b", 3, 2⟩ [.varDecl ⟨"int", 3, 4⟩ ⟨"z", 3, 8⟩ ⟨"=", 3, 10⟩ (.ident ⟨"y", 3, 12⟩)],
    .conditional ⟨"(", 4, 5⟩ (.ident ⟨"x", 4, 6⟩) ⟨"\x7b", 4, 9⟩ [
      .varDecl ⟨"int", 4, 11⟩ ⟨"w", 4, 15⟩ ⟨"=", 4, 17⟩ .absent]]

/-- A state of checking with the variable `x` in its innermost scope. -/
def Checker.within : Checker :=
  ⟨⟨[⟨[⟨"x", .boolean, ⟨"x", 1, 8⟩, none⟩]⟩, .empty]⟩, #[]⟩

/-- The block that is left is closed, and the two that are not left stay open. -/
theorem checking_keeps_to_innermost_scope_unfinished :
    ∃ f c' innermost middle place inner left d,
      Check.statement .unfinished .within = .error f c' ∧
      c'.scopes.scopes = innermost :: middle :: Checker.within.scopes.scopes ∧
      innermost.symbols.map Symbol.name = ["w"] ∧ middle.symbols.map Symbol.name = ["y"] ∧
      Check.walk.Reaches [.unfinished] .within (0 :: place) (inner :: left) d ∧
      Check.statement inner d = .error f c' ∧ place.length = 2 := by
  obtain ⟨_, fault, _⟩ := checking_keeps_to_innermost_scope (c := .within) rfl .unfinished
  obtain ⟨extra, place, inner, left, d, scopes, count, reached, _, failed⟩ := fault _ _ rfl
  refine ⟨_, _, _, _, place, inner, left, d, rfl, rfl, rfl, rfl, reached, failed, ?_⟩
  have height : 4 = extra.length + 2 := (congrArg List.length scopes).trans List.length_append
  omega

end BlockLang

import BlockLang.Proofs.Completion

/-!
# The order of diagnostics

Checking does not always report at the token it has just come to: a value that does not fit
its variable is reported at the equals sign, after the whole value has been looked at, and
an operator is reported after its right operand. Still the diagnostics of a source text
stand in the order of their places, and no two of them are about the same token.

The reason is that an expression with a type has had no report in it. Whatever is reported
about the type of an expression is therefore the only report about the expression, and it
may as well stand at a token before it. `Check.reports_typeOf` is this law for expressions;
by it, checking a tree makes reports about some of the tokens of the tree, in the order in
which the tokens stand in the source text.
-/

namespace BlockLang

namespace Check

variable {α β : Type}

/-- If the step succeeds, then `Q` holds of its result and of the tokens that it has made
reports about, in the order of the reports. -/
def Reports (step : Check α) (Q : α → List Token → Prop) : Prop :=
  ∀ (c c' : Checker) (a : α), step c = .ok a c' →
    ∃ added : List Report, c'.reports.toList = c.reports.toList ++ added ∧
      Q a (added.map Report.token)

/-- The reports are about some of the tokens, in the same order. -/
def Among (tokens : List Token) (_ : α) (reported : List Token) : Prop :=
  reported.Sublist tokens

/-- The reports within an expression: they are about some of its tokens, in the same order,
and an expression with a type has none. -/
def Inside (tokens : List Token) (type : Ty) (reported : List Token) : Prop :=
  reported.Sublist tokens ∧ (type.isError = false → reported = [])

/-- The reports about the type of an expression: there is at most one, and none if the type
is lost. -/
def About (token : Token) (type : Ty) (_ : α) (reported : List Token) : Prop :=
  reported.Sublist [token] ∧ (type.isError = true → reported = [])

/-- An expression has reports inside or a report about its type, and never both. So the
report about the type may be at a token before the expression. -/
theorem Inside.sublist {tokens inside about : List Token} {token : Token} {type : Ty} {a : α}
    (h : Inside tokens type inside) (h' : About token type a about) :
    (inside ++ about).Sublist (token :: tokens) := by
  cases lost : type.isError with
  | true =>
      rw [h'.2 lost, List.append_nil]
      exact h.1.cons token
  | false =>
      rw [h.2 lost, List.nil_append]
      exact h'.1.trans (.cons_cons token (List.nil_sublist tokens))

namespace Reports

variable {Q Q' : α → List Token → Prop} {tokens tokens' : List Token}

theorem mono {step : Check α} (h : Reports step Q)
    (weaker : ∀ a reported, Q a reported → Q' a reported) : Reports step Q' := by
  intro c c' a ran
  obtain ⟨added, grown, holds⟩ := h c c' a ran
  exact ⟨added, grown, weaker a _ holds⟩

theorem pure {a : α} (h : Q a []) : Reports (pure a) Q := by
  intro c c' b ran
  cases ran
  exact ⟨[], (List.append_nil _).symm, h⟩

theorem throw (f : Fault) : Reports (throw f) Q := by
  intro c c' a ran
  cases ran

theorem report {Q : Unit → List Token → Prop} (problem : Problem) {token : Token}
    (h : Q () [token]) : Reports (report problem token) Q := by
  intro c c' a ran
  cases ran
  exact ⟨[⟨problem, token⟩], Array.toList_push, h⟩

theorem modifyScopes (g : ScopeStack → ScopeStack) {Q : Unit → List Token → Prop}
    (h : Q () []) : Reports (modify fun c : Checker => { c with scopes := g c.scopes }) Q := by
  intro c c' a ran
  cases ran
  exact ⟨[], (List.append_nil _).symm, h⟩

theorem bind {x : Check α} {f : α → Check β} {R : α → β → List Token → Prop}
    {S : β → List Token → Prop} (first : Reports x Q) (second : ∀ a, Reports (f a) (R a))
    (both : ∀ a b reported later, Q a reported → R a b later → S b (reported ++ later)) :
    Reports (x >>= f) S := by
  intro c c' b ran
  obtain ⟨a, u, left, right⟩ := Step.bind_eq_ok_iff.mp ran
  obtain ⟨added, grown, holds⟩ := first c u a left
  obtain ⟨later, grown', holds'⟩ := second a u c' b right
  refine ⟨added ++ later, ?_, ?_⟩
  · rw [grown', grown, List.append_assoc]
  · rw [List.map_append]
    exact both a b _ _ holds holds'

/-- Steps in sequence make reports about tokens in sequence. -/
theorem andThen {x : Check α} {f : α → Check β} (first : Reports x (Among tokens))
    (second : ∀ a, Reports (f a) (Among tokens')) :
    Reports (x >>= f) (Among (tokens ++ tokens')) :=
  first.bind second fun _ _ _ _ found later => List.Sublist.append found later

theorem among_mono {step : Check α} (h : Reports step (Among tokens))
    (part : tokens.Sublist tokens') : Reports step (Among tokens') :=
  h.mono fun _ _ found => found.trans part

end Reports

theorem reports_declaredType (word : Token) : Reports (declaredType word) (Among []) := by
  unfold declaredType
  split
  · exact .pure (.refl _)
  · exact .throw _

/-- A name that is declared already is reported at its new declaration. -/
theorem reports_declare (name : Token) (type : Ty) :
    Reports (declare name type) (Among [name]) := by
  intro c c' a ran
  simp only [declare, Step.get_bind_apply] at ran
  cases declared : c.scopes.declare name.text type name with
  | ok scopes =>
      rw [declared] at ran
      cases ran
      exact ⟨[], (List.append_nil _).symm, List.nil_sublist _⟩
  | error e =>
      rw [declared] at ran
      cases e with
      | noScope => cases ran
      | redeclared earlier token line =>
          obtain ⟨rfl, rfl⟩ := ScopeStack.declare_eq_redeclared declared
          exact Reports.report _ (.refl _) _ _ _ ran

/-- A name that is found is not reported. -/
theorem reports_resolve (name : Token) :
    Reports (resolve name) fun target reported =>
      reported.Sublist [name] ∧ (target ≠ none → reported = []) := by
  intro c c' target ran
  simp only [resolve, Step.get_bind_apply] at ran
  cases found : c.scopes.lookup? name.text with
  | some sym =>
      rw [found] at ran
      cases ran
      exact ⟨[], (List.append_nil _).symm, List.nil_sublist _, fun _ => rfl⟩
  | none =>
      rw [found] at ran
      cases ran
      exact ⟨[⟨_, name⟩], Array.toList_push, .refl _, fun bound => absurd rfl bound⟩

/-- An operator is reported only if both operands have types. -/
theorem reports_operation (op : Token) (left right : Ty) :
    Reports (operation op left right) fun type reported =>
      About op right type reported ∧
        (type.isError = false → left.isError = false ∧ right.isError = false ∧ reported = []) := by
  have silent : About op right Ty.error [] := ⟨List.nil_sublist _, fun _ => rfl⟩
  have noType : Ty.error.isError ≠ false := by decide
  unfold operation
  split
  · exact .pure ⟨silent, fun given => absurd given noType⟩
  · rename_i proper
    simp only [Bool.or_eq_true, not_or, Bool.not_eq_true] at proper
    split
    · exact .pure ⟨silent, fun _ => ⟨proper.1, proper.2, rfl⟩⟩
    · intro c c' type ran
      cases ran
      refine ⟨[⟨_, op⟩], Array.toList_push, ⟨.refl _, fun lost => ?_⟩,
        fun given => absurd given noType⟩
      rw [proper.2] at lost
      cases lost

/-- A type that is lost is not reported as a wrong one. -/
theorem reports_misfit (problem : Problem) (token : Token) (found expected : Ty) :
    Reports (if !found.isError && !found.isMatch expected then report problem token else pure ())
      (About token found) := by
  split
  · rename_i misfit
    refine .report _ ⟨.refl _, fun lost => ?_⟩
    simp [lost] at misfit
  · exact .pure ⟨List.nil_sublist _, fun _ => rfl⟩

theorem reports_expectMatch (equals : Token) (found expected : Ty) :
    Reports (expectMatch equals found expected) (About equals found) :=
  reports_misfit _ equals found expected

theorem reports_expectCondition (paren : Token) (found : Ty) :
    Reports (expectCondition paren found) (About paren found) :=
  reports_misfit _ paren found .boolean

theorem reports_typeOf (node : Node) : Reports (typeOf node) (Inside node.tokens) := by
  fun_induction typeOf node with
  | case1 literal => exact .pure ⟨List.nil_sublist _, fun _ => rfl⟩
  | case2 literal => exact .pure ⟨List.nil_sublist _, fun _ => rfl⟩
  | case3 name =>
      apply (reports_resolve name).bind (R := fun target type reported =>
        (target = none → type = .error) ∧ reported = [])
      · intro target
        cases target with
        | none => exact .pure ⟨fun _ => rfl, rfl⟩
        | some sym => exact .pure ⟨fun unbound => absurd unbound (Option.some_ne_none sym), rfl⟩
      · rintro target type reported _ ⟨about, quiet⟩ ⟨lost, rfl⟩
        rw [List.append_nil]
        refine ⟨about, fun proper => quiet ?_⟩
        intro unbound
        rw [lost unbound] at proper
        cases proper
  | case4 op left right left_ih right_ih =>
      -- The operator stands between the operands and is reported after the right one.
      have others : ∀ l : Ty, Reports (do let r ← typeOf right; operation op l r)
          fun type reported => reported.Sublist (op :: right.tokens) ∧
            (type.isError = false → l.isError = false ∧ reported = []) := by
        intro l
        apply right_ih.bind (reports_operation op l)
        rintro r type reported later inside ⟨about, quiet⟩
        refine ⟨inside.sublist about, fun proper => ?_⟩
        obtain ⟨leftProper, rightProper, rfl⟩ := quiet proper
        exact ⟨leftProper, by rw [inside.2 rightProper, List.nil_append]⟩
      apply left_ih.bind others
      rintro l type reported later inside ⟨rest, quiet⟩
      refine ⟨inside.1.append rest, fun proper => ?_⟩
      obtain ⟨leftProper, rfl⟩ := quiet proper
      rw [inside.2 leftProper, List.nil_append]
  | case5 => exact .throw _

/-- A token before an expression at which the type of the expression is reported. -/
theorem Reports.comparison {compare : Ty → Check α} {token : Token} (node : Node)
    (h : ∀ found, Reports (compare found) (About token found)) :
    Reports (typeOf node >>= compare) (Among (token :: node.tokens)) :=
  (reports_typeOf node).bind h fun _ _ _ _ inside about => inside.sublist about

theorem reports_openConditional (paren : Token) (cond : Node) :
    Reports (openConditional paren cond) (Among (paren :: cond.tokens)) := by
  apply Reports.comparison cond
  intro found
  have opening : Reports openScope fun _ reported => reported = [] := .modifyScopes _ rfl
  apply (reports_expectCondition paren found).bind fun _ => opening
  rintro _ _ reported _ about rfl
  rw [List.append_nil]
  exact about

/-- Closing a scope reports nothing. -/
theorem Reports.braces {opening step : Check Unit} {tokens tokens' : List Token}
    (opens : Reports opening (Among tokens)) (h : Reports step (Among tokens')) :
    Reports (do opening; step; closeScope) (Among (tokens ++ tokens')) := by
  have closing : Reports closeScope (Among []) := .modifyScopes _ (.refl _)
  have rest := opens.andThen fun _ => h.andThen fun _ => closing
  rwa [List.append_nil] at rest

/-- The step of the law for statements, with one case for each sort of statement. -/
theorem reports_statement {stmt : Node}
    (body : Reports (statements stmt.body) (Among (Node.tokensAll stmt.body))) :
    Reports (statement stmt) (Among stmt.tokens) := by
  cases stmt with
  | varDecl word name equals init =>
      have value := fun type => Reports.comparison init fun found =>
        reports_expectMatch equals found type
      have declared := fun type => (reports_declare name type).andThen fun _ => value type
      simp only [statement]
      exact ((reports_declaredType word).andThen declared).among_mono (List.sublist_cons_self _ _)
  | assign name equals node =>
      have target : Reports (resolve name) (Among [name]) :=
        (reports_resolve name).mono fun _ _ found => found.1
      simp only [statement]
      apply target.andThen
      intro target
      apply Reports.comparison node
      intro found
      cases target with
      | none => exact .pure ⟨List.nil_sublist _, fun _ => rfl⟩
      | some sym => exact reports_expectMatch equals found sym.type
  | conditional paren cond brace stmts =>
      rw [statement_conditional]
      apply ((reports_openConditional paren cond).braces body).among_mono
      exact (List.Sublist.append_left (List.sublist_cons_self _ _) _).cons_cons paren
  | block brace stmts =>
      have opening : Reports openScope (Among []) := .modifyScopes _ (.refl _)
      simp only [statement]
      exact (opening.braces body).among_mono (List.sublist_cons_self _ _)
  | print word node =>
      have value : Reports (typeOf node) (Among node.tokens) :=
        (reports_typeOf node).mono fun _ _ inside => inside.1
      simp only [statement]
      apply (value.andThen fun _ => .pure (.refl [])).among_mono
      rw [List.append_nil]
      exact List.sublist_cons_self _ _
  | _ =>
      simp only [statement]
      exact .throw _

/-- Checking statements makes reports about some of their tokens, in source order. -/
theorem reports_statements (stmts : List Node) :
    Reports (statements stmts) (Among (Node.tokensAll stmts)) := by
  induction stmts using Node.list_induction with
  | nil =>
      simp only [statements]
      exact .pure (.refl _)
  | cons stmt rest body_ih rest_ih =>
      simp only [statements]
      exact (reports_statement body_ih).andThen fun _ => rest_ih

/-- The reports about a program are about some of its tokens, in source order. -/
theorem program_reports {p : Program} {c : Checker} (ran : Check.program p .initial = .ok () c) :
    (c.reports.toList.map Report.token).Sublist (Node.tokensAll p.stmts) := by
  obtain ⟨added, grown, among⟩ := reports_statements p.stmts _ _ _ ran
  rw [grown]
  exact among

end Check

/-- The tokens of a program that is read from a source text stand at increasing places. -/
theorem Program.tokens_increasing {source : String} {p : Program}
    (parsed : parse source = .ok p) :
    (Node.tokensAll p.stmts).Pairwise fun a b => a.position < b.position := by
  obtain ⟨_, list, same, rfl⟩ := parse_eq_ok_iff.mp parsed
  have increasing : (list.lexemes.map Lexeme.token).Pairwise fun a b =>
      a.position < b.position := by
    rw [same, List.pairwise_map]
    exact Scan.lexemes_increasing source
  exact increasing.sublist list.tokens_sublist

/-- Diagnostics stand in the order of the source text. A program that is read from a source
text is checked to its end, and the places of its diagnostics, compared by line and then by
column, are strictly increasing. So no token is reported twice, and sorting the diagnostics
by their places changes nothing. -/
theorem diagnostics_in_source_order {source : String} {p : Program}
    (parsed : Program.parse source = .ok p) :
    ∃ c, Check.program p .initial = .ok () c ∧
      c.diagnostics.Pairwise (fun a b => toLex (a.line, a.column) < toLex (b.line, b.column)) ∧
      (c.reports.toList.map Report.token).Nodup ∧
      c.diagnostics.mergeSort (fun a b => toLex (a.line, a.column) ≤ toLex (b.line, b.column)) =
        c.diagnostics := by
  obtain ⟨c, ran, _⟩ := Check.completes_of_parse parsed
  have increasing := (Program.tokens_increasing parsed).sublist (Check.program_reports ran)
  have ordered : c.diagnostics.Pairwise fun a b =>
      toLex (a.line, a.column) < toLex (b.line, b.column) := by
    rw [Checker.diagnostics, List.pairwise_map]
    rw [List.pairwise_map] at increasing
    exact increasing
  refine ⟨c, ran, ordered, ?_, ?_⟩
  · exact increasing.imp fun before same => before.ne (congrArg Token.position same)
  · exact List.mergeSort_of_pairwise (ordered.imp fun before => decide_eq_true before.le)

/-- The source text of a program with a problem of each sort. -/
def faultySource : String :=
  "int x = true;\nif (x + 1) \x7b x = y - true; \x7d\nint x = true + 1;"

/-- The program of `faultySource`. -/
def Program.faulty : Program where
  stmts := [
    .varDecl ⟨"int", 1, 0⟩ ⟨"x", 1, 4⟩ ⟨"=", 1, 6⟩ (.boolLit ⟨"true", 1, 8⟩),
    .conditional ⟨"(", 2, 3⟩ (.binary ⟨"+", 2, 6⟩ (.ident ⟨"x", 2, 4⟩) (.intLit ⟨"1", 2, 8⟩))
      ⟨"\x7b", 2, 11⟩
      [.assign ⟨"x", 2, 13⟩ ⟨"=", 2, 15⟩
        (.binary ⟨"-", 2, 19⟩ (.ident ⟨"y", 2, 17⟩) (.boolLit ⟨"true", 2, 21⟩))],
    .varDecl ⟨"int", 3, 0⟩ ⟨"x", 3, 4⟩ ⟨"=", 3, 6⟩
      (.binary ⟨"+", 3, 13⟩ (.boolLit ⟨"true", 3, 8⟩) (.intLit ⟨"1", 3, 15⟩))]

theorem parse_faultySource : Program.parse faultySource = .ok .faulty := by
  cbv

theorem diagnostics_in_source_order_faulty :
    ∃ c, Program.parse faultySource = .ok .faulty ∧
      Check.program .faulty .initial = .ok () c ∧
      c.diagnostics.map Diagnostic.position = [⟨1, 6⟩, ⟨2, 3⟩, ⟨2, 17⟩, ⟨3, 4⟩, ⟨3, 13⟩] ∧
      c.diagnostics.Pairwise fun a b => toLex (a.line, a.column) < toLex (b.line, b.column) := by
  obtain ⟨c, ran, ordered, _⟩ := diagnostics_in_source_order parse_faultySource
  refine ⟨c, parse_faultySource, ran, ?_, ordered⟩
  cases ran
  rfl

end BlockLang

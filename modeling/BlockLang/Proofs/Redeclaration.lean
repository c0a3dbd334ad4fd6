import BlockLang.Proofs.Resolution

/-!
# Redeclarations

A declaration is a repeated one if an earlier statement of its own list declares the same name.
The lists around it and the lists between the braces before it do not matter. Of several earlier
declarations the first is the one that is cited, since it is the one that counts.

`Node.redeclarations` reads the reports about repeated declarations off a statement list, and
checking makes exactly these. What ties the two together is again `ScopeStack.Records`: the
innermost scope holds the symbols of the first declarations among the statements passed so far.
-/

namespace BlockLang

namespace Node

/-- The name that a declaration declares. -/
def declaredName? : Node → Option Token
  | .varDecl _ name _ _ => some name
  | _ => none

/-- The report about a declaration of the name after the given statements of its list, if one of
them declares the name already. -/
def redeclaration? (before : List Node) (name : Token) : Option Report :=
  ((before.find? (·.declares name.text)).bind declaredName?).map fun first =>
    ⟨.redeclared name.text first.line, name⟩

mutual

/-- The reports about repeated declarations in a statement that comes after the statements
`before` of its list. -/
def redeclarationsOf (before : List Node) : Node → List Report
  | .varDecl _ name _ _ => (redeclaration? before name).toList
  | .block _ body => redeclarations [] body
  | .conditional _ _ _ body => redeclarations [] body
  | _ => []

/-- The reports about repeated declarations in the statements of a list that come after the
statements `before`. -/
def redeclarations (before : List Node) : List Node → List Report
  | [] => []
  | stmt :: rest => redeclarationsOf before stmt ++ redeclarations (before ++ [stmt]) rest

end

/-- The report about the declaration that a statement makes itself. -/
def ownRedeclaration? (before : List Node) (stmt : Node) : Option Report :=
  stmt.declaredName?.bind (redeclaration? before)

theorem redeclarationsOf_eq (before : List Node) (stmt : Node) :
    redeclarationsOf before stmt =
      (ownRedeclaration? before stmt).toList ++ redeclarations [] stmt.body := by
  cases stmt <;> simp [redeclarationsOf, ownRedeclaration?, declaredName?, body, redeclarations]

theorem declaredName?_of_symbol? {decl : Node} {sym : Symbol} (known : decl.symbol? = some sym) :
    decl.declaredName? = some sym.token := by
  cases decl with
  | varDecl word name equals init =>
      obtain ⟨type, _, rfl⟩ := Option.map_eq_some_iff.mp known
      rfl
  | _ => cases known

theorem exists_name_of_declares {decl : Node} {name : String} (h : decl.declares name = true) :
    ∃ first, decl.declaredName? = some first ∧ first.text = name := by
  cases decl with
  | varDecl word first equals init => exact ⟨first, rfl, beq_iff_eq.mp h⟩
  | _ => cases h

/-- Without an earlier declaration of its name a declaration is not reported. -/
theorem redeclaration?_eq_none_iff {before : List Node} {name : Token} :
    redeclaration? before name = none ↔ ∀ stmt ∈ before, stmt.declares name.text = false := by
  rw [redeclaration?, Option.map_eq_none_iff]
  cases found : before.find? (·.declares name.text) with
  | none =>
      have none := List.find?_eq_none.mp found
      simpa using none
  | some decl =>
      obtain ⟨first, isDecl, _⟩ := exists_name_of_declares (List.find?_some found)
      refine iff_of_false ?_ ?_
      · rw [Option.bind_some, isDecl]
        exact Option.some_ne_none first
      · intro silent
        have declares := List.find?_some found
        rw [silent decl (List.mem_of_find?_eq_some found)] at declares
        cases declares

/-- The first declaration of the name is cited, whatever comes after it. -/
theorem redeclaration?_of_first {earlier later : List Node} {word first equals name : Token}
    {init : Node} (same : first.text = name.text)
    (silent : ∀ stmt ∈ earlier, stmt.declares name.text = false) :
    redeclaration? (earlier ++ .varDecl word first equals init :: later) name =
      some ⟨.redeclared name.text first.line, name⟩ := by
  have none : earlier.find? (·.declares name.text) = none := by
    rw [List.find?_eq_none]
    intro stmt member
    rw [silent stmt member]
    exact Bool.false_ne_true
  have here : (Node.varDecl word first equals init).declares name.text = true :=
    beq_iff_eq.mpr same
  rw [redeclaration?, List.find?_append, none, Option.none_or, List.find?_cons_of_pos here]
  rfl

end Node

/-- What a scope holds under a name decides whether a declaration of the name is a repeated one, and
which line is cited. -/
theorem Scope.Records.redeclaration? {s : Scope} {before : List Node} (h : s.Records before)
    (name : Token) :
    Node.redeclaration? before name =
      (s.find? name.text).map fun sym => ⟨.redeclared name.text sym.token.line, name⟩ := by
  have recorded := h name.text
  rw [Node.redeclaration?]
  cases bound : s.find? name.text with
  | none =>
      rw [h.find?_eq_none_iff.mpr bound]
      rfl
  | some sym =>
      rw [bound] at recorded
      obtain ⟨decl, found, known⟩ := Option.map_eq_some_iff.mp recorded
      rw [found, Option.bind_some, Node.declaredName?_of_symbol? known]
      rfl

/-- The reports about repeated declarations, in order. -/
def Checker.redeclared (c : Checker) : List Report :=
  c.reports.toList.filter Report.isRedeclared

theorem Checker.redeclared_report (c : Checker) (problem : Problem) (token : Token) :
    (c.report problem token).redeclared =
      c.redeclared ++ [Report.mk problem token].filter Report.isRedeclared := by
  simp [redeclared, report]

namespace Check

variable {c c' d : Checker} {stmt : Node} {before : List Node} {outer : List (List Node)}

theorem redeclared_resolve {name : Token} {target : Option Symbol}
    (ran : resolve name c = .ok target d) : d.redeclared = c.redeclared := by
  cases found : c.scopes.lookup? name.text with
  | some sym =>
      cases (resolve_of_some found).symm.trans ran
      rfl
  | none =>
      cases (resolve_of_none found).symm.trans ran
      exact (Checker.redeclared_report _ _ _).trans (List.append_nil _)

/-- Nothing is declared in an expression. -/
theorem redeclared_typeOf {node : Node} {type : Ty} (looked : typeOf node c = .ok type c') :
    c'.redeclared = c.redeclared := by
  fun_induction typeOf node generalizing c c' type with
  | case1 =>
      cases looked
      rfl
  | case2 =>
      cases looked
      rfl
  | case3 name =>
      obtain ⟨target, u, resolved, given⟩ := Step.bind_eq_ok_iff.mp looked
      cases target with
      | none =>
          cases given
          exact redeclared_resolve resolved
      | some sym =>
          cases given
          exact redeclared_resolve resolved
  | case4 op left right left_ih right_ih =>
      rw [← typeOf] at looked
      obtain ⟨leftType, u, rightType, v, leftLooked, rightLooked, operated⟩ :=
        typeOf_binary_eq_ok_iff.mp looked
      have operands : v.redeclared = c.redeclared :=
        (right_ih rightLooked).trans (left_ih leftLooked)
      obtain rfl | rfl := operation_outcome operated
      · exact operands
      · rw [Checker.redeclared_report, operands]
        exact List.append_nil _
  | case5 => cases looked

theorem redeclared_compare {compare : Ty → Check Unit} {type : Ty} {e : Checker}
    (prepared : prepare stmt c = .ok compare d) (compared : compare type e = .ok () c') :
    c'.redeclared = e.redeclared := by
  obtain same | ⟨_, problem, token, made, about⟩ := compare_cases prepared type e
  · cases same.symm.trans compared
    rfl
  · cases made.symm.trans compared
    rw [Checker.redeclared_report]
    obtain rfl | ⟨expected, rfl⟩ := about
    · exact List.append_nil _
    · exact List.append_nil _

section Declare

variable {name : Token} {type : Ty} {innermost : Scope} {others : List Scope} {sym : Symbol}

/-- A name that the innermost scope does not have is put into it. -/
theorem declare_of_fresh (opened : c.scopes.scopes = innermost :: others)
    (fresh : innermost.find? name.text = none) :
    declare name type c =
      .ok () { c with scopes := ⟨innermost.insert ⟨name.text, type, name, none⟩ :: others⟩ } := by
  simp only [declare, Step.get_bind_apply, ScopeStack.declare, opened, fresh]
  rfl

/-- A name that the innermost scope has is reported, and nothing else happens. -/
theorem declare_of_bound (opened : c.scopes.scopes = innermost :: others)
    (bound : innermost.find? name.text = some sym) :
    declare name type c = .ok () (c.report (.redeclared name.text sym.token.line) name) := by
  simp only [declare, Step.get_bind_apply, ScopeStack.declare, opened, bound]
  rfl

/-- A declaration is reported if its list has declared the name before. -/
theorem toList_reports_declare (h : c.scopes.Records (before :: outer))
    (declared : declare name type c = .ok () d) :
    d.reports.toList = c.reports.toList ++ (Node.redeclaration? before name).toList := by
  obtain ⟨innermost, others, recorded, _, opened⟩ := List.forall₂_cons_left_iff.mp h
  rw [recorded.redeclaration?]
  cases bound : innermost.find? name.text with
  | none =>
      cases (declare_of_fresh opened bound).symm.trans declared
      exact (List.append_nil _).symm
  | some sym =>
      cases (declare_of_bound opened bound).symm.trans declared
      exact Array.toList_push

theorem redeclared_declare (h : c.scopes.Records (before :: outer))
    (declared : declare name type c = .ok () d) :
    d.redeclared = c.redeclared ++ (Node.redeclaration? before name).toList := by
  have isRedeclared : ∀ r ∈ (Node.redeclaration? before name).toList, r.isRedeclared = true := by
    intro r member
    obtain ⟨first, _, rfl⟩ := Option.map_eq_some_iff.mp (Option.mem_toList.mp member)
    rfl
  rw [Checker.redeclared, toList_reports_declare h declared, List.filter_append,
    List.filter_eq_self.mpr isRedeclared]
  rfl

end Declare

theorem redeclared_prepare {compare : Ty → Check Unit} (h : c.scopes.Records (before :: outer))
    (prepared : prepare stmt c = .ok compare d) :
    d.redeclared = c.redeclared ++ (stmt.ownRedeclaration? before).toList := by
  cases stmt with
  | varDecl word name equals init =>
      obtain ⟨type, u, named, others⟩ := Step.bind_eq_ok_iff.mp prepared
      obtain ⟨_, v, declared, given⟩ := Step.bind_eq_ok_iff.mp others
      cases given
      obtain ⟨_, rfl⟩ := declaredType_eq_ok named
      exact redeclared_declare h declared
  | assign name equals value =>
      obtain ⟨target, u, resolved, given⟩ := Step.bind_eq_ok_iff.mp prepared
      have kept := (redeclared_resolve resolved).trans (List.append_nil _).symm
      cases target with
      | none =>
          cases given
          exact kept
      | some sym =>
          cases given
          exact kept
  | _ =>
      cases prepared
      exact (List.append_nil _).symm

/-- Checking the statements reports the repeated declarations among them and nothing else of that
kind. -/
def Repeats (stmts : List Node) : Prop :=
  ∀ {before outer} {c c' : Checker}, c.scopes.Records (before :: outer) →
    statements stmts c = .ok () c' →
      c'.redeclared = c.redeclared ++ Node.redeclarations before stmts

/-- Between braces a new list begins. -/
theorem Repeats.braces {body : List Node} (repeats : Repeats body) {lists : List (List Node)}
    (h : c.scopes.Records lists)
    (ran : (do openScope; statements body; closeScope : Check Unit) c = .ok () c') :
    c'.redeclared = c.redeclared ++ Node.redeclarations [] body := by
  obtain ⟨_, u, opened, others⟩ := Step.bind_eq_ok_iff.mp ran
  obtain ⟨_, v, within, closed⟩ := Step.bind_eq_ok_iff.mp others
  cases opened
  cases closed
  have inner : v.redeclared = c.redeclared ++ Node.redeclarations [] body :=
    repeats (c := { c with scopes := c.scopes.openScope }) h.openScope within
  exact inner

theorem Repeats.proceed (repeats : Repeats stmt.body) (simple : stmt.expression? ≠ none)
    {lists : List (List Node)} (h : c.scopes.Records lists) (ran : proceed stmt c = .ok () c') :
    c'.redeclared = c.redeclared ++ Node.redeclarations [] stmt.body := by
  cases stmt with
  | conditional paren cond brace body => exact repeats.braces h ran
  | block brace body => exact absurd rfl simple
  | _ =>
      cases ran
      exact (List.append_nil _).symm

/-- One statement: the declaration that it makes itself comes first, and then those between its
braces. -/
theorem Repeats.statement (repeats : Repeats stmt.body) (h : c.scopes.Records (before :: outer))
    (ran : statement stmt c = .ok () c') :
    c'.redeclared = c.redeclared ++ Node.redeclarationsOf before stmt := by
  rw [Node.redeclarationsOf_eq]
  cases part : stmt.expression? with
  | some expr =>
      obtain ⟨compare, d, type, e, e', prepared, looked, compared, proceeded⟩ :=
        steps_of_statement part ran
      have passed := resolved_prepare h prepared
      have scopes : e'.scopes = d.scopes :=
        (scopes_compare prepared compared).trans (scopes_typeOf looked)
      have own : e'.redeclared = c.redeclared ++ (stmt.ownRedeclaration? before).toList :=
        (redeclared_compare prepared compared).trans
          ((redeclared_typeOf looked).trans (redeclared_prepare h prepared))
      have inside := repeats.proceed (by simp [part]) (scopes ▸ passed.records) proceeded
      rw [inside, own, List.append_assoc]
  | none =>
      obtain ⟨brace, body, rfl⟩ | thrown := block_or_throw part
      · simp only [Check.statement] at ran
        exact repeats.braces h ran
      · rw [thrown] at ran
        cases ran

theorem repeats (stmts : List Node) : Repeats stmts := by
  induction stmts using Node.list_induction with
  | nil =>
      intro before outer c c' _ ran
      simp only [statements] at ran
      cases ran
      exact (List.append_nil _).symm
  | cons stmt rest body_ih rest_ih =>
      intro before outer c c' h ran
      simp only [statements] at ran
      obtain ⟨_, d, first, others⟩ := Step.bind_eq_ok_iff.mp ran
      -- The statement is recorded before the others are looked at.
      have recorded := (Follows.statement (follows stmt.body) h first).records
      rw [rest_ih recorded others, body_ih.statement h first, List.append_assoc,
        ← Node.redeclarations]

/-- The first value of a variable is compared with the declared type, unless its own type is
lost. -/
theorem expectMatch_eq (equals : Token) (found type : Ty) (e : Checker) :
    expectMatch equals found type e = .ok () (if found.isError = true ∨ found = type then e
      else e.report (.mismatch found type) equals) := by
  cases lost : found.isError with
  | true => simp [expectMatch, lost]
  | false =>
      simp only [expectMatch, lost, Bool.not_false, Bool.true_and, Bool.not_eq_true',
        ← Bool.not_eq_true, Ty.isMatch_iff lost, Bool.false_eq_true, false_or]
      by_cases fits : found = type
      · simp [fits]
      · simp only [fits, not_false_eq_true, if_true, if_false]
        rfl

/-- A declaration that is checked to its end goes through these steps, whether its name is
repeated or not. -/
theorem steps_of_varDecl {word name equals : Token} {init : Node}
    (ran : statement (.varDecl word name equals init) c = .ok () c') :
    ∃ type d found e, Ty.ofWord? word.text = some type ∧ declare name type c = .ok () d ∧
      typeOf init d = .ok found e ∧
      c' = if found.isError = true ∨ found = type then e
        else e.report (.mismatch found type) equals := by
  simp only [statement] at ran
  obtain ⟨type, u, named, others⟩ := Step.bind_eq_ok_iff.mp ran
  obtain ⟨known, rfl⟩ := declaredType_eq_ok named
  obtain ⟨_, d, declared, others⟩ := Step.bind_eq_ok_iff.mp others
  obtain ⟨found, e, looked, compared⟩ := Step.bind_eq_ok_iff.mp others
  cases (expectMatch_eq equals found type e).symm.trans compared
  exact ⟨type, d, found, e, known, declared, looked, rfl⟩

theorem diagnostics_declare {name : Token} {type : Ty} (h : c.scopes.Records (before :: outer))
    (declared : declare name type c = .ok () d) :
    d.diagnostics =
      c.diagnostics ++ (Node.redeclaration? before name).toList.map Report.diagnostic := by
  rw [Checker.diagnostics, toList_reports_declare h declared, List.map_append]
  rfl

/-- As long as no repeated declaration is reported, no diagnostic is added that says that a name is
declared already. -/
theorem exists_added_diagnostics (grown : c.reports.toList <+: c'.reports.toList)
    (kept : c'.redeclared = c.redeclared) :
    ∃ added, c'.diagnostics = c.diagnostics ++ added ∧ ∀ x ∈ added, ¬ x.IsRedeclared := by
  obtain ⟨reports, split⟩ := grown
  refine ⟨reports.map Report.diagnostic, ?_, ?_⟩
  · rw [Checker.diagnostics, ← split, List.map_append]
    rfl
  · intro x member
    obtain ⟨r, isAdded, rfl⟩ := List.mem_map.mp member
    rw [Checker.redeclared, ← split, List.filter_append, Checker.redeclared,
      List.append_right_eq_self, List.filter_eq_nil_iff] at kept
    rw [← r.isRedeclared_iff]
    exact kept r isAdded

/-- What follows the declaration of a name at its statement reports no repeated declaration. -/
theorem redeclared_init {equals : Token} {init : Node} {type found : Ty} {e : Checker}
    (looked : typeOf init c = .ok found e)
    (compared : expectMatch equals found type e = .ok () c') :
    c.reports.toList <+: c'.reports.toList ∧ c'.redeclared = c.redeclared := by
  refine ⟨((grows_typeOf init).ok looked).trans ((grows_expectMatch _ _ _).ok compared), ?_⟩
  rw [← redeclared_typeOf looked]
  cases (expectMatch_eq equals found type e).symm.trans compared
  split
  · rfl
  · rw [Checker.redeclared_report]
    exact List.append_nil _

end Check

/-- Redeclarations are reported exactly. Take a program that is checked to its end, and any
declaration in it, with the statements before it in its own list. Checking comes to the declaration
in some state and checks it to its end. A redeclaration is reported if and only if one of the
statements before declares the same name. Then there is one such report, and one diagnostic with
its text; it is placed at the new name, and the line it cites is that of the first declaration of
the name in the list. In any case the first value is looked at after that, and compared with the
type that the declaration names itself, which adds no diagnostic about a redeclaration. Altogether
the reports about redeclarations are those that are read off the lists of statements, in their
order, and no other diagnostic has such a text. -/
theorem redeclarations_are_exact {p : Program} {c : Checker}
    (ran : Check.program p .initial = .ok () c) :
    (∀ word name equals init place lists,
      Node.Stands (.varDecl word name equals init) p.stmts place lists →
      ∃ before outer left d d' own after,
        lists = (before ++ [.varDecl word name equals init]) :: outer ∧
        Check.walk.Reaches p.stmts .initial place (.varDecl word name equals init :: left) d ∧
        Check.statement (.varDecl word name equals init) d = .ok () d' ∧
        d'.diagnostics = d.diagnostics ++ own ++ after ∧ (∀ x ∈ after, ¬ x.IsRedeclared) ∧
        (d'.redeclared = d.redeclared ↔ ∀ stmt ∈ before, stmt.declares name.text = false) ∧
        (own = [] ↔ ∀ stmt ∈ before, stmt.declares name.text = false) ∧
        (∀ earlier word' first equals' init' later,
          before = earlier ++ .varDecl word' first equals' init' :: later →
          first.text = name.text → (∀ stmt ∈ earlier, stmt.declares name.text = false) →
          d'.redeclared = d.redeclared ++ [⟨.redeclared name.text first.line, name⟩] ∧
          own = [⟨"Variable '" ++ name.text ++ "' was already declared in this scope at line " ++
            Numeral.decimal first.line ++ ".", name.position⟩]) ∧
        ∃ type u found e, Ty.ofWord? word.text = some type ∧
          Check.declare name type d = .ok () u ∧ u.diagnostics = d.diagnostics ++ own ∧
          Check.typeOf init u = .ok found e ∧
          d' = if found.isError = true ∨ found = type then e
            else e.report (.mismatch found type) equals) ∧
    c.redeclared = Node.redeclarations [] p.stmts ∧
    ∀ r ∈ c.reports, r.isRedeclared = true ↔ r.diagnostic.IsRedeclared := by
  have start : Checker.initial.scopes.Records [[]] := .initial
  refine ⟨?_, Check.repeats p.stmts start ran, fun r _ => r.isRedeclared_iff⟩
  intro word name equals init place lists stands
  obtain ⟨left, d, d', before, outer, reached, checked, around, recorded⟩ :=
    Check.exists_reaches stands start ran
  rw [List.append_nil] at around
  have added : d'.redeclared = d.redeclared ++ (Node.redeclaration? before name).toList :=
    Check.Repeats.statement (Check.repeats _) recorded checked
  -- What the declaration says of its name comes before what is said of its first value.
  obtain ⟨type, u, found, e, known, declared, looked, ended⟩ := Check.steps_of_varDecl checked
  have told := Check.diagnostics_declare recorded declared
  obtain ⟨grown, kept⟩ :=
    Check.redeclared_init looked (ended ▸ Check.expectMatch_eq equals found type e)
  obtain ⟨after, others, silent⟩ := Check.exists_added_diagnostics grown kept
  refine ⟨before, outer, left, d, d', _, after, around, reached, checked, told ▸ others, silent,
    ?_, ?_, ?_, type, u, found, e, known, declared, told, looked, ended⟩
  · rw [added, List.append_right_eq_self, Option.toList_eq_nil_iff,
      Node.redeclaration?_eq_none_iff]
  · rw [List.map_eq_nil_iff, Option.toList_eq_nil_iff, Node.redeclaration?_eq_none_iff]
  · rintro earlier word' first equals' init' later rfl same silent
    rw [added, Node.redeclaration?_of_first same silent]
    exact ⟨rfl, rfl⟩

/-- A declaration that is the third of its name in `Program.repeated`. -/
def Node.third : Node :=
  .varDecl ⟨"boolean", 6, 0⟩ ⟨"x", 6, 8⟩ ⟨"=", 6, 10⟩ (.ident ⟨"x", 6, 12⟩)

/-- A program with declarations of `x` in three lists, of which two repeat it. -/
def Program.repeated : Program where
  stmts := [
    .varDecl ⟨"int", 1, 0⟩ ⟨"x", 1, 4⟩ ⟨"=", 1, 6⟩ (.intLit ⟨"1", 1, 8⟩),
    .block ⟨"\x7b", 2, 0⟩ [
      .varDecl ⟨"boolean", 2, 2⟩ ⟨"x", 2, 10⟩ ⟨"=", 2, 12⟩ (.boolLit ⟨"true", 2, 14⟩),
      .varDecl ⟨"int", 3, 2⟩ ⟨"x", 3, 6⟩ ⟨"=", 3, 8⟩ (.intLit ⟨"2", 3, 10⟩)],
    .varDecl ⟨"boolean", 4, 0⟩ ⟨"x", 4, 8⟩ ⟨"=", 4, 10⟩ (.intLit ⟨"3", 4, 12⟩),
    .block ⟨"\x7b", 5, 0⟩ [
      .varDecl ⟨"int", 5, 2⟩ ⟨"x", 5, 6⟩ ⟨"=", 5, 8⟩ (.intLit ⟨"4", 5, 10⟩)],
    .third]

/-- The third declaration cites the first, and its value is compared with its own type, although
the name keeps the type of the first. -/
theorem redeclarations_are_exact_repeated :
    ∃ c, Check.program .repeated .initial = .ok () c ∧
      c.redeclared = [⟨.redeclared "x" 2, ⟨"x", 3, 6⟩⟩, ⟨.redeclared "x" 1, ⟨"x", 4, 8⟩⟩,
        ⟨.redeclared "x" 1, ⟨"x", 6, 8⟩⟩] ∧
      c.reports.back? = some ⟨.mismatch .int .boolean, ⟨"=", 6, 10⟩⟩ ∧
      ∃ left d d', Check.walk.Reaches Program.repeated.stmts .initial [4] (.third :: left) d ∧
        Check.statement .third d = .ok () d' ∧
        d'.redeclared = d.redeclared ++ [⟨.redeclared "x" 1, ⟨"x", 6, 8⟩⟩] ∧
        ∃ after, (∀ x ∈ after, ¬ x.IsRedeclared) ∧ d'.diagnostics = d.diagnostics ++
          [⟨"Variable 'x' was already declared in this scope at line 1.", ⟨6, 8⟩⟩] ++ after := by
  obtain ⟨stands, all, _⟩ := redeclarations_are_exact (p := .repeated) rfl
  refine ⟨_, rfl, all, rfl, ?_⟩
  obtain ⟨before, outer, left, d, d', own, after, around, reached, ran, told, silent, _, _, cites,
    _⟩ := stands _ _ _ _ [4] _ (.here (Program.repeated.stmts.take 4) [])
  have passed : before = Program.repeated.stmts.take 4 :=
    (List.append_cancel_right (List.cons.inj around).1).symm
  obtain ⟨reported, rfl⟩ := cites [] _ _ _ _ _ passed rfl (by simp)
  exact ⟨left, d, d', reached, ran, reported, after, silent, told⟩

end BlockLang

import BlockLang.Proofs.Messages
import BlockLang.Proofs.Visits
import Mathlib.Data.List.Forall2

/-!
# Names are resolved lexically

Where a name is used, the declarations that can be meant are read off the tree: those that
precede the use in its own statement list, and those that precede, in each of the lists around
that one, the statement in which the use stands. A variable is also visible in its own first
value, so that each list counts up to and including the statement of the use. The first
declaration of the name in the innermost list that has one is the one that is meant.

Checking keeps a stack of scopes instead, and a scope keeps the first symbol of each name.
`ScopeStack.Records` says that the scopes hold what the lists give, and every statement that is
checked to its end keeps it so. Names are therefore resolved as the lists say, and the names
without a declaration are reported, each of them once and at its own token.
-/

namespace BlockLang

namespace Node

/-- Whether the statement declares the name. -/
def declares (name : String) : Node → Bool
  | .varDecl _ declared _ _ => declared.text == name
  | _ => false

theorem declares_of_body {stmt : Node} (braces : stmt.body ≠ []) (name : String) :
    stmt.declares name = false := by
  cases stmt with
  | varDecl => exact absurd rfl braces
  | _ => rfl

/-- The symbol that a declaration introduces, if it names a type of the language. -/
def symbol? : Node → Option Symbol
  | .varDecl word name _ _ =>
    (Ty.ofWord? word.text).map fun type => ⟨name.text, type, name, none⟩
  | _ => none

/-- The first declaration of a name in the first of the lists that has one. -/
def declaration? (name : String) (lists : List (List Node)) : Option Node :=
  lists.findSome? fun list => list.find? (·.declares name)

/-- The variables of an expression, from left to right. -/
def names : Node → List Token
  | .binary _ left right => left.names ++ right.names
  | .ident name => [name]
  | _ => []

/-- The variable that a statement assigns to. -/
def target? : Node → Option Token
  | .assign name _ _ => some name
  | _ => none

/-- The names that a statement uses outside of its braces, in the order in which they are
resolved. -/
def ownNames (stmt : Node) : List Token :=
  stmt.target?.toList ++ stmt.expression?.elim [] names

theorem mem_names_iff {node : Node} {name : Token} :
    name ∈ node.names ↔ ∃ path, node.part? path = some (.ident name) := by
  fun_induction names node with
  | case1 op left right left_ih right_ih =>
      rw [List.mem_append, left_ih, right_ih]
      constructor
      · rintro (⟨path, part⟩ | ⟨path, part⟩)
        · exact ⟨.left :: path, part⟩
        · exact ⟨.right :: path, part⟩
      · rintro ⟨path, part⟩
        cases path with
        | nil => cases part
        | cons side path =>
            cases side with
            | left => exact .inl ⟨path, part⟩
            | right => exact .inr ⟨path, part⟩
  | case2 used =>
      rw [List.mem_singleton]
      constructor
      · rintro rfl
        exact ⟨[], rfl⟩
      · rintro ⟨path, part⟩
        cases path with
        | nil =>
            cases part
            rfl
        | cons side path =>
            rw [part?_cons_of_single (by simp)] at part
            cases part
  | case3 node notBinary notIdent =>
      refine iff_of_false List.not_mem_nil ?_
      rintro ⟨path, part⟩
      cases path with
      | nil =>
          rw [part?_nil] at part
          exact notIdent name (Option.some.inj part)
      | cons side path =>
          rw [part?_cons_of_single notBinary] at part
          cases part

theorem mem_ownNames_iff {stmt : Node} {name : Token} :
    name ∈ stmt.ownNames ↔ stmt.target? = some name ∨
      ∃ expr path, stmt.expression? = some expr ∧ expr.part? path = some (.ident name) := by
  rw [ownNames, List.mem_append, Option.mem_toList]
  cases stmt.expression? with
  | none => simp
  | some expr => simp [mem_names_iff]

/-- A statement stands at a place of a list, possibly between the braces of others. The lists
around it are given innermost first, each up to and including the statement in which it stands;
the innermost of them ends with the statement itself. -/
inductive Stands (stmt : Node) : List Node → Place → List (List Node) → Prop
  | here (before after : List Node) :
      Stands stmt (before ++ stmt :: after) [before.length] [before ++ [stmt]]
  | inside {around : Node} {place : Place} {lists : List (List Node)}
      (within : Stands stmt around.body place lists) (before after : List Node) :
      Stands stmt (before ++ around :: after) (before.length :: place)
        (lists ++ [before ++ [around]])

theorem Stands.ne_nil {stmt : Node} {stmts : List Node} {place : Place}
    {lists : List (List Node)} (h : Stands stmt stmts place lists) : stmts ≠ [] := by
  cases h <;> simp

theorem Stands.place_ne_nil {stmt : Node} {stmts : List Node} {place : Place}
    {lists : List (List Node)} (h : Stands stmt stmts place lists) : place ≠ [] := by
  cases h <;> simp

/-- At a place one statement stands, with the same lists around it. -/
theorem Stands.unique {stmt stmt' : Node} {stmts : List Node} {place : Place}
    {lists lists' : List (List Node)} (h : Stands stmt stmts place lists)
    (h' : Stands stmt' stmts place lists') : stmt' = stmt ∧ lists' = lists := by
  induction h generalizing lists' with
  | here before after =>
      generalize hstmts : before ++ stmt :: after = all, hplace : [before.length] = there at h'
      cases h' with
      | here before' after' =>
          obtain ⟨rfl, rest⟩ := List.append_inj hstmts (List.cons.inj hplace).1
          cases rest
          exact ⟨rfl, rfl⟩
      | inside within before' after' =>
          exact absurd (List.cons.inj hplace).2.symm within.place_ne_nil
  | @inside around place lists within before after ih =>
      generalize hstmts : before ++ around :: after = all,
        hplace : before.length :: place = there at h'
      cases h' with
      | here before' after' => exact absurd (List.cons.inj hplace).2 within.place_ne_nil
      | inside within' before' after' =>
          obtain ⟨rfl, rest⟩ := List.append_inj hstmts (List.cons.inj hplace).1
          cases rest
          cases (List.cons.inj hplace).2
          obtain ⟨rfl, rfl⟩ := ih within'
          exact ⟨rfl, rfl⟩

end Node

section Carrying

variable {σ : Type} {w : Walk σ} {P : List (List Node) → σ → Prop}
variable {stmts left before : List Node} {outer : List (List Node)} {stmt : Node} {s t : σ}
variable {place : Place}

/-- What is known of the state and of the statements passed so far is carried along a walk, to the
place where a statement stands. The passed statements of each list are given innermost first. At
braces a new list begins, and the statement around it counts as passed. -/
theorem Walk.Reaches.carries_after
    (step : ∀ {stmt before outer s t}, P (before :: outer) s → w.statement stmt s = .ok () t →
      P ((before ++ [stmt]) :: outer) t)
    (enter : ∀ {stmt before outer s t}, P (before :: outer) s → w.enter? stmt s = some t →
      P ([] :: (before ++ [stmt]) :: outer) t)
    (reached : w.Reaches stmts s place (stmt :: left) t) (start : P (before :: outer) s) :
    ∃ passed around, P (passed :: (around ++ outer)) t ∧
      Node.Stands stmt (before ++ stmts) (place.modifyHead (· + before.length))
        ((passed ++ [stmt]) :: around) := by
  generalize hrest : stmt :: left = rest at reached
  induction reached generalizing before outer with
  | here =>
      subst hrest
      refine ⟨before, [], start, ?_⟩
      simpa using Node.Stands.here before left
  | @after first others _ _ _ _ n _ ran _ ih =>
      obtain ⟨passed, around, there, stands⟩ := ih (step start ran) hrest
      have count : n + (before ++ [first]).length = n + 1 + before.length := by
        simp only [List.length_append, List.length_singleton]
        omega
      rw [List.modifyHead_cons, count, List.append_assoc] at stands
      exact ⟨passed, around, there, stands⟩
  | @inside first others _ _ _ _ _ entered reached ih =>
      obtain ⟨n, place, rfl⟩ := List.exists_cons_of_ne_nil reached.place_ne_nil
      obtain ⟨passed, around, there, stands⟩ := ih (enter start entered) hrest
      refine ⟨passed, around ++ [before ++ [first]], by simpa using there, ?_⟩
      simpa using stands.inside before others

/-- What holds at the start of a list, and is carried along, holds at every statement that the walk
comes to. -/
theorem Walk.Reaches.carries
    (step : ∀ {stmt before outer s t}, P (before :: outer) s → w.statement stmt s = .ok () t →
      P ((before ++ [stmt]) :: outer) t)
    (enter : ∀ {stmt before outer s t}, P (before :: outer) s → w.enter? stmt s = some t →
      P ([] :: (before ++ [stmt]) :: outer) t)
    (reached : w.Reaches stmts s place (stmt :: left) t) (start : P [[]] s) :
    ∃ passed around, P (passed :: around) t ∧
      Node.Stands stmt stmts place ((passed ++ [stmt]) :: around) := by
  obtain ⟨n, inner, rfl⟩ := List.exists_cons_of_ne_nil reached.place_ne_nil
  obtain ⟨passed, around, there, stands⟩ := reached.carries_after step enter start
  rw [List.append_nil] at there
  exact ⟨passed, around, there, stands⟩

end Carrying

/-- A use of a name, with the statement lists around it, innermost first, each up to and including
the statement in which the use stands. -/
structure Use where
  name : Token
  lists : List (List Node)

namespace Use

/-- The declaration that is meant by the name. -/
def declaration? (use : Use) : Option Node :=
  Node.declaration? use.name.text use.lists

/-- The report about a name without a declaration. -/
def report (use : Use) : Report :=
  ⟨.undeclared use.name.text, use.name⟩

/-- The reports about those of the uses that have no declaration. -/
def reports (uses : List Use) : List Report :=
  (uses.filter fun use => use.declaration?.isNone).map report

mutual

/-- The uses of names in a statement, where the lists around it include its own. -/
def ofStatement (lists : List (List Node)) : Node → List Use
  | .block _ body => ofStatements [] lists body
  | .conditional _ cond _ body => cond.names.map (⟨·, lists⟩) ++ ofStatements [] lists body
  | stmt => stmt.ownNames.map (⟨·, lists⟩)

/-- The uses of names in the statements of a list that come after the statements `before`. -/
def ofStatements (before : List Node) (outer : List (List Node)) : List Node → List Use
  | [] => []
  | stmt :: rest =>
    ofStatement ((before ++ [stmt]) :: outer) stmt ++ ofStatements (before ++ [stmt]) outer rest

end

@[simp] theorem reports_append (uses later : List Use) :
    reports (uses ++ later) = reports uses ++ reports later := by
  simp [reports]

theorem ofStatement_eq (lists : List (List Node)) (stmt : Node) :
    ofStatement lists stmt = stmt.ownNames.map (⟨·, lists⟩) ++ ofStatements [] lists stmt.body := by
  cases stmt <;> simp [ofStatement, ofStatements, Node.ownNames, Node.body, Node.target?,
    Node.expression?]

theorem mem_ofStatements_append {use : Use} {before : List Node} {outer : List (List Node)}
    {stmts : List Node} :
    use ∈ ofStatements before outer stmts ↔ ∃ earlier stmt later,
      stmts = earlier ++ stmt :: later ∧
        use ∈ ofStatement ((before ++ earlier ++ [stmt]) :: outer) stmt := by
  induction stmts generalizing before with
  | nil => simp [ofStatements]
  | cons first rest ih =>
      rw [ofStatements, List.mem_append, ih]
      constructor
      · rintro (here | ⟨earlier, stmt, later, rfl, there⟩)
        · exact ⟨[], first, rest, rfl, by simpa using here⟩
        · exact ⟨first :: earlier, stmt, later, rfl, by simpa using there⟩
      · rintro ⟨earlier, stmt, later, split, used⟩
        cases earlier with
        | nil =>
            cases split
            exact .inl (by simpa using used)
        | cons _ earlier =>
            cases split
            exact .inr ⟨earlier, stmt, later, rfl, by simpa using used⟩

/-- The uses in the list are those of the names that the statements in it use outside of their
braces, with the lists around the statements. -/
def LocatedIn (stmts : List Node) : Prop :=
  ∀ (use : Use) (outer : List (List Node)), use ∈ ofStatements [] outer stmts ↔
    ∃ stmt place lists, Node.Stands stmt stmts place lists ∧ use.lists = lists ++ outer ∧
      use.name ∈ stmt.ownNames

theorem locatedIn_of_bodies {stmts : List Node} (bodies : ∀ stmt ∈ stmts, LocatedIn stmt.body) :
    LocatedIn stmts := by
  intro use outer
  rw [mem_ofStatements_append]
  constructor
  · rintro ⟨earlier, stmt, later, rfl, used⟩
    rw [ofStatement_eq, List.mem_append, bodies stmt (by simp)] at used
    rcases used with own | ⟨inner, place, lists, stands, around, own⟩
    · obtain ⟨name, member, rfl⟩ := List.mem_map.mp own
      exact ⟨stmt, _, _, .here earlier later, rfl, member⟩
    · refine ⟨inner, _, _, .inside stands earlier later, ?_, own⟩
      simpa using around
  · rintro ⟨stmt, place, lists, stands, around, own⟩
    cases stands with
    | here before after =>
        refine ⟨before, stmt, after, rfl, ?_⟩
        rw [ofStatement_eq, List.mem_append]
        refine .inl (List.mem_map.mpr ⟨use.name, own, ?_⟩)
        cases use
        cases around
        rfl
    | @inside surrounding place lists within before after =>
        refine ⟨before, surrounding, after, rfl, ?_⟩
        rw [ofStatement_eq, List.mem_append, bodies surrounding (by simp)]
        exact .inr ⟨stmt, place, lists, within, by simpa using around, own⟩

theorem locatedIn (stmts : List Node) : LocatedIn stmts := by
  -- A list is treated after the lists between the braces of its statements.
  have all : ∀ stmts : List Node, ∀ stmt ∈ stmts, LocatedIn stmt.body := by
    intro stmts
    induction stmts using Node.list_induction with
    | nil =>
        intro stmt member
        cases member
    | cons first rest body_ih rest_ih =>
        intro stmt member
        rcases List.mem_cons.mp member with rfl | later
        · exact locatedIn_of_bodies body_ih
        · exact rest_ih stmt later
  exact locatedIn_of_bodies (all stmts)

theorem mem_ofStatements_iff {use : Use} {stmts : List Node} :
    use ∈ ofStatements [] [] stmts ↔ ∃ stmt place, Node.Stands stmt stmts place use.lists ∧
      (stmt.target? = some use.name ∨ ∃ expr path, stmt.expression? = some expr ∧
        expr.part? path = some (.ident use.name)) := by
  simp only [← Node.mem_ownNames_iff, locatedIn stmts use, List.append_nil]
  constructor
  · rintro ⟨stmt, place, lists, stands, rfl, own⟩
    exact ⟨stmt, place, stands, own⟩
  · rintro ⟨stmt, place, stands, own⟩
    exact ⟨stmt, place, use.lists, stands, rfl, own⟩

end Use

namespace Scope

variable {s : Scope} {before : List Node} {name : String}

/-- The scope holds, under each name, the symbol of the first declaration of the name in the
list. -/
def Records (list : List Node) (s : Scope) : Prop :=
  ∀ name, (list.find? (·.declares name)).map Node.symbol? = (s.find? name).map some

namespace Records

theorem empty : Records [] empty := fun _ => rfl

theorem find?_eq_none_iff (h : Records before s) :
    before.find? (·.declares name) = none ↔ s.find? name = none := by
  rw [← Option.map_eq_none_iff (f := Node.symbol?), h name, Option.map_eq_none_iff]

/-- A statement that declares nothing changes nothing. -/
theorem append_of_silent {stmt : Node} (h : Records before s)
    (silent : ∀ name, stmt.declares name = false) : Records (before ++ [stmt]) s := by
  intro name
  rw [List.find?_append, List.find?_singleton, silent name]
  simpa using h name

/-- The first declaration of a name is put into the scope. -/
theorem append_of_fresh {word token equals : Token} {init : Node} {type : Ty}
    (h : Records before s) (known : Ty.ofWord? word.text = some type)
    (fresh : s.find? token.text = none) :
    Records (before ++ [.varDecl word token equals init])
      (s.insert ⟨token.text, type, token, none⟩) := by
  intro name
  rw [List.find?_append, List.find?_singleton, find?_insert]
  by_cases same : name = token.text
  · subst same
    rw [h.find?_eq_none_iff.mpr fresh]
    simp [Node.declares, Node.symbol?, known]
  · have other : ¬ token.text = name := fun e => same e.symm
    simpa [Node.declares, same, other] using h name

/-- A later declaration of a name does not count. -/
theorem append_of_bound {word token equals : Token} {init : Node} {sym : Symbol}
    (h : Records before s) (bound : s.find? token.text = some sym) :
    Records (before ++ [.varDecl word token equals init]) s := by
  intro name
  rw [← h name, List.find?_append, List.find?_singleton]
  by_cases same : name = token.text
  · subst same
    cases first : before.find? (·.declares token.text) with
    | some decl => rfl
    | none =>
        rw [h.find?_eq_none_iff.mp first] at bound
        cases bound
  · have other : ¬ token.text = name := fun e => same e.symm
    simp [Node.declares, other]

end Records

end Scope

namespace ScopeStack

variable {s : ScopeStack} {list before : List Node} {lists outer : List (List Node)}

/-- Each scope holds the first declarations in its list. -/
def Records (lists : List (List Node)) (s : ScopeStack) : Prop :=
  List.Forall₂ Scope.Records lists s.scopes

namespace Records

theorem initial : Records [[]] initial :=
  .cons .empty .nil

theorem openScope (h : Records lists s) : Records ([] :: lists) s.openScope :=
  .cons .empty h

theorem closeScope (h : Records (list :: lists) s) : Records lists s.closeScope := by
  obtain ⟨scopes⟩ := s
  cases h with
  | cons _ outer => exact outer

/-- The innermost symbol of a name is that of the declaration that is meant by it. -/
theorem lookup? (h : Records lists s) (name : String) :
    (Node.declaration? name lists).map Node.symbol? = (s.lookup? name).map some := by
  obtain ⟨scopes⟩ := s
  change List.Forall₂ Scope.Records lists scopes at h
  change _ = (findIn? name scopes).map some
  induction h with
  | nil => rfl
  | @cons list scope _ _ same _ ih =>
      have here := same name
      simp only [Node.declaration?, findIn?, List.findSome?_cons] at ih ⊢
      cases bound : scope.find? name with
      | none =>
          rw [same.find?_eq_none_iff.mpr bound]
          exact ih
      | some sym =>
          rw [bound] at here
          obtain ⟨decl, found, known⟩ := Option.map_eq_some_iff.mp here
          simpa [found] using known

theorem lookup?_eq_none (h : Records lists s) {name : String}
    (unbound : Node.declaration? name lists = none) : s.lookup? name = none := by
  have same := h.lookup? name
  rw [unbound] at same
  exact Option.map_eq_none_iff.mp same.symm

theorem exists_lookup?_eq_some (h : Records lists s) {name : String} {decl : Node}
    (meant : Node.declaration? name lists = some decl) :
    ∃ sym, decl.symbol? = some sym ∧ s.lookup? name = some sym := by
  have same := h.lookup? name
  rw [meant] at same
  obtain ⟨sym, found, known⟩ := Option.map_eq_some_iff.mp same.symm
  exact ⟨sym, known.symm, found⟩

theorem append_of_silent {stmt : Node} (h : Records (before :: outer) s)
    (silent : ∀ name, stmt.declares name = false) : Records ((before ++ [stmt]) :: outer) s := by
  obtain ⟨scopes⟩ := s
  cases h with
  | cons innermost others => exact .cons (innermost.append_of_silent silent) others

end Records

end ScopeStack

/-- The reports about names without a declaration, in order. -/
def Checker.undeclared (c : Checker) : List Report :=
  c.reports.toList.filter Report.isUndeclared

theorem Checker.undeclared_report (c : Checker) (problem : Problem) (token : Token) :
    (c.report problem token).undeclared =
      c.undeclared ++ [Report.mk problem token].filter Report.isUndeclared := by
  simp [undeclared, report]

namespace Check

variable {c c' d : Checker} {stmt : Node} {before : List Node} {lists outer : List (List Node)}

/-- Between two states of checking the names are resolved that are used, and the lists are
passed that are recorded in the end. -/
structure Resolved (lists : List (List Node)) (uses : List Use) (c c' : Checker) : Prop where
  records : c'.scopes.Records lists
  undeclared : c'.undeclared = c.undeclared ++ Use.reports uses

theorem Resolved.trans {lists' : List (List Node)} {uses later : List Use}
    (first : Resolved lists uses c d) (second : Resolved lists' later d c') :
    Resolved lists' (uses ++ later) c c' where
  records := second.records
  undeclared := by
    rw [second.undeclared, first.undeclared, Use.reports_append, List.append_assoc]

/-- What reports no name without a declaration and leaves the scopes as they are. -/
theorem Resolved.quiet (h : c.scopes.Records lists) (same : c'.scopes = c.scopes)
    (none : c'.undeclared = c.undeclared) : Resolved lists [] c c' where
  records := same ▸ h
  undeclared := none.trans (List.append_nil _).symm

theorem resolved_resolve {name : Token} {target : Option Symbol} (h : c.scopes.Records lists)
    (ran : resolve name c = .ok target d) : Resolved lists [⟨name, lists⟩] c d := by
  cases meant : Node.declaration? name.text lists with
  | none =>
      cases (resolve_of_none (h.lookup?_eq_none meant)).symm.trans ran
      refine ⟨h, ?_⟩
      rw [Checker.undeclared_report]
      simp [Use.reports, Use.declaration?, meant, Report.isUndeclared, Use.report]
  | some decl =>
      obtain ⟨sym, _, found⟩ := h.exists_lookup?_eq_some meant
      cases (resolve_of_some found).symm.trans ran
      refine ⟨h, ?_⟩
      simp [Use.reports, Use.declaration?, meant]

theorem resolved_operation {op : Token} {left right type : Ty} (h : c.scopes.Records lists)
    (operated : operation op left right c = .ok type d) : Resolved lists [] c d := by
  refine .quiet h (scopes_operation operated) ?_
  obtain rfl | rfl := operation_outcome operated
  · rfl
  · exact (Checker.undeclared_report _ _ _).trans (List.append_nil _)

/-- An expression resolves its variables from left to right. -/
theorem resolved_typeOf {node : Node} {type : Ty} (h : c.scopes.Records lists)
    (looked : typeOf node c = .ok type c') :
    Resolved lists (node.names.map (⟨·, lists⟩)) c c' := by
  fun_induction typeOf node generalizing c c' type with
  | case1 =>
      cases looked
      exact .quiet h rfl rfl
  | case2 =>
      cases looked
      exact .quiet h rfl rfl
  | case3 name =>
      obtain ⟨target, u, resolved, given⟩ := Step.bind_eq_ok_iff.mp looked
      cases target with
      | none =>
          cases given
          exact resolved_resolve h resolved
      | some sym =>
          cases given
          exact resolved_resolve h resolved
  | case4 op left right left_ih right_ih =>
      rw [← typeOf] at looked
      obtain ⟨leftType, u, rightType, v, leftLooked, rightLooked, operated⟩ :=
        typeOf_binary_eq_ok_iff.mp looked
      have inLeft := left_ih h leftLooked
      have inRight := right_ih inLeft.records rightLooked
      have all := (inLeft.trans inRight).trans (resolved_operation inRight.records operated)
      rwa [List.append_nil, ← List.map_append] at all
  | case5 => cases looked

theorem declaredType_eq_ok {word : Token} {type : Ty} (named : declaredType word c = .ok type d) :
    Ty.ofWord? word.text = some type ∧ d = c := by
  cases known : Ty.ofWord? word.text with
  | none =>
      simp only [declaredType, known] at named
      cases named
  | some found =>
      simp only [declaredType, known] at named
      cases named
      exact ⟨rfl, rfl⟩

/-- A declaration is recorded, whether it is the first of its name or reported as a later
one. -/
theorem resolved_declare {word name equals : Token} {init : Node} {type : Ty}
    (h : c.scopes.Records (before :: outer)) (known : Ty.ofWord? word.text = some type)
    (declared : declare name type c = .ok () d) :
    Resolved ((before ++ [.varDecl word name equals init]) :: outer) [] c d := by
  obtain ⟨⟨scopes⟩, reports⟩ := c
  cases h with
  | @cons _ innermost _ outermost same others =>
      simp only [declare, Step.get_bind_apply, ScopeStack.declare] at declared
      cases bound : innermost.find? name.text with
      | none =>
          rw [bound] at declared
          cases declared
          exact ⟨.cons (same.append_of_fresh known bound) others, (List.append_nil _).symm⟩
      | some sym =>
          rw [bound] at declared
          cases declared
          refine ⟨.cons (same.append_of_bound bound) others, ?_⟩
          exact Checker.undeclared_report _ _ _

/-- A statement is prepared by declaring or resolving its own name, and its expression is
looked at when the statement itself is recorded. -/
theorem resolved_prepare {compare : Ty → Check Unit} (h : c.scopes.Records (before :: outer))
    (prepared : prepare stmt c = .ok compare d) :
    Resolved ((before ++ [stmt]) :: outer)
      (stmt.target?.toList.map (⟨·, (before ++ [stmt]) :: outer⟩)) c d := by
  cases stmt with
  | varDecl word name equals init =>
      obtain ⟨type, u, named, others⟩ := Step.bind_eq_ok_iff.mp prepared
      obtain ⟨_, v, declared, given⟩ := Step.bind_eq_ok_iff.mp others
      cases given
      obtain ⟨known, rfl⟩ := declaredType_eq_ok named
      exact resolved_declare h known declared
  | assign name equals value =>
      obtain ⟨target, u, resolved, given⟩ := Step.bind_eq_ok_iff.mp prepared
      have passed : c.scopes.Records ((before ++ [.assign name equals value]) :: outer) :=
        h.append_of_silent fun _ => rfl
      cases target with
      | none =>
          cases given
          exact resolved_resolve passed resolved
      | some sym =>
          cases given
          exact resolved_resolve passed resolved
  | _ =>
      cases prepared
      exact .quiet (h.append_of_silent fun _ => rfl) rfl rfl

section Targets

variable {name equals : Token} {value : Node} {sym : Symbol}

theorem prepare_assign_of_some (found : c.scopes.lookup? name.text = some sym) :
    prepare (.assign name equals value) c =
      .ok (fun type => expectMatch equals type sym.type) c := by
  rw [prepare, Step.bind_of_ok (resolve_of_some found)]
  rfl

theorem prepare_assign_of_none (unbound : c.scopes.lookup? name.text = none) :
    prepare (.assign name equals value) c =
      .ok (fun _ => pure ()) (c.report (.undeclared name.text) name) := by
  rw [prepare, Step.bind_of_ok (resolve_of_none unbound)]
  rfl

end Targets

theorem resolved_compare {compare : Ty → Check Unit} {type : Ty} {e : Checker}
    (h : e.scopes.Records lists) (prepared : prepare stmt c = .ok compare d)
    (compared : compare type e = .ok () c') : Resolved lists [] e c' := by
  refine .quiet h (scopes_compare prepared compared) ?_
  obtain same | ⟨_, problem, token, made, about⟩ := compare_cases prepared type e
  · cases same.symm.trans compared
    rfl
  · cases made.symm.trans compared
    rw [Checker.undeclared_report]
    obtain rfl | ⟨expected, rfl⟩ := about
    · exact List.append_nil _
    · exact List.append_nil _

/-- The names in the statements are resolved in order. -/
def Follows (stmts : List Node) : Prop :=
  ∀ {before outer} {c c' : Checker}, c.scopes.Records (before :: outer) →
    statements stmts c = .ok () c' →
      Resolved ((before ++ stmts) :: outer) (Use.ofStatements before outer stmts) c c'

/-- Braces leave nothing in the scopes. -/
theorem Follows.braces {body : List Node} (follows : Follows body) (h : c.scopes.Records lists)
    (ran : (do openScope; statements body; closeScope : Check Unit) c = .ok () c') :
    Resolved lists (Use.ofStatements [] lists body) c c' := by
  obtain ⟨_, u, opened, others⟩ := Step.bind_eq_ok_iff.mp ran
  obtain ⟨_, v, within, closed⟩ := Step.bind_eq_ok_iff.mp others
  cases opened
  cases closed
  have inner := follows h.openScope within
  exact ⟨inner.records.closeScope, inner.undeclared⟩

theorem Follows.proceed (follows : Follows stmt.body) (simple : stmt.expression? ≠ none)
    (h : c.scopes.Records lists) (ran : proceed stmt c = .ok () c') :
    Resolved lists (Use.ofStatements [] lists stmt.body) c c' := by
  cases stmt with
  | conditional paren cond brace body => exact follows.braces h ran
  | block brace body => exact absurd rfl simple
  | _ =>
      cases ran
      simpa [Node.body, Use.ofStatements] using Resolved.quiet h rfl rfl

/-- One statement: it is recorded, and the names in it are resolved, those between its braces
last. -/
theorem Follows.statement (follows : Follows stmt.body) (h : c.scopes.Records (before :: outer))
    (ran : statement stmt c = .ok () c') :
    Resolved ((before ++ [stmt]) :: outer) (Use.ofStatement ((before ++ [stmt]) :: outer) stmt)
      c c' := by
  rw [Use.ofStatement_eq]
  cases part : stmt.expression? with
  | some expr =>
      -- From the first step on the statement itself is recorded, so that a declared variable is
      -- visible in its own first value.
      obtain ⟨compare, d, type, e, e', prepared, looked, compared, proceeded⟩ :=
        steps_of_statement part ran
      have first := resolved_prepare h prepared
      have second := first.trans (resolved_typeOf first.records looked)
      have third := second.trans (resolved_compare second.records prepared compared)
      have fourth := third.trans (follows.proceed (by simp [part]) third.records proceeded)
      simpa [Node.ownNames, part] using fourth
  | none =>
      obtain ⟨brace, body, rfl⟩ | thrown := block_or_throw part
      · simp only [Check.statement] at ran
        exact follows.braces (h.append_of_silent fun _ => rfl) ran
      · rw [thrown] at ran
        cases ran

/-- Statements that are checked to their end are recorded, and the names in them are resolved in
order. -/
theorem follows (stmts : List Node) : Follows stmts := by
  induction stmts using Node.list_induction with
  | nil =>
      intro before outer c c' h ran
      simp only [statements] at ran
      cases ran
      simpa [Use.ofStatements] using Resolved.quiet h rfl rfl
  | cons stmt rest body_ih rest_ih =>
      intro before outer c c' h ran
      simp only [statements] at ran
      obtain ⟨_, d, first, others⟩ := Step.bind_eq_ok_iff.mp ran
      have passed := body_ih.statement h first
      have remaining := passed.trans (rest_ih passed.records others)
      simpa [Use.ofStatements] using remaining

theorem statements_append_eq_ok {first second : List Node}
    (ran : statements (first ++ second) c = .ok () c') :
    ∃ d, statements first c = .ok () d ∧ statements second d = .ok () c' := by
  induction first generalizing c with
  | nil => exact ⟨c, rfl, ran⟩
  | cons stmt rest ih =>
      simp only [List.cons_append, statements] at ran ⊢
      obtain ⟨_, u, passed, others⟩ := Step.bind_eq_ok_iff.mp ran
      obtain ⟨d, remaining, later⟩ := ih others
      exact ⟨d, Step.bind_eq_ok_iff.mpr ⟨(), u, passed, remaining⟩, later⟩

/-- A place after some statements is come to through these statements. -/
theorem reaches_after {earlier rest left : List Node} {n : Nat} {place : Place} {e : Checker}
    (ran : statements earlier c = .ok () d) (reached : walk.Reaches rest d (n :: place) left e) :
    walk.Reaches (earlier ++ rest) c ((n + earlier.length) :: place) left e := by
  induction earlier generalizing c with
  | nil =>
      cases ran
      exact reached
  | cons stmt others ih =>
      simp only [statements] at ran
      obtain ⟨_, u, passed, remaining⟩ := Step.bind_eq_ok_iff.mp ran
      exact .after passed (ih remaining)

/-- Braces with statements between them are entered, with a new scope. -/
theorem exists_enter? (ran : statement stmt c = .ok () c') (braces : stmt.body ≠ []) :
    ∃ d, enter? stmt c = some d ∧ d.scopes = c.scopes.openScope := by
  cases stmt with
  | block brace body => exact ⟨_, rfl, rfl⟩
  | conditional paren cond brace body =>
      have part : (Node.conditional paren cond brace body).expression? = some cond := rfl
      obtain ⟨compare, d, type, e, e', prepared, looked, compared, _⟩ := steps_of_statement part ran
      have kept := (scopes_compare prepared compared).trans (scopes_typeOf looked)
      cases prepared
      have opened :
          openConditional paren cond c = .ok () { e' with scopes := e'.scopes.openScope } := by
        rw [openConditional, Step.bind_of_ok looked, Step.bind_of_ok compared]
        rfl
      exact ⟨{ e' with scopes := e'.scopes.openScope }, by simp only [enter?, opened], by rw [kept]⟩
  | _ => exact absurd rfl braces

/-- Checking comes to every statement of a list that it checks to its end. There the scopes
record what precedes the statement in the lists around it. -/
theorem exists_reaches {stmts : List Node} {place : Place}
    (stands : Node.Stands stmt stmts place lists) (h : c.scopes.Records ([] :: outer))
    (ran : statements stmts c = .ok () c') :
    ∃ left d d' before others, walk.Reaches stmts c place (stmt :: left) d ∧
      statement stmt d = .ok () d' ∧ lists ++ outer = (before ++ [stmt]) :: others ∧
      d.scopes.Records (before :: others) := by
  induction stands generalizing c c' outer with
  | here before after =>
      obtain ⟨d, passed, others⟩ := statements_append_eq_ok ran
      simp only [statements] at others
      obtain ⟨_, d', own, _⟩ := Step.bind_eq_ok_iff.mp others
      refine ⟨after, d, d', before, outer, ?_, own, rfl, (follows before h passed).records⟩
      simpa using reaches_after passed (.here _ _)
  | @inside around place lists within before after ih =>
      obtain ⟨d, passed, others⟩ := statements_append_eq_ok ran
      simp only [statements] at others
      obtain ⟨_, d', own, _⟩ := Step.bind_eq_ok_iff.mp others
      -- The statement around has braces, so it declares nothing and a new scope is opened for the
      -- list between them.
      obtain ⟨e, entered, opened⟩ := exists_enter? own within.ne_nil
      obtain ⟨e', body, _⟩ := (walk.statement_eq_ok_iff entered).mp own
      rw [← statements_eq_walk] at body
      have start : e.scopes.Records ([] :: (before ++ [around]) :: outer) := by
        rw [opened]
        have recorded : d.scopes.Records (before :: outer) := (follows before h passed).records
        exact (recorded.append_of_silent (Node.declares_of_body within.ne_nil)).openScope
      obtain ⟨left, u, u', inList, others, reached, inner, around, recorded⟩ := ih start body
      refine ⟨left, u, u', inList, others, ?_, inner, ?_, recorded⟩
      · simpa using reaches_after passed (.inside entered reached)
      · simpa using around

end Check

/-- Names are resolved lexically. Take a program that is checked to its end, and any statement in
it, with the lists around the statement. Checking comes to the statement in some state. If the
statement assigns to a name, and if its expression has a variable at the end of a path, then the
outcome depends on the declaration that is meant by the name there: without one, the name is
reported at its own token, and otherwise it has the type of the declaration and nothing is
reported. The uses of names in the program are these targets and variables, with the lists around
them, and altogether the reports about undeclared names are those about the uses without a
declaration, one for each of them and in their order. Their diagnostics say so of the name at the
place where it is used, and no other diagnostic has such a text. -/
theorem names_resolve_lexically {p : Program} {c : Checker}
    (ran : Check.program p .initial = .ok () c) :
    (∀ stmt place lists, Node.Stands stmt p.stmts place lists →
      ∃ left d, Check.walk.Reaches p.stmts .initial place (stmt :: left) d ∧
        (∀ name equals value, stmt = .assign name equals value →
          (Node.declaration? name.text lists = none →
            Check.prepare stmt d = .ok (fun _ => pure ()) (d.report (.undeclared name.text) name)) ∧
          ∀ decl, Node.declaration? name.text lists = some decl →
            ∃ sym, decl.symbol? = some sym ∧
              Check.prepare stmt d = .ok (fun found => Check.expectMatch equals found sym.type) d) ∧
        ∀ expr, stmt.expression? = some expr →
          ∃ compare e, Check.prepare stmt d = .ok compare e ∧
            ∀ path name, expr.part? path = some (.ident name) →
              ∃ u, Check.Visits e expr path (.ident name) u ∧
                (Node.declaration? name.text lists = none →
                  Check.typeOf (.ident name) u =
                    .ok .error (u.report (.undeclared name.text) name)) ∧
                ∀ decl, Node.declaration? name.text lists = some decl →
                  ∃ sym, decl.symbol? = some sym ∧
                    Check.typeOf (.ident name) u = .ok sym.type u) ∧
    (∀ use, use ∈ Use.ofStatements [] [] p.stmts ↔
      ∃ stmt place, Node.Stands stmt p.stmts place use.lists ∧
        (stmt.target? = some use.name ∨ ∃ expr path, stmt.expression? = some expr ∧
          expr.part? path = some (.ident use.name))) ∧
    c.reports.toList.filter Report.isUndeclared = Use.reports (Use.ofStatements [] [] p.stmts) ∧
    (c.reports.toList.filter Report.isUndeclared).map Report.diagnostic =
      ((Use.ofStatements [] [] p.stmts).filter fun use => use.declaration?.isNone).map
        (fun use => ⟨"Variable '" ++ use.name.text ++ "' has not been declared.",
          use.name.position⟩) ∧
    ∀ r ∈ c.reports, r.isUndeclared = true ↔ r.diagnostic.IsUndeclared := by
  have start : Checker.initial.scopes.Records [[]] := .initial
  have reported := (Check.follows p.stmts start ran).undeclared
  refine ⟨?_, fun use => Use.mem_ofStatements_iff, reported,
    (congrArg (List.map Report.diagnostic) reported).trans List.map_map,
    fun r _ => r.isUndeclared_iff⟩
  intro stmt place lists stands
  obtain ⟨left, d, d', before, outer, reached, own, around, recorded⟩ :=
    Check.exists_reaches stands start ran
  rw [List.append_nil] at around
  subst around
  refine ⟨left, d, reached, ?_, ?_⟩
  · rintro name equals value rfl
    have there : d.scopes.Records ((before ++ [.assign name equals value]) :: outer) :=
      recorded.append_of_silent fun _ => rfl
    refine ⟨?_, ?_⟩
    · intro unbound
      exact Check.prepare_assign_of_none (there.lookup?_eq_none unbound)
    · intro decl meant
      obtain ⟨sym, known, found⟩ := there.exists_lookup?_eq_some meant
      exact ⟨sym, known, Check.prepare_assign_of_some found⟩
  · intro expr part
    obtain ⟨compare, e, type, e', _, prepared, looked, _⟩ := Check.steps_of_statement part own
    refine ⟨compare, e, prepared, ?_⟩
    intro path name stands
    obtain ⟨u, _, _, visits, _⟩ := Check.exists_visits looked stands
    have there : u.scopes.Records ((before ++ [stmt]) :: outer) := by
      rw [visits.scopes_eq]
      exact (Check.resolved_prepare recorded prepared).records
    refine ⟨u, visits, ?_, ?_⟩
    · intro unbound
      exact Check.typeOf_ident_of_none (there.lookup?_eq_none unbound)
    · intro decl meant
      obtain ⟨sym, known, found⟩ := there.exists_lookup?_eq_some meant
      exact ⟨sym, known, Check.typeOf_ident_of_some found⟩

/-- A declaration that shadows the outer variables of its name and reads itself. -/
def Node.selfish : Node :=
  .varDecl ⟨"boolean", 3, 2⟩ ⟨"x", 3, 10⟩ ⟨"=", 3, 12⟩ (.ident ⟨"x", 3, 14⟩)

/-- A program with the variable `x` declared twice in a list and again in a block, with an
undeclared `q` in that block, and with a use of `z` after the block that declares it. -/
def Program.layered : Program where
  stmts := [
    .varDecl ⟨"int", 1, 0⟩ ⟨"x", 1, 4⟩ ⟨"=", 1, 6⟩ (.intLit ⟨"1", 1, 8⟩),
    .varDecl ⟨"boolean", 2, 0⟩ ⟨"x", 2, 8⟩ ⟨"=", 2, 10⟩ (.boolLit ⟨"true", 2, 12⟩),
    .block ⟨"\x7b", 3, 0⟩ [.selfish, .assign ⟨"x", 3, 17⟩ ⟨"=", 3, 19⟩ (.ident ⟨"q", 3, 21⟩)],
    .block ⟨"\x7b", 4, 0⟩
      [.varDecl ⟨"int", 4, 2⟩ ⟨"z", 4, 6⟩ ⟨"=", 4, 8⟩ (.ident ⟨"x", 4, 10⟩)],
    .assign ⟨"z", 5, 0⟩ ⟨"=", 5, 2⟩ (.ident ⟨"x", 5, 4⟩)]

theorem names_resolve_lexically_layered :
    ∃ c, Check.program .layered .initial = .ok () c ∧
      (c.reports.toList.filter Report.isUndeclared).map (·.token.text) = ["q", "z"] ∧
      (c.reports.toList.filter Report.isUndeclared).map Report.diagnostic =
        [⟨"Variable 'q' has not been declared.", ⟨3, 21⟩⟩,
          ⟨"Variable 'z' has not been declared.", ⟨5, 0⟩⟩] ∧
      ∃ left d compare e u,
        Check.walk.Reaches Program.layered.stmts .initial [2, 0] (.selfish :: left) d ∧
        Check.prepare .selfish d = .ok compare e ∧
        Check.Visits e (.ident ⟨"x", 3, 14⟩) [] (.ident ⟨"x", 3, 14⟩) u ∧
        Check.typeOf (.ident ⟨"x", 3, 14⟩) u = .ok .boolean u := by
  refine ⟨_, rfl, ?_, ?_, ?_⟩
  · obtain ⟨_, _, undeclared, _⟩ := names_resolve_lexically (p := .layered) rfl
    rw [undeclared]
    rfl
  · obtain ⟨_, _, _, told, _⟩ := names_resolve_lexically (p := .layered) rfl
    exact told
  · obtain ⟨stands, _⟩ := names_resolve_lexically (p := .layered) rfl
    obtain ⟨left, d, reached, _, looks⟩ :=
      stands .selfish [2, 0] _ (.inside (.here [] _) (Program.layered.stmts.take 2) _)
    obtain ⟨compare, e, prepared, resolves⟩ := looks _ rfl
    obtain ⟨u, visits, _, meant⟩ := resolves [] _ rfl
    obtain ⟨sym, known, looked⟩ := meant .selfish rfl
    cases known
    exact ⟨left, d, compare, e, u, reached, prepared, visits, looked⟩

end BlockLang

import BlockLang.Proofs.Sessions
import BlockLang.Proofs.Visits

/-!
# Errors are reported once

An expression whose type is lost has been reported somewhere inside, and nothing more is
reported about it: not by an operator around it, and not by the statement it stands in. This
holds in every state that a session can bring checking into.

It rests on an invariant of all such states, `Checker.Proper`: no scope holds a symbol without
a type, so that looking at a name either reports it or gives a type of the language. So the
messages of the reports show such types only. A session goes on after a fault, and so the invariant
must hold of the states in which steps fail, too. `Check.Keeps` says so of a step, together with
what the step answers.

For the reports of one expression, `Check.Locates` lists them with the paths of the parts that
they are about. No path in the list leads to a part of another one.
-/

namespace BlockLang

/-- The type is one of the language. -/
def Ty.Proper (t : Ty) : Prop :=
  t = .int ∨ t = .boolean

theorem Ty.Proper.render {t : Ty} (h : t.Proper) : t.render = "int" ∨ t.render = "boolean" := by
  rcases h with rfl | rfl
  · exact .inl rfl
  · exact .inr rfl

/-- The report names its own token, if it names any, and shows types of the language only. -/
structure Report.Proper (r : Report) : Prop where
  named : ∀ name ∈ r.problem.subject?, name = r.token.text
  shown : ∀ type ∈ r.problem.types, type.Proper

namespace Report.Proper

variable {token : Token} {left right found expected : Ty}

theorem undeclared (name : Token) : Proper ⟨.undeclared name.text, name⟩ :=
  ⟨by simp [Problem.subject?], by simp [Problem.types]⟩

theorem redeclared (name : Token) (line : Int) : Proper ⟨.redeclared name.text line, name⟩ :=
  ⟨by simp [Problem.subject?], by simp [Problem.types]⟩

theorem mismatch (h : found.Proper) (h' : expected.Proper) :
    Proper ⟨.mismatch found expected, token⟩ :=
  ⟨by simp [Problem.subject?], by simp [Problem.types, h, h']⟩

theorem operands (h : left.Proper) (h' : right.Proper) :
    Proper ⟨.operands token.text left right, token⟩ :=
  ⟨by simp [Problem.subject?], by simp [Problem.types, h, h']⟩

theorem condition (h : found.Proper) : Proper ⟨.condition found, token⟩ :=
  ⟨by simp [Problem.subject?], by simp [Problem.types, h]⟩

/-- The message has the wording of its problem, with the text of the token and with the words
for types of the language. -/
theorem exists_wording {r : Report} (h : r.Proper) :
    ∃ subject shown, Problem.Wording subject shown r.diagnostic.message ∧
      (∀ name ∈ subject, name = r.token.text) ∧
      ∀ text ∈ shown, text = "int" ∨ text = "boolean" := by
  refine ⟨_, _, r.problem.wording, h.named, ?_⟩
  intro text member
  obtain ⟨type, isShown, rfl⟩ := List.mem_map.mp member
  exact (h.shown type isShown).render

end Report.Proper

/-- What holds of every state of checking: the symbols have types of the language, and the
reports are proper. -/
structure Checker.Proper (c : Checker) : Prop where
  typed : c.scopes.All Symbol.Typed
  reported : ∀ r ∈ c.reports.toList, r.Proper

namespace Checker.Proper

variable {c : Checker}

theorem initial : Checker.initial.Proper where
  typed := ScopeStack.all_initial
  reported := by
    intro r member
    cases member

theorem withScopes {scopes : ScopeStack} (h : c.Proper) (typed : scopes.All Symbol.Typed) :
    Proper { c with scopes := scopes } :=
  ⟨typed, h.reported⟩

theorem report {problem : Problem} {token : Token} (h : c.Proper)
    (proper : Report.Proper ⟨problem, token⟩) : (c.report problem token).Proper := by
  refine ⟨h.typed, ?_⟩
  intro r member
  rw [Checker.report, Array.toList_push, List.mem_append, List.mem_singleton] at member
  rcases member with earlier | rfl
  · exact h.reported r earlier
  · exact proper

end Checker.Proper

namespace Check

variable {α β : Type}

/-- The step keeps states proper, whether it succeeds or fails, and answers as stated. -/
def Keeps (step : Check α) (Q : α → Prop) : Prop :=
  ∀ c : Checker, c.Proper →
    (Step.endState (step c)).Proper ∧ ∀ a c', step c = .ok a c' → Q a

namespace Keeps

variable {Q : α → Prop} {R : β → Prop}

theorem ok {step : Check α} (h : Keeps step Q) {c c' : Checker} {a : α} (proper : c.Proper)
    (ran : step c = .ok a c') : c'.Proper ∧ Q a := by
  obtain ⟨kept, answers⟩ := h c proper
  rw [ran] at kept
  exact ⟨kept, answers a c' ran⟩

theorem pure {a : α} (h : Q a) : Keeps (pure a) Q := by
  intro c proper
  refine ⟨proper, ?_⟩
  rintro _ _ ⟨⟩
  exact h

theorem throw (f : Fault) : Keeps (throw f) Q := by
  intro c proper
  refine ⟨proper, ?_⟩
  rintro _ _ ⟨⟩

theorem modify {g : Checker → Checker} (kept : ∀ c, c.Proper → (g c).Proper) :
    Keeps (modify g) fun _ => True :=
  fun c proper => ⟨kept c proper, fun _ _ _ => trivial⟩

theorem bind {x : Check α} {f : α → Check β} (first : Keeps x Q)
    (second : ∀ a, Q a → Keeps (f a) R) : Keeps (x >>= f) R := by
  intro c proper
  obtain ⟨kept, answers⟩ := first c proper
  change (Step.endState (EStateM.bind x f c)).Proper ∧ ∀ b c', EStateM.bind x f c = .ok b c' → R b
  unfold EStateM.bind
  cases h : x c with
  | ok a u =>
      rw [h] at kept
      exact second a (answers a u h) u kept
  | error e u =>
      rw [h] at kept
      refine ⟨kept, ?_⟩
      rintro _ _ ⟨⟩

end Keeps

/-- The type is one of the language, or lost. -/
def Given (type : Ty) : Prop :=
  type = .error ∨ type.Proper

theorem keeps_report {problem : Problem} {token : Token} (h : Report.Proper ⟨problem, token⟩) :
    Keeps (report problem token) fun _ => True :=
  .modify fun _ proper => proper.report h

theorem keeps_openScope : Keeps openScope fun _ => True :=
  .modify fun _ proper => proper.withScopes proper.typed.openScope

theorem keeps_closeScope : Keeps closeScope fun _ => True :=
  .modify fun _ proper => proper.withScopes proper.typed.closeScope

theorem keeps_declaredType (word : Token) : Keeps (declaredType word) Ty.Proper := by
  unfold declaredType
  split
  · rename_i known
    obtain ⟨rfl, _⟩ | ⟨rfl, _⟩ := Ty.ofWord?_eq_some known
    · exact .pure (.inl rfl)
    · exact .pure (.inr rfl)
  · exact .throw _

theorem keeps_declare (name : Token) {type : Ty} (proper : type.Proper) :
    Keeps (declare name type) fun _ => True := by
  intro c before
  refine ⟨?_, fun _ _ _ => trivial⟩
  simp only [declare, Step.get_bind_apply]
  cases declared : c.scopes.declare name.text type name with
  | ok scopes =>
      have inserted := (ScopeStack.declare_eq_ok_iff.mp declared).2
      exact before.withScopes (before.typed.insert? inserted proper)
  | error e =>
      cases e with
      | noScope => exact before
      | redeclared earlier token line =>
          obtain ⟨rfl, rfl⟩ := ScopeStack.declare_eq_redeclared declared
          exact before.report (.redeclared _ line)

theorem keeps_resolve (name : Token) :
    Keeps (resolve name) fun target => ∀ sym, target = some sym → sym.type.Proper := by
  intro c before
  cases found : c.scopes.lookup? name.text with
  | some sym =>
      rw [resolve_of_some found]
      refine ⟨before, ?_⟩
      rintro _ _ ⟨⟩ _ ⟨⟩
      exact before.typed.lookup? found
  | none =>
      rw [resolve_of_none found]
      refine ⟨before.report (.undeclared name), ?_⟩
      rintro _ _ ⟨⟩ _ ⟨⟩

/-- A type that is given and not lost is one of the language. -/
theorem Given.proper {type : Ty} (given : Given type) (kept : type.isError = false) :
    type.Proper := by
  rcases given with rfl | proper
  · cases kept
  · exact proper

theorem Given.isError_iff {type : Ty} (given : Given type) :
    type.isError = true ↔ type = .error := by
  rcases given with rfl | rfl | rfl <;> decide

/-- The three ways in which an operation may come out: the type of an operand is lost, both
operands are integers, or the operation is reported. -/
theorem operation_cases (c : Checker) (op : Token) {left right : Ty} (leftGiven : Given left)
    (rightGiven : Given right) :
    (left = .error ∨ right = .error) ∧ operation op left right c = .ok .error c ∨
    (left = .int ∧ right = .int) ∧ operation op left right c = .ok .int c ∨
    (left ≠ .error ∧ right ≠ .error ∧ ¬ (left = .int ∧ right = .int)) ∧
      operation op left right c = .ok .error (c.report (.operands op.text left right) op) := by
  by_cases lost : left = .error ∨ right = .error
  · rw [← leftGiven.isError_iff, ← rightGiven.isError_iff] at lost ⊢
    exact .inl ⟨lost, operation_of_lost lost⟩
  · by_cases ints : left = .int ∧ right = .int
    · obtain ⟨rfl, rfl⟩ := ints
      exact .inr (.inl ⟨⟨rfl, rfl⟩, operation_of_int⟩)
    · obtain ⟨leftKept, rightKept⟩ := not_or.mp lost
      refine .inr (.inr ⟨⟨leftKept, rightKept, ints⟩, operation_of_misfit ?_ ?_ ints⟩)
      · rwa [← leftGiven.isError_iff, Bool.not_eq_true] at leftKept
      · rwa [← rightGiven.isError_iff, Bool.not_eq_true] at rightKept

theorem keeps_operation (op : Token) {left right : Ty} (leftGiven : Given left)
    (rightGiven : Given right) : Keeps (operation op left right) Given := by
  unfold operation
  split
  · exact .pure (.inl rfl)
  · rename_i kept
    simp only [Bool.or_eq_true, not_or, Bool.not_eq_true] at kept
    split
    · exact .pure (.inr (.inl rfl))
    · have proper : Report.Proper ⟨.operands op.text left right, op⟩ :=
        .operands (leftGiven.proper kept.1) (rightGiven.proper kept.2)
      exact (keeps_report proper).bind fun _ _ => .pure (.inl rfl)

theorem keeps_typeOf (node : Node) : Keeps (typeOf node) Given := by
  fun_induction typeOf node with
  | case1 => exact .pure (.inr (.inl rfl))
  | case2 => exact .pure (.inr (.inr rfl))
  | case3 name =>
      apply (keeps_resolve name).bind
      intro target typed
      cases target with
      | none => exact .pure (.inl rfl)
      | some sym => exact .pure (.inr (typed sym rfl))
  | case4 op left right left_ih right_ih =>
      apply left_ih.bind
      intro leftType leftGiven
      apply right_ih.bind
      intro rightType rightGiven
      exact keeps_operation op leftGiven rightGiven
  | case5 => exact .throw _

theorem keeps_expectMatch (equals : Token) {found expected : Ty} (given : Given found)
    (proper : expected.Proper) : Keeps (expectMatch equals found expected) fun _ => True := by
  unfold expectMatch
  split
  · rename_i wrong
    simp only [Bool.and_eq_true, Bool.not_eq_true'] at wrong
    exact keeps_report (.mismatch (given.proper wrong.1) proper)
  · exact .pure trivial

theorem keeps_expectCondition (paren : Token) {found : Ty} (given : Given found) :
    Keeps (expectCondition paren found) fun _ => True := by
  unfold expectCondition
  split
  · rename_i wrong
    simp only [Bool.and_eq_true, Bool.not_eq_true'] at wrong
    exact keeps_report (.condition (given.proper wrong.1))
  · exact .pure trivial

/-- What is compared with the type of an expression is a type of the language. -/
theorem keeps_prepare (stmt : Node) :
    Keeps (prepare stmt) fun compare =>
      ∀ found, Given found → Keeps (compare found) fun _ => True := by
  cases stmt with
  | varDecl word name equals init =>
      apply (keeps_declaredType word).bind
      intro type proper
      apply (keeps_declare name proper).bind
      intro _ _
      exact .pure fun found given => keeps_expectMatch equals given proper
  | assign name equals value =>
      apply (keeps_resolve name).bind
      intro target typed
      cases target with
      | none => exact .pure fun _ _ => .pure trivial
      | some sym => exact .pure fun found given => keeps_expectMatch equals given (typed sym rfl)
  | conditional paren cond brace body =>
      exact .pure fun found given => keeps_expectCondition paren given
  | _ => exact .pure fun _ _ => .pure trivial

theorem keeps_braces {step : Check Unit} (h : Keeps step fun _ => True) :
    Keeps (do openScope; step; closeScope) fun _ => True :=
  keeps_openScope.bind fun _ _ => h.bind fun _ _ => keeps_closeScope

theorem keeps_proceed {stmt : Node} (body : Keeps (statements stmt.body) fun _ => True) :
    Keeps (proceed stmt) fun _ => True := by
  cases stmt with
  | conditional paren cond brace stmts => exact keeps_braces body
  | _ => exact .pure trivial

theorem keeps_statement_of_body {stmt : Node}
    (body : Keeps (statements stmt.body) fun _ => True) :
    Keeps (statement stmt) fun _ => True := by
  cases part : stmt.expression? with
  | some expr =>
      rw [statement_of_expression part]
      apply (keeps_prepare stmt).bind
      intro compare keeps
      apply (keeps_typeOf expr).bind
      intro found given
      apply (keeps found given).bind
      intro _ _
      exact keeps_proceed body
  | none =>
      obtain ⟨brace, stmts, rfl⟩ | thrown := block_or_throw part
      · simp only [statement]
        exact keeps_braces body
      · rw [thrown]
        exact .throw _

theorem keeps_statements (stmts : List Node) : Keeps (statements stmts) fun _ => True := by
  induction stmts using Node.list_induction with
  | nil =>
      simp only [statements]
      exact .pure trivial
  | cons stmt rest body_ih rest_ih =>
      simp only [statements]
      exact (keeps_statement_of_body body_ih).bind fun _ _ => rest_ih

theorem keeps_statement (stmt : Node) : Keeps (statement stmt) fun _ => True :=
  keeps_statement_of_body (keeps_statements stmt.body)

theorem keeps_openConditional (paren : Token) (cond : Node) :
    Keeps (openConditional paren cond) fun _ => True := by
  apply (keeps_typeOf cond).bind
  intro found given
  apply (keeps_expectCondition paren given).bind
  intro _ _
  exact keeps_openScope

theorem proper_of_enter? {stmt : Node} {c c' : Checker} (proper : c.Proper)
    (entered : enter? stmt c = some c') : c'.Proper := by
  cases stmt with
  | block brace stmts =>
      cases entered
      exact proper.withScopes proper.typed.openScope
  | conditional paren cond brace body =>
      cases came : openConditional paren cond c with
      | ok _ u =>
          simp only [enter?, came, Option.some.injEq] at entered
          subst entered
          exact ((keeps_openConditional paren cond).ok proper came).1
      | error f u => simp [enter?, came] at entered
  | _ => cases entered

/-- Wherever checking comes from a proper state, the state is proper. -/
theorem proper_at {stmts left : List Node} {place : Place} {c c' : Checker} (proper : c.Proper)
    (reached : walk.Reaches stmts c place left c') : c'.Proper :=
  Walk.keeps (P := Checker.Proper) proper_of_enter?
    (fun before => before.withScopes before.typed.closeScope) proper
    (fun _ before _ ran => ((keeps_statement _).ok before ran).1) reached

end Check

namespace Session

variable {s : Session}

theorem proper_performCheck {step : Check Answer} {Q : Answer → Prop} (h : Check.Keeps step Q)
    (proper : s.checker.Proper) : (s.performCheck step).1.checker.Proper := by
  have kept := (h s.checker proper).1
  unfold performCheck
  cases ran : step s.checker with
  | ok answer checker =>
      rw [ran] at kept
      exact kept
  | error fault checker =>
      rw [ran] at kept
      exact kept

theorem checker_performExec (step : Exec Answer) : (s.performExec step).1.checker = s.checker := by
  unfold performExec
  cases step s.executor with
  | ok answer executor => rfl
  | error fault executor => rfl

theorem proper_perform (step : Step) (proper : s.checker.Proper) :
    (s.perform step).1.checker.Proper := by
  have answered : ∀ {α : Type} {x : Check α} {Q : α → Prop} (answer : α → Answer),
      Check.Keeps x Q → Check.Keeps (do let a ← x; pure (answer a)) fun _ => True :=
    fun _ keeps => keeps.bind fun _ _ => .pure trivial
  cases step with
  | check p => exact proper_performCheck (answered _ (Check.keeps_statements _)) proper
  | typeOf node => exact proper_performCheck (answered _ (Check.keeps_typeOf _)) proper
  | openScope pass =>
      cases pass with
      | check => exact proper_performCheck (answered _ Check.keeps_openScope) proper
      | exec => exact (checker_performExec _).symm ▸ proper
  | closeScope pass =>
      cases pass with
      | check => exact proper_performCheck (answered _ Check.keeps_closeScope) proper
      | exec => exact (checker_performExec _).symm ▸ proper
  | exec p => exact (checker_performExec _).symm ▸ proper
  | valueOf node => exact (checker_performExec _).symm ▸ proper

/-- The checker of a session is proper after any steps. -/
theorem proper_performAll (steps : List Step) (proper : s.checker.Proper) :
    (s.performAll steps).checker.Proper := by
  induction steps generalizing s with
  | nil => exact proper
  | cons step rest ih => exact ih (proper_perform step proper)

end Session

namespace Check

variable {c c' d : Checker} {node left right part : Node} {op : Token} {type leftType : Ty}
variable {path below : List Side} {r : Report}

/-- What checking does at a node before it may report the node itself: it looks at the
operands of an operator. -/
def operands : Node → Check Unit
  | .binary _ left right => do
    let _ ← typeOf left
    let _ ← typeOf right
    pure ()
  | _ => pure ()

/-- When checking looks for the type of a node in the state `c`, it reports the node itself,
after it is done with the operands. -/
def Reported (c : Checker) (node : Node) (r : Report) : Prop :=
  ∃ d type c', operands node c = .ok () d ∧ typeOf node c = .ok type c' ∧
    c'.reports = d.reports.push r

/-- When checking looks for the type of an expression in the state `c`, it reports the part at
the end of the path. -/
def ReportedAt (c : Checker) (node : Node) (path : List Side) (r : Report) : Prop :=
  ∃ part d, Visits c node path part d ∧ Reported d part r

/-- The reports that are made between two states when checking looks for the type of an
expression, in order, each with the path to the part that is reported. No path in the list
leads to a part of another one. -/
structure Locates (c : Checker) (node : Node) (c' : Checker)
    (found : List (List Side × Report)) : Prop where
  added : c'.reports.toList = c.reports.toList ++ found.map Prod.snd
  mem_iff : ∀ path r, (path, r) ∈ found ↔ ReportedAt c node path r
  antichain : found.Pairwise fun a b => ¬ a.1 <+: b.1 ∧ ¬ b.1 <+: a.1

theorem operands_binary {rightType : Ty} {u v : Checker}
    (leftLooked : typeOf left c = .ok leftType u) (rightLooked : typeOf right u = .ok rightType v) :
    operands (.binary op left right) c = .ok () v := by
  rw [operands, Step.bind_of_ok leftLooked, Step.bind_of_ok rightLooked]
  rfl

theorem reported_iff (before : operands node c = .ok () d) (looked : typeOf node c = .ok type c') :
    Reported c node r ↔ c'.reports = d.reports.push r := by
  constructor
  · rintro ⟨d', type', e, before', looked', pushed⟩
    cases before.symm.trans before'
    cases looked.symm.trans looked'
    exact pushed
  · intro pushed
    exact ⟨d, type, c', before, looked, pushed⟩

/-- A node is not reported if its operands were the last to change the state. -/
theorem not_reported (before : operands node c = .ok () d) (looked : typeOf node c = .ok type d) :
    ¬ Reported c node r := by
  intro reported
  have size := congrArg Array.size ((reported_iff before looked).mp reported)
  simp at size

theorem reportedAt_nil_iff : ReportedAt c node [] r ↔ Reported c node r := by
  constructor
  · rintro ⟨part, d, visits, reported⟩
    cases visits
    exact reported
  · intro reported
    exact ⟨node, c, .here c node, reported⟩

theorem reportedAt_left_iff :
    ReportedAt c (.binary op left right) (.left :: path) r ↔ ReportedAt c left path r := by
  constructor
  · rintro ⟨part, d, visits, reported⟩
    cases visits with
    | left within => exact ⟨part, d, within, reported⟩
  · rintro ⟨part, d, within, reported⟩
    exact ⟨part, d, .left within, reported⟩

theorem reportedAt_right_iff (leftLooked : typeOf left c = .ok leftType d) :
    ReportedAt c (.binary op left right) (.right :: path) r ↔ ReportedAt d right path r := by
  constructor
  · rintro ⟨part, e, visits, reported⟩
    cases visits with
    | right before within =>
        cases leftLooked.symm.trans before
        exact ⟨part, e, within, reported⟩
  · rintro ⟨part, e, within, reported⟩
    exact ⟨part, e, .right leftLooked within, reported⟩

/-- What is reported below a part is what is reported when checking comes to the part. -/
theorem reportedAt_append_iff (visits : Visits c node path part d) :
    ReportedAt c node (path ++ below) r ↔ ReportedAt d part below r := by
  induction visits with
  | here => exact Iff.rfl
  | left _ ih => exact reportedAt_left_iff.trans ih
  | right before _ ih => exact (reportedAt_right_iff before).trans ih

/-- The reports about the parts of a node other than the node itself, when checking is done
with its operands in the state `d`. -/
structure LocatesBelow (c : Checker) (node : Node) (d : Checker)
    (found : List (List Side × Report)) : Prop where
  before : operands node c = .ok () d
  added : d.reports.toList = c.reports.toList ++ found.map Prod.snd
  mem_iff : ∀ path r, (path, r) ∈ found ↔ path ≠ [] ∧ ReportedAt c node path r
  antichain : found.Pairwise fun a b => ¬ a.1 <+: b.1 ∧ ¬ b.1 <+: a.1

namespace LocatesBelow

variable {found : List (List Side × Report)}

/-- Below a node that is no operation there is nothing to report. -/
theorem leaf (single : ∀ op left right, node ≠ .binary op left right) :
    LocatesBelow c node c [] where
  before := by
    cases node with
    | binary op left right => exact absurd rfl (single op left right)
    | _ => rfl
  added := (List.append_nil _).symm
  mem_iff := by
    intro path r
    refine iff_of_false List.not_mem_nil ?_
    rintro ⟨deep, part, d, visits, _⟩
    cases visits with
    | here => exact deep rfl
    | left => exact single _ _ _ rfl
    | right => exact single _ _ _ rfl
  antichain := .nil

/-- The reports about an operand, with the paths from the operation it belongs to. -/
def under (side : Side) (found : List (List Side × Report)) : List (List Side × Report) :=
  found.map fun located => (side :: located.1, located.2)

theorem map_snd_under (side : Side) : (under side found).map Prod.snd = found.map Prod.snd := by
  rw [under, List.map_map]
  rfl

theorem mem_under_iff {side side' : Side} :
    (side' :: path, r) ∈ under side found ↔ side' = side ∧ (path, r) ∈ found := by
  simp only [under, List.mem_map, Prod.mk.injEq, List.cons.injEq, Prod.exists]
  constructor
  · rintro ⟨_, _, member, ⟨rfl, rfl⟩, rfl⟩
    exact ⟨rfl, member⟩
  · rintro ⟨rfl, member⟩
    exact ⟨path, r, member, ⟨rfl, rfl⟩, rfl⟩

theorem pairwise_under (side : Side)
    (h : found.Pairwise fun a b => ¬ a.1 <+: b.1 ∧ ¬ b.1 <+: a.1) :
    (under side found).Pairwise fun a b => ¬ a.1 <+: b.1 ∧ ¬ b.1 <+: a.1 := by
  rw [under, List.pairwise_map]
  refine h.imp ?_
  simp

/-- The reports about the operands of an operation, those of the left one first. A path that
begins at the one side does not lead to a part of the other. -/
theorem binary {leftFound rightFound : List (List Side × Report)} {rightType : Ty}
    {u v : Checker} (leftLooked : typeOf left c = .ok leftType u)
    (rightLooked : typeOf right u = .ok rightType v) (inLeft : Locates c left u leftFound)
    (inRight : Locates u right v rightFound) :
    LocatesBelow c (.binary op left right) v
      (under .left leftFound ++ under .right rightFound) where
  before := operands_binary leftLooked rightLooked
  added := by
    rw [inRight.added, inLeft.added, List.append_assoc, List.map_append, map_snd_under,
      map_snd_under]
  mem_iff := by
    intro path r
    cases path with
    | nil => simp [under]
    | cons side path =>
        rw [List.mem_append, mem_under_iff, mem_under_iff]
        cases side with
        | left => simp [reportedAt_left_iff, inLeft.mem_iff]
        | right => simp [reportedAt_right_iff leftLooked, inRight.mem_iff]
  antichain := by
    rw [List.pairwise_append]
    refine ⟨pairwise_under _ inLeft.antichain, pairwise_under _ inRight.antichain, ?_⟩
    intro a member b member'
    obtain ⟨_, _, rfl⟩ := List.mem_map.mp member
    obtain ⟨_, _, rfl⟩ := List.mem_map.mp member'
    simp

/-- If the node itself is not reported, the reports are those below it. -/
theorem unreported (h : LocatesBelow c node c' found) (looked : typeOf node c = .ok type c') :
    Locates c node c' found where
  added := h.added
  mem_iff := by
    intro path r
    rw [h.mem_iff]
    constructor
    · exact And.right
    · intro reported
      refine ⟨?_, reported⟩
      rintro rfl
      exact not_reported h.before looked (reportedAt_nil_iff.mp reported)
  antichain := h.antichain

/-- If the node itself is reported and nothing below it, there is one report. -/
theorem reported {problem : Problem} {token : Token} (h : LocatesBelow c node d [])
    (looked : typeOf node c = .ok type (d.report problem token)) :
    Locates c node (d.report problem token) [([], ⟨problem, token⟩)] where
  added := by
    rw [Checker.report, Array.toList_push, h.added]
    simp
  mem_iff := by
    intro path r
    cases path with
    | nil =>
        rw [reportedAt_nil_iff, reported_iff h.before looked, Checker.report]
        simp [Array.push_eq_push, eq_comm]
    | cons side path =>
        have none := h.mem_iff (side :: path) r
        simpa using none
  antichain := List.pairwise_singleton _ _

end LocatesBelow

/-- The reports of an expression can be located, and the type is lost if and only if there is
one. -/
theorem exists_locates (proper : c.Proper) (looked : typeOf node c = .ok type c') :
    ∃ found, Locates c node c' found ∧ (type = .error ↔ found ≠ []) := by
  fun_induction typeOf node generalizing c c' type with
  | case1 literal =>
      cases looked
      exact ⟨[], (LocatesBelow.leaf (by simp)).unreported rfl, by decide⟩
  | case2 literal =>
      cases looked
      exact ⟨[], (LocatesBelow.leaf (by simp)).unreported rfl, by decide⟩
  | case3 name =>
      rw [← typeOf] at looked
      have below : LocatesBelow c (.ident name) c [] := .leaf (by simp)
      cases found : c.scopes.lookup? name.text with
      | some sym =>
          cases (typeOf_ident_of_some found).symm.trans looked
          refine ⟨[], below.unreported looked, ?_⟩
          rcases proper.typed.lookup? found with isInt | isBoolean
          · rw [isInt]
            decide
          · rw [isBoolean]
            decide
      | none =>
          cases (typeOf_ident_of_none found).symm.trans looked
          exact ⟨_, below.reported looked, by simp⟩
  | case4 op left right left_ih right_ih =>
      rw [← typeOf] at looked
      obtain ⟨leftType, u, rightType, v, leftLooked, rightLooked, operated⟩ :=
        typeOf_binary_eq_ok_iff.mp looked
      obtain ⟨properAfter, leftGiven⟩ := (keeps_typeOf left).ok proper leftLooked
      have rightGiven := ((keeps_typeOf right).ok properAfter rightLooked).2
      obtain ⟨leftFound, inLeft, leftLost⟩ := left_ih proper leftLooked
      obtain ⟨rightFound, inRight, rightLost⟩ := right_ih properAfter rightLooked
      have below : LocatesBelow c (.binary op left right) v _ :=
        .binary leftLooked rightLooked inLeft inRight
      -- Only an operation between operands with types is reported itself, and then there is
      -- nothing below it.
      obtain ⟨lost, outcome⟩ | ⟨⟨rfl, rfl⟩, outcome⟩ | ⟨⟨leftKept, rightKept, _⟩, outcome⟩ :=
        operation_cases v op leftGiven rightGiven
      · cases outcome.symm.trans operated
        refine ⟨_, below.unreported looked, ?_⟩
        rw [leftLost, rightLost] at lost
        rcases lost with inside | inside
        · simp [LocatesBelow.under, inside]
        · simp [LocatesBelow.under, inside]
      · cases outcome.symm.trans operated
        have noneLeft : leftFound = [] := Classical.not_not.mp (mt leftLost.mpr (by decide))
        have noneRight : rightFound = [] := Classical.not_not.mp (mt rightLost.mpr (by decide))
        refine ⟨_, below.unreported looked, ?_⟩
        rw [noneLeft, noneRight]
        decide
      · cases outcome.symm.trans operated
        have noneLeft : leftFound = [] := Classical.not_not.mp (mt leftLost.mpr leftKept)
        have noneRight : rightFound = [] := Classical.not_not.mp (mt rightLost.mpr rightKept)
        rw [noneLeft, noneRight] at below
        exact ⟨_, below.reported looked, by simp⟩
  | case5 => cases looked

/-- An expression keeps its type if and only if no part of it is reported. -/
theorem type_ne_error_iff (proper : c.Proper) (looked : typeOf node c = .ok type c') :
    type ≠ .error ↔ ∀ path r, ¬ ReportedAt c node path r := by
  obtain ⟨found, locates, lost⟩ := exists_locates proper looked
  rw [Ne, lost, Classical.not_not, List.eq_nil_iff_forall_not_mem, Prod.forall]
  simp only [locates.mem_iff]

/-- The types of the operands decide whether an operation is reported. -/
theorem exists_reported_iff {rightType : Ty} {u v : Checker} (proper : c.Proper)
    (leftLooked : typeOf left c = .ok leftType u) (rightLooked : typeOf right u = .ok rightType v) :
    (∃ r, Reported c (.binary op left right) r) ↔
      leftType ≠ .error ∧ rightType ≠ .error ∧ ¬ (leftType = .int ∧ rightType = .int) := by
  obtain ⟨properAfter, leftGiven⟩ := (keeps_typeOf left).ok proper leftLooked
  have rightGiven := ((keeps_typeOf right).ok properAfter rightLooked).2
  have before : operands (.binary op left right) c = .ok () v :=
    operands_binary leftLooked rightLooked
  have looked : ∀ {type c'}, operation op leftType rightType v = .ok type c' →
      typeOf (.binary op left right) c = .ok type c' := fun operated =>
    typeOf_binary_eq_ok_iff.mpr ⟨leftType, u, rightType, v, leftLooked, rightLooked, operated⟩
  obtain ⟨lost, outcome⟩ | ⟨ints, outcome⟩ | ⟨misfit, outcome⟩ :=
    operation_cases v op leftGiven rightGiven
  · refine iff_of_false ?_ ?_
    · rintro ⟨r, reported⟩
      exact not_reported before (looked outcome) reported
    · rintro ⟨leftKept, rightKept, _⟩
      exact lost.elim leftKept rightKept
  · refine iff_of_false ?_ fun kept => kept.2.2 ints
    rintro ⟨r, reported⟩
    exact not_reported before (looked outcome) reported
  · exact iff_of_true ⟨_, (reported_iff before (looked outcome)).mpr rfl⟩ misfit

/-- An operation is reported if and only if nothing is reported inside its operands and the
operands are not both integers. -/
theorem exists_reported_binary_iff {rightType : Ty} {u v : Checker} (proper : c.Proper)
    (leftLooked : typeOf left c = .ok leftType u) (rightLooked : typeOf right u = .ok rightType v) :
    (∃ r, Reported c (.binary op left right) r) ↔
      (∀ side below r, ¬ ReportedAt c (.binary op left right) (side :: below) r) ∧
        ¬ (leftType = .int ∧ rightType = .int) := by
  have properAfter := ((keeps_typeOf left).ok proper leftLooked).1
  have silent : (∀ side below r, ¬ ReportedAt c (.binary op left right) (side :: below) r) ↔
      leftType ≠ .error ∧ rightType ≠ .error := by
    rw [type_ne_error_iff proper leftLooked, type_ne_error_iff properAfter rightLooked]
    constructor
    · intro none
      exact ⟨fun path r inLeft => none .left path r (reportedAt_left_iff.mpr inLeft),
        fun path r inRight => none .right path r ((reportedAt_right_iff leftLooked).mpr inRight)⟩
    · rintro ⟨noneLeft, noneRight⟩ side below r reported
      cases side with
      | left => exact noneLeft below r (reportedAt_left_iff.mp reported)
      | right => exact noneRight below r ((reportedAt_right_iff leftLooked).mp reported)
  rw [exists_reported_iff proper leftLooked rightLooked, silent, and_assoc]

/-- Checking comes from a proper state to proper states only. -/
theorem Visits.proper (h : Visits c node path part d) (proper : c.Proper) : d.Proper := by
  induction h with
  | here => exact proper
  | left _ ih => exact ih proper
  | right before _ ih => exact ih ((keeps_typeOf _).ok proper before).1

/-- Nothing is reported about an expression that keeps its type. -/
theorem reports_eq_of_kept (proper : c.Proper) (looked : typeOf node c = .ok type c')
    (kept : type.isError = false) : c'.reports = c.reports := by
  obtain ⟨found, locates, lost⟩ := exists_locates proper looked
  have none : found = [] := by
    apply Classical.not_not.mp
    intro some
    rw [lost.mpr some] at kept
    cases kept
  apply Array.toList_inj.mp
  rw [locates.added, none]
  exact List.append_nil _

end Check

/-- Suppression of repeated reports is exact. Take any state `c` in which checking is after any
steps of a session, of which some may have failed, and on its way through any further
statements. No report shows a lost type: the message of a diagnostic has one of five wordings,
with nothing but `int` and `boolean` in the places of types, and the name or operator in it is that
of the reported token. Suppose that checking looks for the type of an expression
and gets an answer, in this state or when it has prepared a statement. Then the reports that it has
made about parts of the expression can be listed with the paths of the parts: no reported part
is, or is inside, another one. The type is lost if and only if there is a report. An operation
in the expression is reported if and only if nothing inside its operands is, and they are not both
integers. A statement with an expression is prepared, its expression is looked at, the type is
compared, and the comparison is reported only if there was no report about the expression. -/
theorem suppression_is_exact (steps : List Session.Step) {stmts left : List Node}
    {place : Place} {c : Checker}
    (reached : Check.walk.Reaches stmts (Session.initial.performAll steps).checker place left c) :
    (∀ r ∈ c.reports, ∀ type ∈ r.problem.types, type = .int ∨ type = .boolean) ∧
    (∀ x ∈ c.diagnostics, ∃ r ∈ c.reports, x = r.diagnostic ∧
      ∃ subject shown, Problem.Wording subject shown x.message ∧
        (∀ name ∈ subject, name = r.token.text) ∧
        ∀ text ∈ shown, text = "int" ∨ text = "boolean") ∧
    (∀ d, d = c ∨ (∃ stmt compare, Check.prepare stmt c = .ok compare d) →
      ∀ node type d', Check.typeOf node d = .ok type d' →
      ∃ found, Check.Locates d node d' found ∧ (type = .error ↔ found ≠ []) ∧
        ∀ path op left right, node.part? path = some (.binary op left right) →
          ∃ e leftType u rightType v, Check.Visits d node path (.binary op left right) e ∧
            Check.typeOf left e = .ok leftType u ∧ Check.typeOf right u = .ok rightType v ∧
            ((∃ r, (path, r) ∈ found) ↔
              (∀ side below r, (path ++ side :: below, r) ∉ found) ∧
                ¬ (leftType = .int ∧ rightType = .int))) ∧
    (∀ stmt expr, stmt.expression? = some expr →
      Check.statement stmt = (do
        let compare ← Check.prepare stmt
        let found ← Check.typeOf expr
        compare found
        Check.proceed stmt) ∧
      ∀ compare d type d', Check.prepare stmt c = .ok compare d →
        Check.typeOf expr d = .ok type d' →
        compare type d' = .ok () d' ∨
        d'.reports = d.reports ∧ ∃ problem token,
          compare type d' = .ok () (d'.report problem token) ∧
          (problem = .condition type ∨ ∃ expected, problem = .mismatch type expected)) := by
  have proper : c.Proper := Check.proper_at (Session.proper_performAll steps .initial) reached
  have prepares {stmt compare d} (prepared : Check.prepare stmt c = .ok compare d) : d.Proper :=
    ((Check.keeps_prepare stmt).ok proper prepared).1
  refine ⟨?_, ?_, ?_, ?_⟩
  · intro r member
    exact (proper.reported r (Array.mem_def.mp member)).shown
  · intro x member
    obtain ⟨r, isReport, rfl⟩ := List.mem_map.mp member
    exact ⟨r, Array.mem_def.mpr isReport, rfl, (proper.reported r isReport).exists_wording⟩
  · intro d comes node type d' looked
    have properHere : d.Proper := by
      rcases comes with rfl | ⟨stmt, compare, prepared⟩
      · exact proper
      · exact prepares prepared
    obtain ⟨found, locates, lost⟩ := Check.exists_locates properHere looked
    refine ⟨found, locates, lost, ?_⟩
    intro path op left right stands
    obtain ⟨e, partType, e', visits, partLooked⟩ := Check.exists_visits looked stands
    obtain ⟨leftType, u, rightType, v, leftLooked, rightLooked, _⟩ :=
      Check.typeOf_binary_eq_ok_iff.mp partLooked
    refine ⟨e, leftType, u, rightType, v, visits, leftLooked, rightLooked, ?_⟩
    have reported : ∀ r, (path, r) ∈ found ↔ Check.Reported e (.binary op left right) r := by
      intro r
      rw [locates.mem_iff, ← Check.reportedAt_nil_iff, ← Check.reportedAt_append_iff visits,
        List.append_nil]
    simp only [reported, locates.mem_iff, Check.reportedAt_append_iff visits]
    exact Check.exists_reported_binary_iff (visits.proper properHere) leftLooked rightLooked
  · intro stmt expr part
    refine ⟨Check.statement_of_expression part, ?_⟩
    intro compare d type d' prepared looked
    refine (Check.compare_cases prepared type d').imp id ?_
    rintro ⟨kept, reported⟩
    exact ⟨Check.reports_eq_of_kept (prepares prepared) looked kept, reported⟩

/-- The expression `x + 1 - (q - (true + 2))`, with three faults in it that are independent of
each other where `x` is a truth value and `q` is not declared. -/
def Node.tangled : Node :=
  .binary ⟨"-", 1, 6⟩ (.binary ⟨"+", 1, 2⟩ (.ident ⟨"x", 1, 0⟩) (.intLit ⟨"1", 1, 4⟩))
    (.binary ⟨"-", 1, 11⟩ (.ident ⟨"q", 1, 9⟩)
      (.binary ⟨"+", 1, 19⟩ (.boolLit ⟨"true", 1, 14⟩) (.intLit ⟨"2", 1, 21⟩)))

/-- After a failed check, which has left two scopes open that both have `x`. The diagnostics are
those of the session that looks for the type of the expression next. -/
theorem suppression_is_exact_tangled :
    let c := (Session.initial.performAll Session.unruly).checker
    let later := (Session.initial.performAll (Session.unruly ++ [.typeOf .tangled])).checker
    ∃ c' found, Check.typeOf .tangled c = .ok .error c' ∧ Check.Locates c .tangled c' found ∧
      found.map (·.2.token.text) = ["+", "q", "+"] ∧
      (∀ r ∈ c.reports, ∀ type ∈ r.problem.types, type = .int ∨ type = .boolean) ∧
      later.diagnostics.map (·.message) = [
        "Variable 'y' has not been declared.",
        "Operator '+' can only be applied to operands of type 'int', " ++
          "but found 'boolean' and 'int'.",
        "Variable 'q' has not been declared.",
        "Operator '+' can only be applied to operands of type 'int', " ++
          "but found 'boolean' and 'int'."] ∧
      ∀ x ∈ later.diagnostics, ∃ r ∈ later.reports, x = r.diagnostic ∧
        ∃ subject shown, Problem.Wording subject shown x.message ∧
          (∀ name ∈ subject, name = r.token.text) ∧
          ∀ text ∈ shown, text = "int" ∨ text = "boolean" := by
  intro c later
  obtain ⟨shown, _, exact, _⟩ := suppression_is_exact Session.unruly (.here [] c)
  obtain ⟨found, locates, _⟩ := exact c (.inl rfl) .tangled .error _ rfl
  obtain ⟨_, worded, _⟩ :=
    suppression_is_exact (Session.unruly ++ [.typeOf .tangled]) (.here [] later)
  refine ⟨_, found, rfl, locates, ?_, shown, rfl, worded⟩
  -- The report that the failed check has made comes first.
  have texts := congrArg (List.map fun r : Report => r.token.text) locates.added
  rw [List.map_append, List.map_map] at texts
  exact (List.cons.inj texts).2.symm

end BlockLang

import BlockLang.Proofs.Checking
import BlockLang.Proofs.Execution
import Mathlib.Logic.Equiv.Basic

/-!
# Relabelling programs

A relabelling renames the variables of a program, no two of them to one name, and moves its
tokens to any places. Neither names nor places have a meaning of their own: the relabelled
program does what the program does, with the new names and places wherever the old ones were
kept or reported.

Both passes compare names only for equality and never look at places, so each of their steps
is uniform: there is one outcome that all relabellings show in their own names and places.
For execution the outcome is that of the program itself. For checking the outcome says more
than the reports do, since a report of a name that is declared twice keeps only the line of the
first declaration, and a relabelling may move two tokens of one line to different lines. A
`Check.Finding` keeps the place instead.
-/

namespace BlockLang

namespace Node

mutual

/-- The tree with the tokens of variables and all other tokens replaced. -/
def mapTokens (name other : Token → Token) : Node → Node
  | .program stmts => .program (mapTokensAll name other stmts)
  | .block brace stmts => .block (other brace) (mapTokensAll name other stmts)
  | .varDecl type var equals init =>
    .varDecl (other type) (name var) (other equals) (init.mapTokens name other)
  | .assign var equals value => .assign (name var) (other equals) (value.mapTokens name other)
  | .conditional paren cond brace body =>
    .conditional (other paren) (cond.mapTokens name other) (other brace)
      (mapTokensAll name other body)
  | .print word value => .print (other word) (value.mapTokens name other)
  | .binary op left right =>
    .binary (other op) (left.mapTokens name other) (right.mapTokens name other)
  | .ident var => .ident (name var)
  | .intLit literal => .intLit (other literal)
  | .boolLit literal => .boolLit (other literal)
  | .token bare => .token (other bare)
  | .absent => .absent

/-- The trees with the tokens of variables and all other tokens replaced. -/
def mapTokensAll (name other : Token → Token) : List Node → List Node
  | [] => []
  | node :: rest => node.mapTokens name other :: mapTokensAll name other rest

end

variable {name other : Token → Token}

theorem mapTokensAll_eq_map (nodes : List Node) :
    mapTokensAll name other nodes = nodes.map (mapTokens name other) := by
  induction nodes with
  | nil => simp [mapTokensAll]
  | cons node rest ih => simp [mapTokensAll, ih]

@[simp] theorem sort_mapTokens (node : Node) : (node.mapTokens name other).sort = node.sort := by
  cases node <;> simp [mapTokens, sort]

mutual

theorem mapTokens_id : ∀ node : Node, node.mapTokens id id = node
  | .program stmts => by simp [mapTokens, mapTokensAll_id stmts]
  | .block _ stmts => by simp [mapTokens, mapTokensAll_id stmts]
  | .varDecl _ _ _ init => by simp [mapTokens, mapTokens_id init]
  | .assign _ _ value => by simp [mapTokens, mapTokens_id value]
  | .conditional _ cond _ body => by simp [mapTokens, mapTokens_id cond, mapTokensAll_id body]
  | .print _ value => by simp [mapTokens, mapTokens_id value]
  | .binary _ left right => by simp [mapTokens, mapTokens_id left, mapTokens_id right]
  | .ident _ | .intLit _ | .boolLit _ | .token _ | .absent => by simp [mapTokens]

theorem mapTokensAll_id : ∀ nodes : List Node, mapTokensAll id id nodes = nodes
  | [] => by simp [mapTokensAll]
  | node :: rest => by simp [mapTokensAll, mapTokens_id node, mapTokensAll_id rest]

end

end Node

/-- The program with the tokens of variables and all other tokens replaced. -/
def Program.mapTokens (name other : Token → Token) (p : Program) : Program :=
  ⟨Node.mapTokensAll name other p.stmts⟩

/-- New names for the variables of a program, different ones for different variables, and new
places for its tokens. -/
structure Relabelling where
  rename : String → String
  move : Position → Position
  injective : Function.Injective rename

namespace Relabelling

/-- The relabelling that changes nothing. -/
def identity : Relabelling := ⟨id, id, Function.injective_id⟩

/-- The token of a variable, with its new name at its new place. -/
def name (ρ : Relabelling) (t : Token) : Token := ⟨ρ.rename t.text, ρ.move t.position⟩

/-- A token that is no variable, at its new place. -/
def other (ρ : Relabelling) (t : Token) : Token := ⟨t.text, ρ.move t.position⟩

variable (ρ : Relabelling)

@[simp] theorem text_name (t : Token) : (ρ.name t).text = ρ.rename t.text := rfl

@[simp] theorem text_other (t : Token) : (ρ.other t).text = t.text := rfl

end Relabelling

/-- The tree with new names and places. -/
def Node.relabel (ρ : Relabelling) : Node → Node := mapTokens ρ.name ρ.other

/-- The program with new names and places. -/
def Program.relabel (ρ : Relabelling) : Program → Program := mapTokens ρ.name ρ.other

@[simp] theorem Program.relabel_identity (p : Program) : p.relabel .identity = p := by
  change (⟨Node.mapTokensAll id id p.stmts⟩ : Program) = p
  rw [Node.mapTokensAll_id]

/-- The symbol with its new name and place. -/
def Symbol.relabel (ρ : Relabelling) (s : Symbol) : Symbol :=
  ⟨ρ.rename s.name, s.type, ρ.name s.token, s.value⟩

namespace Scope

/-- The scope with new names and places. -/
def relabel (ρ : Relabelling) (s : Scope) : Scope := ⟨s.symbols.map (Symbol.relabel ρ)⟩

variable (ρ : Relabelling)

/-- Different variables have different new names, so a new name finds what the old one did. -/
theorem find?_relabel (s : Scope) (name : String) :
    (s.relabel ρ).find? (ρ.rename name) = (s.find? name).map (Symbol.relabel ρ) := by
  simp only [find?, relabel, List.find?_map]
  congr 2
  funext sym
  simp [Symbol.relabel, ρ.injective.eq_iff]

theorem relabel_insert (s : Scope) (sym : Symbol) :
    (s.insert sym).relabel ρ = (s.relabel ρ).insert (sym.relabel ρ) := by
  simp only [insert, relabel, List.map_cons, List.filter_map]
  congr 3
  apply List.filter_congr
  intro a _
  simp [Symbol.relabel, bne, ρ.injective.eq_iff]

theorem relabel_setValue (s : Scope) (name : String) (value : Option Int) :
    (s.setValue name value).relabel ρ = (s.relabel ρ).setValue (ρ.rename name) value := by
  simp only [setValue, relabel, List.map_map]
  congr 1
  apply List.map_congr_left
  intro a _
  simp only [Function.comp_apply, Symbol.relabel, ρ.injective.eq_iff]
  split <;> rfl

end Scope

namespace ScopeStack

/-- The stack with new names and places. -/
def relabel (ρ : Relabelling) (s : ScopeStack) : ScopeStack := ⟨s.scopes.map (Scope.relabel ρ)⟩

variable (ρ : Relabelling)

@[simp] theorem relabel_identity (s : ScopeStack) : s.relabel .identity = s := by
  have symbol : Symbol.relabel .identity = id := rfl
  have scope : Scope.relabel .identity = id := by
    funext a
    simp [Scope.relabel, symbol]
  simp [relabel, scope]

@[simp] theorem relabel_openScope (s : ScopeStack) :
    s.openScope.relabel ρ = (s.relabel ρ).openScope := rfl

@[simp] theorem relabel_closeScope (s : ScopeStack) :
    s.closeScope.relabel ρ = (s.relabel ρ).closeScope := by
  simp [closeScope, relabel, List.map_tail]

theorem lookup?_relabel (s : ScopeStack) (name : String) :
    (s.relabel ρ).lookup? (ρ.rename name) = (s.lookup? name).map (Symbol.relabel ρ) := by
  obtain ⟨scopes⟩ := s
  change findIn? _ (scopes.map (Scope.relabel ρ)) = (findIn? name scopes).map _
  induction scopes with
  | nil => rfl
  | cons first rest ih =>
      simp only [findIn?, List.map_cons, List.findSome?_cons, Scope.find?_relabel] at ih ⊢
      cases first.find? name with
      | none => exact ih
      | some sym => rfl

theorem insert?_relabel (s : ScopeStack) (sym : Symbol) :
    (s.relabel ρ).insert? (sym.relabel ρ) = (s.insert? sym).map (relabel ρ) := by
  obtain ⟨scopes⟩ := s
  cases scopes with
  | nil => rfl
  | cons innermost outer => simp [insert?, relabel, Scope.relabel_insert]

theorem setValue?_relabel (s : ScopeStack) (name : String) (value : Option Int) :
    (s.relabel ρ).setValue? (ρ.rename name) value = (s.setValue? name value).map (relabel ρ) := by
  obtain ⟨scopes⟩ := s
  have updated : setIn? (ρ.rename name) value (scopes.map (Scope.relabel ρ)) =
      (setIn? name value scopes).map (·.map (Scope.relabel ρ)) := by
    induction scopes with
    | nil => rfl
    | cons first rest ih =>
        simp only [List.map_cons, setIn?, Scope.find?_relabel, Option.isSome_map]
        split
        · simp [Scope.relabel_setValue]
        · simp [ih, Function.comp_def]
  simp only [setValue?, relabel, updated, Option.map_map]
  rfl

end ScopeStack

namespace Step

variable {ι ε σ τ α β γ δ : Type}

/-- The fault with which a step ends, if it fails. -/
def fault? : EStateM.Result ε σ α → Option ε
  | .ok _ _ => none
  | .error e _ => some e

/-- How the members of a family show a common state and a common fault. -/
structure View (ι ε σ τ : Type) where
  state : ι → τ → σ
  fault : ι → ε → ε

/-- How a member of a family shows a common outcome, given how it shows results. -/
def View.outcome (v : View ι ε σ τ) (i : ι) (value : α → β) :
    EStateM.Result ε τ α → EStateM.Result ε σ β
  | .ok a t => .ok (value a) (v.state i t)
  | .error e t => .error (v.fault i e) (v.state i t)

/-- From what shows a common state, all steps of the family come to what shows a common
outcome. -/
def Uniform (v : View ι ε σ τ) (value : ι → α → β) (step : ι → EStateM ε σ β) : Prop :=
  ∀ t, ∃ outcome, ∀ i, step i (v.state i t) = v.outcome i (value i) outcome

namespace Uniform

variable {v : View ι ε σ τ} {value : ι → α → β} {value' : ι → γ → δ}

theorem pure (a : α) : Uniform v value fun i => pure (value i a) :=
  fun t => ⟨.ok a t, fun _ => rfl⟩

theorem throw (e : ε) : Uniform v value fun i => throw (v.fault i e) :=
  fun t => ⟨.error e t, fun _ => rfl⟩

theorem bind {x : ι → EStateM ε σ β} {f : ι → β → EStateM ε σ δ} (first : Uniform v value x)
    (second : ∀ a, Uniform v value' fun i => f i (value i a)) :
    Uniform v value' fun i => x i >>= f i := by
  intro t
  obtain ⟨middle, shown⟩ := first t
  cases middle with
  | ok a u =>
      obtain ⟨last, shown'⟩ := second a u
      exact ⟨last, fun i => (bind_of_ok (shown i)).trans (shown' i)⟩
  | error e u =>
      exact ⟨.error e u, fun i => bind_eq_error_iff.mpr (.inl (shown i))⟩

end Uniform

end Step

open Step (Uniform)

/-- The fault with the new name of the variable that is not bound. -/
def Fault.relabel (ρ : Relabelling) : Fault → Fault
  | .unbound name => .unbound (ρ.rename name)
  | f => f

theorem Fault.relabel_identity (f : Fault) : f.relabel .identity = f := by
  cases f <;> rfl

/-- New names and places change neither the class nor the message of a fault. -/
theorem Fault.report_relabel (ρ : Relabelling) (f : Fault) :
    ((f.relabel ρ).label, (f.relabel ρ).message) = (f.label, f.message) := by
  cases f <;> rfl

/-- The state of execution with new names and places. -/
def Executor.relabel (ρ : Relabelling) (e : Executor) : Executor :=
  { e with scopes := e.scopes.relabel ρ }

theorem ScopeStack.valueOf_relabel (ρ : Relabelling) (s : ScopeStack) (name : String) :
    (s.relabel ρ).valueOf (ρ.rename name) = (s.valueOf name).mapError (Fault.relabel ρ) := by
  unfold valueOf
  rw [lookup?_relabel]
  cases s.lookup? name with
  | none => rfl
  | some sym =>
      cases given : sym.value with
      | none => simp [Symbol.relabel, given, Except.mapError, Fault.relabel]
      | some value => simp [Symbol.relabel, given, Except.mapError]

theorem mapError_literalValue (ρ : Relabelling) (text : String) :
    (literalValue text).mapError (Fault.relabel ρ) = literalValue text := by
  unfold literalValue
  cases Numeral.read text with
  | ok value => rfl
  | error e => cases e <;> rfl

/-- An expression has the same value under new names and places. -/
theorem evaluate_relabel (ρ : Relabelling) (scopes : ScopeStack) (node : Node) :
    evaluate (scopes.relabel ρ) (node.relabel ρ) =
      (evaluate scopes node).mapError (Fault.relabel ρ) := by
  unfold Node.relabel
  fun_induction evaluate scopes node with
  | case1 literal =>
      rw [mapError_literalValue]
      rfl
  | case2 literal => rfl
  | case3 name => exact scopes.valueOf_relabel ρ name.text
  | case4 op left right left_ih right_ih =>
      rw [Node.mapTokens, evaluate, left_ih, right_ih]
      cases evaluate scopes left with
      | error f => rfl
      | ok l =>
          cases evaluate scopes right with
          | error f => rfl
          | ok r => rfl
  | case5 node =>
      cases node <;> simp_all [Node.mapTokens, evaluate, Except.mapError, Node.sort, Fault.relabel]

namespace Exec

/-- How executions of relabelled programs show a common state and a common fault. -/
def view : Step.View Relabelling Fault Executor Executor := ⟨Executor.relabel, Fault.relabel⟩

/-- From relabelled states all steps come to relabelled states, with one result. -/
abbrev Alike {α : Type} (step : Relabelling → Exec α) : Prop :=
  Uniform view (fun _ result => result) step

theorem alike_valueOf (node : Node) : Alike fun ρ => valueOf (node.relabel ρ) := by
  intro e
  have shown (ρ : Relabelling) := evaluate_relabel ρ e.scopes node
  cases evaluated : evaluate e.scopes node with
  | ok value =>
      rw [evaluated] at shown
      exact ⟨.ok value e, fun ρ => valueOf_eq_ok_iff.mpr ⟨shown ρ, rfl⟩⟩
  | error f =>
      rw [evaluated] at shown
      exact ⟨.error f e, fun ρ => valueOf_eq_error_iff.mpr ⟨shown ρ, rfl⟩⟩

theorem alike_declare (word name : Token) (value : Int) :
    Alike fun ρ => declare (ρ.other word) (ρ.name name) value := by
  intro e
  cases known : Ty.ofWord? word.text with
  | none =>
      refine ⟨.error (.unknownType word.text) e, fun ρ => ?_⟩
      simp only [declare, Relabelling.text_other, known]
      rfl
  | some type =>
      have shown (ρ : Relabelling) : (view.state ρ e).scopes.insert?
          ⟨(ρ.name name).text, type, ρ.name name, some value⟩ =
            (e.scopes.insert? ⟨name.text, type, name, some value⟩).map (.relabel ρ) :=
        e.scopes.insert?_relabel ρ ⟨name.text, type, name, some value⟩
      cases inserted : e.scopes.insert? ⟨name.text, type, name, some value⟩ with
      | none =>
          rw [inserted] at shown
          refine ⟨.error .noScope e, fun ρ => ?_⟩
          simp only [declare, Relabelling.text_other, known, Step.get_bind_apply, shown]
          rfl
      | some scopes =>
          rw [inserted] at shown
          refine ⟨.ok () { e with scopes := scopes }, fun ρ => ?_⟩
          exact declare_eq_ok_iff.mpr ⟨type, scopes.relabel ρ, known, shown ρ, rfl⟩

theorem alike_assign (name : Token) (value : Int) :
    Alike fun ρ => assign (ρ.name name) value := by
  intro e
  have shown (ρ : Relabelling) : (view.state ρ e).scopes.setValue? (ρ.name name).text (some value) =
      (e.scopes.setValue? name.text (some value)).map (.relabel ρ) :=
    e.scopes.setValue?_relabel ρ name.text (some value)
  cases updated : e.scopes.setValue? name.text (some value) with
  | none =>
      rw [updated] at shown
      refine ⟨.error (.unbound name.text) e, fun ρ => ?_⟩
      simp only [assign, Step.get_bind_apply, shown]
      rfl
  | some scopes =>
      rw [updated] at shown
      refine ⟨.ok () { e with scopes := scopes }, fun ρ => ?_⟩
      exact assign_eq_ok_iff.mpr ⟨scopes.relabel ρ, shown ρ, rfl⟩

theorem alike_print (value : Int) : Alike fun _ => print value := by
  unfold print
  cases Numeral.write? value with
  | none => exact fun e => ⟨.error .longValue e, fun _ => rfl⟩
  | some line => exact fun e => ⟨.ok () (e.printLine line), fun _ => rfl⟩

theorem alike_openScope : Alike fun _ => openScope :=
  fun e => ⟨.ok () { e with scopes := e.scopes.openScope }, fun _ => rfl⟩

theorem alike_closeScope : Alike fun _ => closeScope := by
  intro e
  refine ⟨.ok () { e with scopes := e.scopes.closeScope }, fun ρ => ?_⟩
  have closed := e.scopes.relabel_closeScope ρ
  exact congrArg (fun scopes => EStateM.Result.ok () { e with scopes := scopes }) closed.symm

theorem alike_braces {step : Relabelling → Exec Unit} (h : Alike step) :
    Alike fun ρ => (do openScope; step ρ; closeScope) :=
  alike_openScope.bind fun _ => h.bind fun _ => alike_closeScope

/-- A statement is executed alike under all relabellings, if what stands between its braces
is. -/
theorem alike_statement {stmt : Node}
    (body : Alike fun ρ => statements (Node.mapTokensAll ρ.name ρ.other stmt.body)) :
    Alike fun ρ => statement (stmt.relabel ρ) := by
  cases stmt with
  | varDecl word name equals init =>
      simp only [Node.relabel, Node.mapTokens, statement]
      exact (alike_valueOf init).bind fun value => alike_declare word name value
  | assign name equals node =>
      simp only [Node.relabel, Node.mapTokens, statement]
      exact (alike_valueOf node).bind fun value => alike_assign name value
  | print word node =>
      simp only [Node.relabel, Node.mapTokens, statement]
      exact (alike_valueOf node).bind fun value => alike_print value
  | conditional paren cond brace stmts =>
      simp only [Node.relabel, Node.mapTokens, statement]
      apply (alike_valueOf cond).bind
      intro value
      split
      · exact alike_braces body
      · exact .pure ()
  | block brace stmts =>
      simp only [Node.relabel, Node.mapTokens, statement]
      exact alike_braces body
  | _ =>
      simp only [Node.relabel, Node.mapTokens, statement, Node.sort]
      exact fun e => ⟨.error (.unknownStatement _) e, fun _ => rfl⟩

theorem alike_statements (stmts : List Node) :
    Alike fun ρ => statements (Node.mapTokensAll ρ.name ρ.other stmts) := by
  induction stmts using Node.list_induction with
  | nil =>
      simp only [Node.mapTokensAll, statements]
      exact .pure ()
  | cons stmt rest body_ih rest_ih =>
      simp only [Node.mapTokensAll, statements]
      exact (alike_statement body_ih).bind fun _ => rest_ih

end Exec

namespace Check

/-- A problem of a program with the tokens and places that its report shows. For a variable that
its scope declares already, this includes the place where it does. -/
inductive Finding
  | undeclared (name : Token)
  | redeclared (name : Token) (first : Position)
  | mismatch (equals : Token) (found expected : Ty)
  | operands (op : Token) (left right : Ty)
  | condition (paren : Token) (found : Ty)
deriving DecidableEq, Repr

/-- The report of a finding under new names and places. -/
def Finding.report (ρ : Relabelling) : Finding → Report
  | .undeclared name => ⟨.undeclared (ρ.rename name.text), ρ.name name⟩
  | .redeclared name first =>
    ⟨.redeclared (ρ.rename name.text) (ρ.move first).line, ρ.name name⟩
  | .mismatch equals found expected => ⟨.mismatch found expected, ρ.other equals⟩
  | .operands op left right => ⟨.operands op.text left right, ρ.other op⟩
  | .condition paren found => ⟨.condition found, ρ.other paren⟩

/-- What the diagnostic of a finding says under new names and places, and of which place. -/
def Finding.diagnostic (ρ : Relabelling) : Finding → Diagnostic
  | .undeclared name =>
    ⟨"Variable '" ++ ρ.rename name.text ++ "' has not been declared.", ρ.move name.position⟩
  | .redeclared name first =>
    ⟨"Variable '" ++ ρ.rename name.text ++ "' was already declared in this scope at line " ++
      Numeral.decimal (ρ.move first).line ++ ".", ρ.move name.position⟩
  | .mismatch equals found expected =>
    ⟨"Cannot assign a value of type '" ++ found.render ++ "' to a variable of type '" ++
      expected.render ++ "'.", ρ.move equals.position⟩
  | .operands op left right =>
    ⟨"Operator '" ++ op.text ++ "' can only be applied to operands of type 'int', but found '" ++
      left.render ++ "' and '" ++ right.render ++ "'.", ρ.move op.position⟩
  | .condition paren found =>
    ⟨"The condition of an 'if' statement must be of type 'boolean', but found type '" ++
      found.render ++ "'.", ρ.move paren.position⟩

theorem Finding.diagnostic_report (ρ : Relabelling) (finding : Finding) :
    (finding.report ρ).diagnostic = finding.diagnostic ρ := by
  cases finding <;> rfl

/-- The diagnostic of a finding is about the new place of the same token. -/
theorem Finding.position_diagnostic (ρ : Relabelling) (finding : Finding) :
    (finding.diagnostic ρ).position = ρ.move (finding.diagnostic .identity).position := by
  cases finding <;> rfl

/-- A state of checking with findings in place of reports. -/
structure Outline where
  scopes : ScopeStack
  findings : List Finding

/-- The state of checking under new names and places. -/
def Outline.checker (ρ : Relabelling) (o : Outline) : Checker :=
  ⟨o.scopes.relabel ρ, (o.findings.map (Finding.report ρ)).toArray⟩

theorem Outline.diagnostics_checker (ρ : Relabelling) (o : Outline) :
    (o.checker ρ).diagnostics = o.findings.map (Finding.diagnostic ρ) := by
  simp [Checker.diagnostics, checker, Finding.diagnostic_report]

/-- How checks of relabelled programs show a common state. Their faults are the same. -/
def view : Step.View Relabelling Fault Checker Outline := ⟨Outline.checker, fun _ f => f⟩

/-- From the states of an outline all steps come to the states of one outline, with one
result. -/
abbrev Alike {α : Type} (step : Relabelling → Check α) : Prop :=
  Uniform view (fun _ result => result) step

theorem alike_report (finding : Finding) :
    Alike fun ρ => report (finding.report ρ).problem (finding.report ρ).token := by
  intro o
  refine ⟨.ok () { o with findings := o.findings ++ [finding] }, fun ρ => ?_⟩
  change EStateM.Result.ok () ((o.checker ρ).report _ _) = .ok () (Outline.checker ρ _)
  simp [Checker.report, Outline.checker]

/-- A name is declared, or found again in the innermost scope, under all relabellings. -/
theorem alike_declare (name : Token) (type : Ty) : Alike fun ρ => declare (ρ.name name) type := by
  rintro ⟨⟨scopes⟩, findings⟩
  cases scopes with
  | nil => exact ⟨.error .noScope ⟨⟨[]⟩, findings⟩, fun _ => rfl⟩
  | cons innermost outer =>
      have shown (ρ : Relabelling) :
          (innermost.relabel ρ).find? (ρ.name name).text = (innermost.find? name.text).map _ :=
        innermost.find?_relabel ρ name.text
      cases found : innermost.find? name.text with
      | some earlier =>
          rw [found] at shown
          obtain ⟨outcome, reported⟩ :=
            alike_report (.redeclared name earlier.token.position) ⟨⟨innermost :: outer⟩, findings⟩
          refine ⟨outcome, fun ρ => (Eq.trans ?_ (reported ρ))⟩
          have declared : (view.state ρ ⟨⟨innermost :: outer⟩, findings⟩).scopes.declare
              (ρ.name name).text type (ρ.name name) =
              .error (.redeclared (ρ.name name).text (ρ.name name)
                (ρ.move earlier.token.position).line) := by
            simp only [view, Outline.checker, ScopeStack.relabel, List.map_cons,
              ScopeStack.declare, shown]
            rfl
          simp only [declare, Step.get_bind_apply, declared]
          rfl
      | none =>
          rw [found] at shown
          refine ⟨.ok () ⟨⟨innermost.insert ⟨name.text, type, name, none⟩ :: outer⟩, findings⟩,
            fun ρ => ?_⟩
          have declared : (view.state ρ ⟨⟨innermost :: outer⟩, findings⟩).scopes.declare
              (ρ.name name).text type (ρ.name name) =
              .ok (.relabel ρ ⟨innermost.insert ⟨name.text, type, name, none⟩ :: outer⟩) := by
            simp only [view, Outline.checker, ScopeStack.relabel, List.map_cons,
              ScopeStack.declare, shown, Scope.relabel_insert]
            rfl
          simp only [declare, Step.get_bind_apply, declared]
          rfl

theorem uniform_resolve (name : Token) :
    Uniform view (fun ρ => Option.map (Symbol.relabel ρ)) fun ρ => resolve (ρ.name name) := by
  intro o
  have shown (ρ : Relabelling) : (view.state ρ o).scopes.lookup? (ρ.name name).text =
      (o.scopes.lookup? name.text).map (Symbol.relabel ρ) :=
    o.scopes.lookup?_relabel ρ name.text
  cases found : o.scopes.lookup? name.text with
  | some sym =>
      rw [found] at shown
      refine ⟨.ok (some sym) o, fun ρ => ?_⟩
      simp only [resolve, Step.get_bind_apply, shown]
      rfl
  | none =>
      rw [found] at shown
      have gone : Uniform view (fun ρ => Option.map (Symbol.relabel ρ)) fun _ => pure none :=
        .pure none
      obtain ⟨outcome, reported⟩ := (alike_report (.undeclared name)).bind (fun _ => gone) o
      refine ⟨outcome, fun ρ => Eq.trans ?_ (reported ρ)⟩
      simp only [resolve, Step.get_bind_apply, shown]
      rfl

theorem alike_reportIf (wrong : Bool) (finding : Finding) :
    Alike fun ρ => if wrong then report (finding.report ρ).problem (finding.report ρ).token
      else pure () := by
  split
  · exact alike_report finding
  · exact .pure ()

theorem alike_expectMatch (equals : Token) (found expected : Ty) :
    Alike fun ρ => expectMatch (ρ.other equals) found expected :=
  alike_reportIf _ (.mismatch equals found expected)

theorem alike_operation (op : Token) (left right : Ty) :
    Alike fun ρ => operation (ρ.other op) left right := by
  unfold operation
  split
  · exact .pure _
  · split
    · exact .pure _
    · exact (alike_report (.operands op left right)).bind fun _ => .pure _

theorem alike_typeOf (node : Node) : Alike fun ρ => typeOf (node.relabel ρ) := by
  unfold Node.relabel
  fun_induction typeOf node with
  | case1 => exact .pure Ty.int
  | case2 => exact .pure Ty.boolean
  | case3 name =>
      simp only [Node.mapTokens, typeOf]
      apply (uniform_resolve name).bind
      intro target
      cases target with
      | none => exact .pure Ty.error
      | some sym => exact .pure sym.type
  | case4 op left right left_ih right_ih =>
      simp only [Node.mapTokens, typeOf]
      exact left_ih.bind fun l => right_ih.bind fun r => alike_operation op l r
  | case5 node =>
      have thrown (ρ : Relabelling) : typeOf (node.mapTokens ρ.name ρ.other) =
          throw (.unknownExpression node.sort) := by
        cases node <;> simp_all [Node.mapTokens, typeOf, Node.sort]
      simp only [thrown]
      exact fun o => ⟨.error _ o, fun _ => rfl⟩

theorem alike_openScope : Alike fun _ => openScope :=
  fun o => ⟨.ok () { o with scopes := o.scopes.openScope }, fun _ => rfl⟩

theorem alike_closeScope : Alike fun _ => closeScope := by
  intro o
  refine ⟨.ok () { o with scopes := o.scopes.closeScope }, fun ρ => ?_⟩
  have closed := o.scopes.relabel_closeScope ρ
  exact congrArg (fun scopes => EStateM.Result.ok () { o.checker ρ with scopes := scopes })
    closed.symm

theorem alike_braces {step : Relabelling → Check Unit} (h : Alike step) :
    Alike fun ρ => (do openScope; step ρ; closeScope) :=
  alike_openScope.bind fun _ => h.bind fun _ => alike_closeScope

/-- A statement is checked alike under all relabellings, if what stands between its braces
is. -/
theorem alike_statement {stmt : Node}
    (body : Alike fun ρ => statements (Node.mapTokensAll ρ.name ρ.other stmt.body)) :
    Alike fun ρ => statement (stmt.relabel ρ) := by
  cases stmt with
  | varDecl word name equals init =>
      simp only [Node.relabel, Node.mapTokens, statement, declaredType, Relabelling.text_other]
      cases Ty.ofWord? word.text with
      | none => exact fun o => ⟨.error (.unknownType word.text) o, fun _ => rfl⟩
      | some type =>
          simp only [pure_bind]
          apply (alike_declare name type).bind
          intro _
          apply (alike_typeOf init).bind
          intro found
          exact alike_expectMatch equals found type
  | assign name equals value =>
      simp only [Node.relabel, Node.mapTokens, statement]
      apply (uniform_resolve name).bind
      intro target
      apply (alike_typeOf value).bind
      intro found
      cases target with
      | none => exact .pure ()
      | some sym => exact alike_expectMatch equals found sym.type
  | conditional paren cond brace stmts =>
      simp only [Node.relabel, Node.mapTokens, statement]
      apply (alike_typeOf cond).bind
      intro found
      apply (alike_reportIf _ (.condition paren found)).bind
      intro _
      exact alike_braces body
  | block brace stmts =>
      simp only [Node.relabel, Node.mapTokens, statement]
      exact alike_braces body
  | print word value =>
      simp only [Node.relabel, Node.mapTokens, statement]
      exact (alike_typeOf value).bind fun _ => .pure ()
  | _ =>
      simp only [Node.relabel, Node.mapTokens, statement, Node.sort]
      exact fun o => ⟨.error (.unknownStatement _) o, fun _ => rfl⟩

theorem alike_statements (stmts : List Node) :
    Alike fun ρ => statements (Node.mapTokensAll ρ.name ρ.other stmts) := by
  induction stmts using Node.list_induction with
  | nil =>
      simp only [Node.mapTokensAll, statements]
      exact .pure ()
  | cons stmt rest body_ih rest_ih =>
      simp only [Node.mapTokensAll, statements]
      exact (alike_statement body_ih).bind fun _ => rest_ih

end Check

theorem Exec.outcome_identity (outcome : EStateM.Result Fault Executor Unit) :
    view.outcome .identity id outcome = outcome := by
  cases outcome with
  | ok _ e => simp [Step.View.outcome, view, Executor.relabel]
  | error f e => simp [Step.View.outcome, view, Executor.relabel, Fault.relabel_identity]

/-- A relabelled program is executed as the program is, with the new names and places. -/
theorem Exec.program_relabel (ρ : Relabelling) (p : Program) :
    program (p.relabel ρ) .initial = view.outcome ρ id (program p .initial) := by
  obtain ⟨outcome, shown⟩ := alike_statements p.stmts .initial
  have own : program (p.relabel .identity) .initial = view.outcome .identity id outcome :=
    shown .identity
  rw [p.relabel_identity, outcome_identity] at own
  rw [own]
  exact shown ρ

/-- A relabelled program has the same findings as the program, and ends with the same fault. -/
theorem Check.exists_outcome (p : Program) :
    ∃ outcome : EStateM.Result Fault Outline Unit, ∀ ρ : Relabelling,
      program (p.relabel ρ) .initial = view.outcome ρ id outcome :=
  alike_statements p.stmts ⟨.initial, []⟩

theorem Check.fault?_outcome (ρ : Relabelling) (outcome : EStateM.Result Fault Outline Unit) :
    Step.fault? (view.outcome ρ id outcome) = Step.fault? outcome := by
  cases outcome <;> rfl

theorem Check.endState_outcome (ρ : Relabelling) (outcome : EStateM.Result Fault Outline Unit) :
    Step.endState (view.outcome ρ id outcome) = (Step.endState outcome).checker ρ := by
  cases outcome <;> rfl

/-- Names and places are inert. For every program there are findings whose reports are those of
checking the program, and under every relabelling those of checking the relabelled program: each
report is about the new place of the same token, and says the same of the new names, with the
line of the new place of the first declaration. The diagnostics follow the reports one by one, and
their texts differ in these names and lines only. Checking ends with the same fault, if any, in the
same scopes under new names and places. Execution of the relabelled program prints the same lines,
writes the same text to the stream, and succeeds or ends with a fault of the same class and
message. -/
theorem names_and_places_are_inert (p : Program) :
    (∃ findings : List Check.Finding,
      (Step.endState (Check.program p .initial)).reports.toList =
        findings.map (Check.Finding.report .identity) ∧
      (Step.endState (Check.program p .initial)).diagnostics =
        findings.map (Check.Finding.diagnostic .identity) ∧
      ∀ ρ : Relabelling,
        let ended := Check.program p .initial
        let relabelled := Check.program (p.relabel ρ) .initial
        (Step.endState relabelled).reports.toList = findings.map (Check.Finding.report ρ) ∧
        (Step.endState relabelled).diagnostics = findings.map (Check.Finding.diagnostic ρ) ∧
        (Step.endState relabelled).diagnostics.map Diagnostic.position =
          (Step.endState ended).diagnostics.map (fun d => ρ.move d.position) ∧
        (Step.endState relabelled).scopes = (Step.endState ended).scopes.relabel ρ ∧
        Step.fault? relabelled = Step.fault? ended) ∧
    ∀ ρ : Relabelling,
      let ended := Exec.program p .initial
      let relabelled := Exec.program (p.relabel ρ) .initial
      (Step.endState relabelled).output = (Step.endState ended).output ∧
      (Step.endState relabelled).stream = (Step.endState ended).stream ∧
      (Step.endState relabelled).scopes = (Step.endState ended).scopes.relabel ρ ∧
      (Step.fault? relabelled).map (fun f => (f.label, f.message)) =
        (Step.fault? ended).map (fun f => (f.label, f.message)) := by
  refine ⟨?_, ?_⟩
  · obtain ⟨outcome, shown⟩ := Check.exists_outcome p
    have own := shown .identity
    rw [p.relabel_identity] at own
    refine ⟨(Step.endState outcome).findings, ?_, ?_, fun ρ => ?_⟩
    · simp [own, Check.endState_outcome, Check.Outline.checker]
    · rw [own, Check.endState_outcome, Check.Outline.diagnostics_checker]
    · simp only [own, shown ρ, Check.endState_outcome, Check.fault?_outcome,
        Check.Outline.diagnostics_checker]
      simp only [Check.Outline.checker, ScopeStack.relabel_identity, List.map_map, and_true,
        true_and]
      apply List.map_congr_left
      intro finding _
      exact finding.position_diagnostic ρ
  · intro ρ ended relabelled
    have shown : relabelled = Exec.view.outcome ρ id ended := Exec.program_relabel ρ p
    rw [shown]
    cases ended with
    | ok _ e => exact ⟨rfl, rfl, rfl, rfl⟩
    | error f e => exact ⟨rfl, rfl, rfl, congrArg some (f.report_relabel ρ)⟩

example :
    let twice : Program := ⟨[.varDecl ⟨"int", 1, 0⟩ ⟨"x", 1, 4⟩ ⟨"=", 1, 6⟩ (.intLit ⟨"1", 1, 8⟩),
      .varDecl ⟨"int", 2, 0⟩ ⟨"x", 2, 4⟩ ⟨"=", 2, 6⟩ (.ident ⟨"y", 2, 8⟩)]⟩
    let ρ : Relabelling := ⟨Equiv.swap "x" "y", fun p => ⟨7 * p.line, 0⟩, Equiv.injective _⟩
    (Step.endState (Check.program (twice.relabel ρ) .initial)).diagnostics =
      [⟨"Variable 'y' was already declared in this scope at line 7.", ⟨14, 0⟩⟩,
        ⟨"Variable 'x' has not been declared.", ⟨14, 0⟩⟩] := by
  decide

end BlockLang

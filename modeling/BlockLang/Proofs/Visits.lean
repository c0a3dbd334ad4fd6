import BlockLang.Proofs.Typing

/-!
# How checking goes through a statement

Checking looks at the expression of a statement after it has declared or resolved the name
of the statement, if it has one, and compares the type of the expression before it goes on to
the statements between the braces. `Check.statement_of_expression` takes a statement apart
into these steps.

Within an expression, checking comes to every part once, to the left operand of an operator
before the right one. A path of sides says where in the expression a part stands, and
`Check.Visits` in which state checking comes to it. Two parts may be equal node by node and
token by token, and still stand at different paths.
-/

namespace BlockLang

/-- One of the operands of an operator. -/
inductive Side
  | left
  | right
deriving DecidableEq, Repr

namespace Node

/-- The part of an expression at the end of a path, which leads from operators to their
operands. -/
def part? : Node → List Side → Option Node
  | node, [] => some node
  | .binary _ left _, .left :: path => left.part? path
  | .binary _ _ right, .right :: path => right.part? path
  | _, _ :: _ => none

@[simp] theorem part?_nil (node : Node) : node.part? [] = some node := by
  cases node <;> rfl

theorem part?_cons_of_single {node : Node} (single : ∀ op left right, node ≠ .binary op left right)
    (side : Side) (path : List Side) : node.part? (side :: path) = none := by
  cases node with
  | binary op left right => exact absurd rfl (single op left right)
  | _ => cases side <;> rfl

end Node

namespace Check

variable {c c' d : Checker}

section Names

variable {name : Token} {sym : Symbol}

theorem resolve_of_some (found : c.scopes.lookup? name.text = some sym) :
    resolve name c = .ok (some sym) c := by
  simp only [resolve, Step.get_bind_apply, found]
  rfl

theorem resolve_of_none (unbound : c.scopes.lookup? name.text = none) :
    resolve name c = .ok none (c.report (.undeclared name.text) name) := by
  simp only [resolve, Step.get_bind_apply, unbound]
  rfl

/-- A variable has the type of its innermost declaration. -/
theorem typeOf_ident_of_some (found : c.scopes.lookup? name.text = some sym) :
    typeOf (.ident name) c = .ok sym.type c := by
  rw [typeOf, Step.bind_of_ok (resolve_of_some found)]
  rfl

/-- A variable without a declaration is reported and has no type. -/
theorem typeOf_ident_of_none (unbound : c.scopes.lookup? name.text = none) :
    typeOf (.ident name) c = .ok .error (c.report (.undeclared name.text) name) := by
  rw [typeOf, Step.bind_of_ok (resolve_of_none unbound)]
  rfl

end Names

section Operands

variable {op : Token} {left right part : Node} {type leftType rightType : Ty}

theorem typeOf_binary_eq_ok_iff :
    typeOf (.binary op left right) c = .ok type c' ↔
      ∃ leftType u rightType v, typeOf left c = .ok leftType u ∧
        typeOf right u = .ok rightType v ∧ operation op leftType rightType v = .ok type c' := by
  rw [typeOf, Step.bind_eq_ok_iff]
  constructor
  · rintro ⟨leftType, u, leftLooked, others⟩
    obtain ⟨rightType, v, rightLooked, operated⟩ := Step.bind_eq_ok_iff.mp others
    exact ⟨leftType, u, rightType, v, leftLooked, rightLooked, operated⟩
  · rintro ⟨leftType, u, rightType, v, leftLooked, rightLooked, operated⟩
    exact ⟨leftType, u, leftLooked, Step.bind_eq_ok_iff.mpr ⟨rightType, v, rightLooked, operated⟩⟩

theorem operation_of_lost (lost : leftType.isError = true ∨ rightType.isError = true) :
    operation op leftType rightType c = .ok .error c := by
  rw [operation, if_pos (by simpa using lost)]
  rfl

theorem operation_of_int : operation op .int .int c = .ok .int c := rfl

/-- Operands with types that are not both integers are reported. -/
theorem operation_of_misfit (leftProper : leftType.isError = false)
    (rightProper : rightType.isError = false) (misfit : ¬ (leftType = .int ∧ rightType = .int)) :
    operation op leftType rightType c =
      .ok .error (c.report (.operands op.text leftType rightType) op) := by
  have proper : ¬ (leftType.isError || rightType.isError) = true := by
    simp [leftProper, rightProper]
  have notInts : ¬ (leftType.isMatch .int && rightType.isMatch .int) = true := by
    rwa [Bool.and_eq_true, Ty.isMatch_iff leftProper, Ty.isMatch_iff rightProper]
  rw [operation, if_neg proper, if_neg notInts]
  rfl

/-- An operation changes nothing, or it is reported. -/
theorem operation_outcome (operated : operation op leftType rightType c = .ok type c') :
    c' = c ∨ c' = c.report (.operands op.text leftType rightType) op := by
  unfold operation at operated
  split at operated
  · cases operated
    exact .inl rfl
  · split at operated
    · cases operated
      exact .inl rfl
    · cases operated
      exact .inr rfl

theorem scopes_operation (operated : operation op leftType rightType c = .ok type c') :
    c'.scopes = c.scopes := by
  obtain rfl | rfl := operation_outcome operated
  · rfl
  · rfl

/-- Looking for the type of an expression leaves the scopes as they are. -/
theorem scopes_typeOf {node : Node} (looked : typeOf node c = .ok type c') :
    c'.scopes = c.scopes := by
  fun_induction typeOf node generalizing c c' type with
  | case1 =>
      cases looked
      rfl
  | case2 =>
      cases looked
      rfl
  | case3 name =>
      rw [← typeOf] at looked
      cases found : c.scopes.lookup? name.text with
      | some sym =>
          cases (typeOf_ident_of_some found).symm.trans looked
          rfl
      | none =>
          cases (typeOf_ident_of_none found).symm.trans looked
          rfl
  | case4 op left right left_ih right_ih =>
      rw [← typeOf] at looked
      obtain ⟨leftType, u, rightType, v, leftLooked, rightLooked, operated⟩ :=
        typeOf_binary_eq_ok_iff.mp looked
      exact (scopes_operation operated).trans ((right_ih rightLooked).trans (left_ih leftLooked))
  | case5 => cases looked

end Operands

/-- When checking looks for the type of an expression in the state `c`, it comes to the part
at the end of the path in the state `d`. -/
inductive Visits : Checker → Node → List Side → Node → Checker → Prop
  | here (c : Checker) (node : Node) : Visits c node [] node c
  | left {c d : Checker} {op : Token} {left right part : Node} {path : List Side}
      (within : Visits c left path part d) :
      Visits c (.binary op left right) (.left :: path) part d
  /-- The right operand is looked at after the left one. -/
  | right {c u d : Checker} {op : Token} {left right part : Node} {path : List Side}
      {leftType : Ty} (before : typeOf left c = .ok leftType u)
      (within : Visits u right path part d) :
      Visits c (.binary op left right) (.right :: path) part d

namespace Visits

variable {node part : Node} {path : List Side}

/-- Checking comes to a part in one state. -/
theorem unique {part' : Node} {d' : Checker} (h : Visits c node path part d)
    (h' : Visits c node path part' d') : part' = part ∧ d' = d := by
  induction h with
  | here =>
      cases h'
      exact ⟨rfl, rfl⟩
  | left _ ih =>
      cases h' with
      | left within => exact ih within
  | right before _ ih =>
      cases h' with
      | right before' within =>
          rw [before] at before'
          cases before'
          exact ih within

/-- The scopes are the same in all parts of an expression. -/
theorem scopes_eq (h : Visits c node path part d) : d.scopes = c.scopes := by
  induction h with
  | here => rfl
  | left _ ih => exact ih
  | right before _ ih => exact ih.trans (scopes_typeOf before)

end Visits

/-- If an expression is looked at to its end, then so is each part of it. -/
theorem exists_visits {node part : Node} {path : List Side} {type : Ty}
    (looked : typeOf node c = .ok type c') (stands : node.part? path = some part) :
    ∃ d partType d', Visits c node path part d ∧ typeOf part d = .ok partType d' := by
  fun_induction Node.part? node path generalizing c c' type with
  | case1 =>
      cases stands
      exact ⟨c, type, c', .here c part, looked⟩
  | case2 op left right path ih =>
      obtain ⟨leftType, u, _, _, leftLooked, _⟩ := typeOf_binary_eq_ok_iff.mp looked
      obtain ⟨d, partType, d', within, partLooked⟩ := ih leftLooked stands
      exact ⟨d, partType, d', .left within, partLooked⟩
  | case3 op left right path ih =>
      obtain ⟨leftType, u, rightType, v, leftLooked, rightLooked, _⟩ :=
        typeOf_binary_eq_ok_iff.mp looked
      obtain ⟨d, partType, d', within, partLooked⟩ := ih rightLooked stands
      exact ⟨d, partType, d', .right leftLooked within, partLooked⟩
  | case4 => cases stands

/-- What checking does at a statement before it looks at the expression. The answer says what
it compares the type of the expression with. -/
def prepare : Node → Check (Ty → Check Unit)
  | .varDecl word name equals _ => do
    let type ← declaredType word
    declare name type
    pure fun found => expectMatch equals found type
  | .assign name equals _ => do
    match ← resolve name with
    | some sym => pure fun found => expectMatch equals found sym.type
    | none => pure fun _ => pure ()
  | .conditional paren _ _ _ => pure (expectCondition paren)
  | _ => pure fun _ => pure ()

/-- What checking does at a statement after it has compared the type of the expression. -/
def proceed : Node → Check Unit
  | .conditional _ _ _ body => do
    openScope
    statements body
    closeScope
  | _ => pure ()

/-- The steps in which a statement with an expression is checked. -/
theorem statement_of_expression {stmt expr : Node} (part : stmt.expression? = some expr) :
    statement stmt = (do
      let compare ← prepare stmt
      let found ← typeOf expr
      compare found
      proceed stmt) := by
  cases stmt with
  | varDecl word name equals init =>
      cases part
      simp only [statement, prepare, proceed, bind_assoc, pure_bind, bind_pure_unit]
  | assign name equals value =>
      cases part
      simp only [statement, prepare, proceed, bind_assoc, bind_pure_unit]
      congr 1
      funext target
      cases target with
      | none => simp only [pure_bind]
      | some sym => simp only [pure_bind]
  | conditional paren cond brace body =>
      cases part
      simp only [statement, prepare, proceed, pure_bind]
  | print word value =>
      cases part
      simp only [statement, prepare, proceed, pure_bind]
  | _ => cases part

/-- A statement without an expression is a block, or none at all. -/
theorem block_or_throw {stmt : Node} (none : stmt.expression? = none) :
    (∃ brace body, stmt = .block brace body) ∨
      statement stmt = throw (.unknownStatement stmt.sort) := by
  cases stmt with
  | block brace body => exact .inl ⟨brace, body, rfl⟩
  | varDecl => cases none
  | assign => cases none
  | conditional => cases none
  | print => cases none
  | _ =>
      simp only [statement]
      exact .inr trivial

theorem reportIf_cases {found : Ty} {fits : Bool} {problem : Problem} {token : Token}
    (e : Checker) :
    (if !found.isError && !fits then report problem token else pure () : Check Unit) e = .ok () e ∨
    found.isError = false ∧
      (if !found.isError && !fits then report problem token else pure () : Check Unit) e =
        .ok () (e.report problem token) := by
  cases lost : found.isError with
  | true => exact .inl rfl
  | false =>
      cases fits with
      | true => exact .inl rfl
      | false => exact .inr ⟨rfl, rfl⟩

/-- The comparison of a type at a statement is reported at most once, and not if the type is
lost. -/
theorem compare_cases {stmt : Node} {compare : Ty → Check Unit}
    (prepared : prepare stmt c = .ok compare d) (found : Ty) (e : Checker) :
    compare found e = .ok () e ∨
    found.isError = false ∧ ∃ problem token, compare found e = .ok () (e.report problem token) ∧
      (problem = .condition found ∨ ∃ expected, problem = .mismatch found expected) := by
  cases stmt with
  | varDecl word name equals init =>
      obtain ⟨type, u, _, others⟩ := Step.bind_eq_ok_iff.mp prepared
      obtain ⟨_, v, _, given⟩ := Step.bind_eq_ok_iff.mp others
      cases given
      refine (reportIf_cases e).imp id ?_
      rintro ⟨kept, made⟩
      exact ⟨kept, _, equals, made, .inr ⟨type, rfl⟩⟩
  | assign name equals value =>
      obtain ⟨target, u, _, given⟩ := Step.bind_eq_ok_iff.mp prepared
      cases target with
      | none =>
          cases given
          exact .inl rfl
      | some sym =>
          cases given
          refine (reportIf_cases e).imp id ?_
          rintro ⟨kept, made⟩
          exact ⟨kept, _, equals, made, .inr ⟨sym.type, rfl⟩⟩
  | conditional paren cond brace body =>
      cases prepared
      refine (reportIf_cases e).imp id ?_
      rintro ⟨kept, made⟩
      exact ⟨kept, _, paren, made, .inl rfl⟩
  | _ =>
      cases prepared
      exact .inl rfl

theorem scopes_compare {stmt : Node} {compare : Ty → Check Unit} {type : Ty} {e : Checker}
    (prepared : prepare stmt c = .ok compare d) (compared : compare type e = .ok () c') :
    c'.scopes = e.scopes := by
  obtain same | ⟨_, problem, token, made, _⟩ := compare_cases prepared type e
  · cases same.symm.trans compared
    rfl
  · cases made.symm.trans compared
    rfl

/-- A statement with an expression that is checked to its end has come through all its steps. -/
theorem steps_of_statement {stmt expr : Node} (part : stmt.expression? = some expr)
    (ran : statement stmt c = .ok () c') :
    ∃ compare d type e e', prepare stmt c = .ok compare d ∧ typeOf expr d = .ok type e ∧
      compare type e = .ok () e' ∧ proceed stmt e' = .ok () c' := by
  rw [statement_of_expression part] at ran
  obtain ⟨compare, d, prepared, others⟩ := Step.bind_eq_ok_iff.mp ran
  obtain ⟨type, e, looked, others⟩ := Step.bind_eq_ok_iff.mp others
  obtain ⟨_, e', compared, proceeded⟩ := Step.bind_eq_ok_iff.mp others
  exact ⟨compare, d, type, e, e', prepared, looked, compared, proceeded⟩

end Check

end BlockLang

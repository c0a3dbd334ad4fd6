import BlockLang.Proofs.Checking

/-!
# Typing

The typing rules of the language, over the scopes that are open where an expression or a
statement stands. `HasType` gives expressions their types, and `WellTyped` says of a
statement list that it is well typed in some scopes and which scopes it leaves. The rules
do not mention reports, faults or the order in which anything is visited.

A declaration extends the innermost scope, and its first value is typed in the extended
scopes: a variable is visible in its own first value. The statements between braces are
typed in a new innermost scope, and what follows the closing brace is typed in the scopes
from before the opening one.

Checking is clean exactly on what is well typed, and it then leaves the scopes that the
rules give. The scopes must hold symbols with types of the language, as those that checking
declares do; a symbol without a type would be used without a report.
-/

namespace BlockLang

/-- The symbol has a type of the language. -/
def Symbol.Typed (s : Symbol) : Prop :=
  s.type = .int ∨ s.type = .boolean

/-- The expression has the type where the scopes are open. -/
inductive HasType (Γ : ScopeStack) : Node → Ty → Prop
  | intLit (literal : Token) : HasType Γ (.intLit literal) .int
  | boolLit (literal : Token) : HasType Γ (.boolLit literal) .boolean
  /-- A variable has the type of its innermost declaration. -/
  | ident {name : Token} {sym : Symbol} {type : Ty} (bound : Γ.lookup? name.text = some sym)
      (declared : sym.type = type) : HasType Γ (.ident name) type
  /-- Every operator is one of integers. -/
  | binary {op : Token} {left right : Node} (leftInt : HasType Γ left .int)
      (rightInt : HasType Γ right .int) : HasType Γ (.binary op left right) .int

/-- The statements are well typed where the scopes `Γ` are open, and leave the scopes
`Δ`. -/
inductive WellTyped : ScopeStack → List Node → ScopeStack → Prop
  | nil (Γ : ScopeStack) : WellTyped Γ [] Γ
  /-- A declaration of a name that is new to the innermost scope. -/
  | varDecl {Γ Γ' Δ : ScopeStack} {word name equals : Token} {init : Node} {type : Ty}
      {rest : List Node} (known : Ty.ofWord? word.text = some type)
      (fresh : Γ.Fresh name.text)
      (extended : Γ.insert? ⟨name.text, type, name, none⟩ = some Γ')
      (value : HasType Γ' init type) (tail : WellTyped Γ' rest Δ) :
      WellTyped Γ (.varDecl word name equals init :: rest) Δ
  | assign {Γ Δ : ScopeStack} {name equals : Token} {node : Node} {sym : Symbol}
      {rest : List Node} (bound : Γ.lookup? name.text = some sym)
      (value : HasType Γ node sym.type) (tail : WellTyped Γ rest Δ) :
      WellTyped Γ (.assign name equals node :: rest) Δ
  | conditional {Γ Γ' Δ : ScopeStack} {paren brace : Token} {cond : Node}
      {body rest : List Node} (isBoolean : HasType Γ cond .boolean)
      (inner : WellTyped Γ.openScope body Γ') (tail : WellTyped Γ rest Δ) :
      WellTyped Γ (.conditional paren cond brace body :: rest) Δ
  | block {Γ Γ' Δ : ScopeStack} {brace : Token} {body rest : List Node}
      (inner : WellTyped Γ.openScope body Γ') (tail : WellTyped Γ rest Δ) :
      WellTyped Γ (.block brace body :: rest) Δ
  | print {Γ Δ : ScopeStack} {word : Token} {node : Node} {type : Ty} {rest : List Node}
      (value : HasType Γ node type) (tail : WellTyped Γ rest Δ) :
      WellTyped Γ (.print word node :: rest) Δ

namespace Ty

theorem ofWord?_eq_some {word : String} {type : Ty} (h : ofWord? word = some type) :
    type = .int ∧ word = "int" ∨ type = .boolean ∧ word = "boolean" := by
  unfold ofWord? at h
  split at h
  · exact .inl ⟨(Option.some.inj h).symm, ‹_›⟩
  · split at h
    · exact .inr ⟨(Option.some.inj h).symm, ‹_›⟩
    · cases h

theorem isMatch_iff {t u : Ty} (proper : t.isError = false) : t.isMatch u = true ↔ t = u := by
  unfold isMatch
  constructor
  · intro h
    simp only [Bool.and_eq_true, beq_iff_eq] at h
    exact h.2
  · rintro rfl
    simp [proper]

theorem isError_eq_false {t : Ty} (h : t = .int ∨ t = .boolean) : t.isError = false := by
  rcases h with rfl | rfl <;> rfl

end Ty

namespace HasType

variable {Γ Γ' : ScopeStack} {node : Node} {type : Ty}

theorem binary_iff {op : Token} {left right : Node} :
    HasType Γ (.binary op left right) type ↔
      type = .int ∧ HasType Γ left .int ∧ HasType Γ right .int := by
  constructor
  · intro h
    cases h with
    | binary leftInt rightInt => exact ⟨rfl, leftInt, rightInt⟩
  · rintro ⟨rfl, leftInt, rightInt⟩
    exact .binary leftInt rightInt

/-- Typed scopes give expressions types of the language only. -/
theorem proper (h : HasType Γ node type) (typed : Γ.All Symbol.Typed) :
    type = .int ∨ type = .boolean := by
  cases h with
  | intLit => exact .inl rfl
  | boolLit => exact .inr rfl
  | ident bound declared => exact declared ▸ typed.lookup? bound
  | binary => exact .inl rfl

/-- The operands of a typed expression are typed. -/
theorem leaf {leaf : Node} (h : HasType Γ node type) (member : leaf ∈ node.leaves) :
    ∃ leafType, HasType Γ leaf leafType := by
  induction h with
  | intLit literal =>
      cases List.mem_singleton.mp member
      exact ⟨_, .intLit literal⟩
  | boolLit literal =>
      cases List.mem_singleton.mp member
      exact ⟨_, .boolLit literal⟩
  | ident bound declared =>
      cases List.mem_singleton.mp member
      exact ⟨_, .ident bound declared⟩
  | binary _ _ left_ih right_ih =>
      rcases List.mem_append.mp member with inLeft | inRight
      · exact left_ih inLeft
      · exact right_ih inRight

/-- A variable that an expression does not use has no part in its type. -/
theorem of_insert? {sym : Symbol} (h : HasType Γ' node type) (extended : Γ.insert? sym = some Γ')
    (unused : ∀ use, .ident use ∈ node.leaves → use.text ≠ sym.name) : HasType Γ node type := by
  induction h with
  | intLit literal => exact .intLit literal
  | boolLit literal => exact .boolLit literal
  | @ident name _ _ bound declared =>
      have other := unused name (List.mem_singleton.mpr rfl)
      rw [ScopeStack.lookup?_insert? extended, if_neg other] at bound
      exact .ident bound declared
  | binary _ _ left_ih right_ih =>
      exact .binary (left_ih fun use member => unused use (List.mem_append_left _ member))
        (right_ih fun use member => unused use (List.mem_append_right _ member))

end HasType

namespace WellTyped

variable {Γ Δ : ScopeStack} {stmt : Node} {stmts rest : List Node}

/-- Only the innermost scope is extended. -/
theorem closeScope_eq (h : WellTyped Γ stmts Δ) : Δ.closeScope = Γ.closeScope := by
  induction h with
  | nil => rfl
  | varDecl _ _ extended _ _ ih => exact ih.trans (ScopeStack.closeScope_insert? extended)
  | assign _ _ _ ih => exact ih
  | conditional _ _ _ _ ih => exact ih
  | block _ _ _ ih => exact ih
  | print _ _ ih => exact ih

/-- A list is well typed if its first statement is, and the others are in the scopes that
the first leaves. -/
theorem cons_iff :
    WellTyped Γ (stmt :: rest) Δ ↔ ∃ Γ', WellTyped Γ [stmt] Γ' ∧ WellTyped Γ' rest Δ := by
  constructor
  · intro h
    cases h with
    | varDecl known fresh extended value tail =>
        exact ⟨_, .varDecl known fresh extended value (.nil _), tail⟩
    | assign bound value tail => exact ⟨Γ, .assign bound value (.nil Γ), tail⟩
    | conditional isBoolean inner tail => exact ⟨Γ, .conditional isBoolean inner (.nil Γ), tail⟩
    | block inner tail => exact ⟨Γ, .block inner (.nil Γ), tail⟩
    | print value tail => exact ⟨Γ, .print value (.nil Γ), tail⟩
  · rintro ⟨Γ', first, tail⟩
    cases first with
    | varDecl known fresh extended value last =>
        cases last
        exact .varDecl known fresh extended value tail
    | assign bound value last =>
        cases last
        exact .assign bound value tail
    | conditional isBoolean inner last =>
        cases last
        exact .conditional isBoolean inner tail
    | block inner last =>
        cases last
        exact .block inner tail
    | print value last =>
        cases last
        exact .print value tail

/-- What stands between the braces of a well-typed statement is well typed in a new
innermost scope. -/
theorem body (h : WellTyped Γ (stmt :: rest) Δ) : ∃ Γ', WellTyped Γ.openScope stmt.body Γ' := by
  cases h with
  | varDecl => exact ⟨_, .nil _⟩
  | assign => exact ⟨_, .nil _⟩
  | conditional _ inner _ => exact ⟨_, inner⟩
  | block inner _ => exact ⟨_, inner⟩
  | print => exact ⟨_, .nil _⟩

end WellTyped

theorem ScopeStack.All.declare {Γ Γ' : ScopeStack} {word name : Token} {type : Ty}
    (typed : Γ.All Symbol.Typed) (known : Ty.ofWord? word.text = some type)
    (extended : Γ.insert? ⟨name.text, type, name, none⟩ = some Γ') : Γ'.All Symbol.Typed := by
  apply typed.insert? extended
  rcases Ty.ofWord?_eq_some known with ⟨isInt, _⟩ | ⟨isBoolean, _⟩
  · exact .inl isInt
  · exact .inr isBoolean

/-- Well-typed statements leave typed scopes. -/
theorem WellTyped.typed {Γ Δ : ScopeStack} {stmts : List Node} (h : WellTyped Γ stmts Δ)
    (typed : Γ.All Symbol.Typed) : Δ.All Symbol.Typed := by
  induction h with
  | nil => exact typed
  | varDecl known _ extended _ _ ih => exact ih (typed.declare known extended)
  | assign _ _ _ ih => exact ih typed
  | conditional _ _ _ _ ih => exact ih typed
  | block _ _ _ ih => exact ih typed
  | print _ _ ih => exact ih typed

namespace Check

variable {c c' : Checker}

/-- Checking a typed expression gives its type and reports nothing. -/
theorem typeOf_of_hasType {node : Node} {type : Ty} (h : HasType c.scopes node type) :
    typeOf node c = .ok type c := by
  induction h with
  | intLit => rfl
  | boolLit => rfl
  | @ident name sym _ bound declared =>
      have resolved : resolve name c = .ok (some sym) c :=
        (clean_resolve_iff.mpr ⟨sym, bound, rfl, rfl⟩).ran
      simp only [typeOf]
      rw [Step.bind_of_ok resolved, ← declared]
      rfl
  | binary _ _ left_ih right_ih =>
      simp only [typeOf]
      rw [Step.bind_of_ok left_ih, Step.bind_of_ok right_ih]
      rfl

/-- An expression in which nothing is reported has the type that checking gives it. -/
theorem hasType_of_clean {node : Node} {type : Ty} (typed : c.scopes.All Symbol.Typed)
    (h : Clean (typeOf node) c type c') : HasType c.scopes node type ∧ c' = c := by
  fun_induction typeOf node generalizing type c' with
  | case1 literal =>
      obtain ⟨rfl, rfl⟩ := clean_pure_iff.mp h
      exact ⟨.intLit literal, rfl⟩
  | case2 literal =>
      obtain ⟨rfl, rfl⟩ := clean_pure_iff.mp h
      exact ⟨.boolLit literal, rfl⟩
  | case3 name =>
      rw [clean_bind_iff (grows_resolve name)] at h
      · obtain ⟨_, u, resolved, given⟩ := h
        obtain ⟨sym, bound, rfl, rfl⟩ := clean_resolve_iff.mp resolved
        obtain ⟨rfl, rfl⟩ := clean_pure_iff.mp given
        exact ⟨.ident bound rfl, rfl⟩
      · intro target
        cases target with
        | none => exact .pure _
        | some sym => exact .pure _
  | case4 op left right left_ih right_ih =>
      have growsRight := fun l : Ty => (grows_typeOf right).bind fun r => grows_operation op l r
      obtain ⟨l, u, leftClean, others⟩ := (clean_bind_iff (grows_typeOf left) growsRight).mp h
      obtain ⟨leftType, rfl⟩ := left_ih leftClean
      obtain ⟨r, v, rightClean, operated⟩ :=
        (clean_bind_iff (grows_typeOf right) (grows_operation op l)).mp others
      obtain ⟨rightType, rfl⟩ := right_ih rightClean
      have leftProper := Ty.isError_eq_false (leftType.proper typed)
      have rightProper := Ty.isError_eq_false (rightType.proper typed)
      obtain ⟨rfl, ⟨lost, _⟩ | ⟨_, ints, rfl⟩⟩ := clean_operation_iff.mp operated
      · simp [leftProper, rightProper] at lost
      · rw [Bool.and_eq_true, Ty.isMatch_iff leftProper, Ty.isMatch_iff rightProper] at ints
        obtain ⟨rfl, rfl⟩ := ints
        exact ⟨.binary leftType rightType, rfl⟩
  | case5 => exact absurd h not_clean_throw

theorem clean_typeOf_iff {node : Node} {type : Ty} (typed : c.scopes.All Symbol.Typed) :
    Clean (typeOf node) c type c' ↔ HasType c.scopes node type ∧ c' = c := by
  constructor
  · exact hasType_of_clean typed
  · rintro ⟨h, rfl⟩
    exact ⟨typeOf_of_hasType h, rfl⟩

/-- The value of a declaration or assignment is clean if it has the type of the variable. -/
theorem clean_value_iff {node : Node} {equals : Token} {expected : Ty}
    (typed : c.scopes.All Symbol.Typed) :
    Clean (do let found ← typeOf node; expectMatch equals found expected) c () c' ↔
      HasType c.scopes node expected ∧ c' = c := by
  rw [clean_bind_iff (grows_typeOf node) fun found => grows_expectMatch equals found expected]
  constructor
  · rintro ⟨found, u, given, compared⟩
    obtain ⟨hasType, rfl⟩ := (clean_typeOf_iff typed).mp given
    have proper := Ty.isError_eq_false (hasType.proper typed)
    obtain ⟨fits, rfl⟩ := clean_expectMatch_iff.mp compared
    rw [proper, Bool.false_or, Ty.isMatch_iff proper] at fits
    exact ⟨fits ▸ hasType, rfl⟩
  · rintro ⟨hasType, rfl⟩
    have proper := Ty.isError_eq_false (hasType.proper typed)
    refine ⟨expected, c', (clean_typeOf_iff typed).mpr ⟨hasType, rfl⟩, ?_⟩
    rw [clean_expectMatch_iff, (Ty.isMatch_iff proper).mpr rfl]
    exact ⟨Bool.or_true _, rfl⟩

/-- A conditional is entered without a report if its condition is a truth value. -/
theorem clean_openConditional_iff {paren : Token} {cond : Node}
    (typed : c.scopes.All Symbol.Typed) :
    Clean (openConditional paren cond) c () c' ↔
      HasType c.scopes cond .boolean ∧ c' = { c with scopes := c.scopes.openScope } := by
  have growsOpen : ∀ found : Ty, Grows (do expectCondition paren found; openScope) :=
    fun found => (grows_expectCondition paren found).bind fun _ => .modifyScopes _
  rw [openConditional, clean_bind_iff (grows_typeOf cond) growsOpen]
  constructor
  · rintro ⟨found, u, given, others⟩
    obtain ⟨hasType, rfl⟩ := (clean_typeOf_iff typed).mp given
    obtain ⟨_, v, compared, opened⟩ :=
      (clean_bind_iff (grows_expectCondition paren found) fun _ => .modifyScopes _).mp others
    have proper := Ty.isError_eq_false (hasType.proper typed)
    obtain ⟨fits, rfl⟩ := clean_expectCondition_iff.mp compared
    rw [proper, Bool.false_or, Ty.isMatch_iff proper] at fits
    exact ⟨fits ▸ hasType, clean_modifyScopes_iff.mp opened⟩
  · rintro ⟨hasType, rfl⟩
    have given : Clean (typeOf cond) c .boolean c := (clean_typeOf_iff typed).mpr ⟨hasType, rfl⟩
    have compared : Clean (expectCondition paren .boolean) c () c :=
      clean_expectCondition_iff.mpr ⟨rfl, rfl⟩
    refine ⟨.boolean, c, given, ?_⟩
    rw [clean_bind_iff (grows_expectCondition paren .boolean) fun _ => grows_openScope]
    exact ⟨(), c, compared, clean_modifyScopes_iff.mpr rfl⟩

theorem clean_varDecl_iff {word name equals : Token} {init : Node}
    (typed : c.scopes.All Symbol.Typed) :
    Clean (statement (.varDecl word name equals init)) c () c' ↔
      ∃ type scopes, Ty.ofWord? word.text = some type ∧ c.scopes.Fresh name.text ∧
        c.scopes.insert? ⟨name.text, type, name, none⟩ = some scopes ∧
        HasType scopes init type ∧ c' = { c with scopes := scopes } := by
  have growsValue : ∀ type : Ty,
      Grows (do let found ← typeOf init; expectMatch equals found type) :=
    fun type => (grows_typeOf init).bind fun found => grows_expectMatch equals found type
  have growsDeclare := fun type : Ty => (grows_declare name type).bind fun _ => growsValue type
  simp only [statement]
  rw [clean_bind_iff (grows_declaredType word) growsDeclare]
  constructor
  · rintro ⟨type, u, named, others⟩
    obtain ⟨known, rfl⟩ := clean_declaredType_iff.mp named
    obtain ⟨_, v, declared, valued⟩ :=
      (clean_bind_iff (grows_declare name type) fun _ => growsValue type).mp others
    obtain ⟨fresh, scopes, extended, rfl⟩ := clean_declare_iff.mp declared
    obtain ⟨value, rfl⟩ := (clean_value_iff (typed.declare known extended)).mp valued
    exact ⟨type, scopes, known, fresh, extended, value, rfl⟩
  · rintro ⟨type, scopes, known, fresh, extended, value, rfl⟩
    have named : Clean (declaredType word) c type c := clean_declaredType_iff.mpr ⟨known, rfl⟩
    have declared := clean_declare_iff.mpr ⟨fresh, scopes, extended, rfl⟩
    refine ⟨type, c, named, ?_⟩
    rw [clean_bind_iff (grows_declare name type) fun _ => growsValue type]
    refine ⟨(), _, declared, ?_⟩
    exact (clean_value_iff (typed.declare known extended)).mpr ⟨value, rfl⟩

theorem clean_assign_iff {name equals : Token} {node : Node}
    (typed : c.scopes.All Symbol.Typed) :
    Clean (statement (.assign name equals node)) c () c' ↔
      ∃ sym, c.scopes.lookup? name.text = some sym ∧ HasType c.scopes node sym.type ∧
        c' = c := by
  simp only [statement]
  rw [clean_bind_iff (grows_resolve name)]
  · constructor
    · rintro ⟨target, u, resolved, others⟩
      obtain ⟨sym, bound, rfl, rfl⟩ := clean_resolve_iff.mp resolved
      obtain ⟨value, rfl⟩ := (clean_value_iff typed).mp others
      exact ⟨sym, bound, value, rfl⟩
    · rintro ⟨sym, bound, value, rfl⟩
      refine ⟨some sym, c', clean_resolve_iff.mpr ⟨sym, bound, rfl, rfl⟩, ?_⟩
      exact (clean_value_iff typed).mpr ⟨value, rfl⟩
  · intro target
    apply (grows_typeOf node).bind
    intro found
    cases target with
    | none => exact .pure _
    | some sym => exact grows_expectMatch equals found sym.type

theorem clean_print_iff {word : Token} {node : Node} (typed : c.scopes.All Symbol.Typed) :
    Clean (statement (.print word node)) c () c' ↔
      ∃ type, HasType c.scopes node type ∧ c' = c := by
  simp only [statement]
  rw [clean_bind_iff (grows_typeOf node) fun _ => .pure _]
  constructor
  · rintro ⟨type, u, given, done⟩
    obtain ⟨value, rfl⟩ := (clean_typeOf_iff typed).mp given
    exact ⟨type, value, (clean_pure_iff.mp done).2⟩
  · rintro ⟨type, value, rfl⟩
    have given : Clean (typeOf node) c' type c' := (clean_typeOf_iff typed).mpr ⟨value, rfl⟩
    exact ⟨type, c', given, clean_pure_iff.mpr ⟨rfl, rfl⟩⟩

theorem clean_conditional_iff {paren brace : Token} {cond : Node} {body : List Node}
    (typed : c.scopes.All Symbol.Typed) :
    Clean (statement (.conditional paren cond brace body)) c () c' ↔
      HasType c.scopes cond .boolean ∧
        ∃ u, Clean (statements body) { c with scopes := c.scopes.openScope } () u ∧
          c' = { u with scopes := u.scopes.closeScope } := by
  rw [statement_conditional,
    clean_braces_iff (grows_openConditional paren cond) (grows_statements body)]
  constructor
  · rintro ⟨_, u, opened, inner, closed⟩
    obtain ⟨isBoolean, rfl⟩ := (clean_openConditional_iff typed).mp opened
    exact ⟨isBoolean, u, inner, closed⟩
  · rintro ⟨isBoolean, u, inner, closed⟩
    exact ⟨_, u, (clean_openConditional_iff typed).mpr ⟨isBoolean, rfl⟩, inner, closed⟩

theorem clean_blockStatement_iff {brace : Token} {body : List Node} :
    Clean (statement (.block brace body)) c () c' ↔
      ∃ u, Clean (statements body) { c with scopes := c.scopes.openScope } () u ∧
        c' = { u with scopes := u.scopes.closeScope } := by
  simp only [statement]
  rw [clean_braces_iff grows_openScope (grows_statements body)]
  constructor
  · rintro ⟨_, u, opened, inner, closed⟩
    cases clean_modifyScopes_iff.mp opened
    exact ⟨u, inner, closed⟩
  · rintro ⟨u, inner, closed⟩
    exact ⟨_, u, clean_modifyScopes_iff.mpr rfl, inner, closed⟩

/-- Statements that are checked without a report, and the scopes they leave, are those that
the typing rules allow. -/
def Agrees (stmts : List Node) : Prop :=
  ∀ {c c' : Checker}, c.scopes.All Symbol.Typed →
    (Clean (statements stmts) c () c' ↔
      ∃ Δ, WellTyped c.scopes stmts Δ ∧ c' = { c with scopes := Δ })

/-- Well-typed statements between braces leave no trace in the scopes. -/
theorem Agrees.braces {body : List Node} (h : Agrees body) (typed : c.scopes.All Symbol.Typed) :
    (∃ u, Clean (statements body) { c with scopes := c.scopes.openScope } () u ∧
        c' = { u with scopes := u.scopes.closeScope }) ↔
      (∃ Δ, WellTyped c.scopes.openScope body Δ) ∧ c' = c := by
  have agrees := @h { c with scopes := c.scopes.openScope }
  constructor
  · rintro ⟨u, clean, rfl⟩
    obtain ⟨Δ, inner, rfl⟩ := (agrees typed.openScope).mp clean
    have closed : Δ.closeScope = c.scopes := inner.closeScope_eq
    refine ⟨⟨Δ, inner⟩, ?_⟩
    rw [closed]
  · rintro ⟨⟨Δ, inner⟩, rfl⟩
    have closed : Δ.closeScope = c'.scopes := inner.closeScope_eq
    have clean := (agrees typed.openScope).mpr ⟨Δ, inner, rfl⟩
    refine ⟨_, clean, ?_⟩
    rw [closed]

/-- The step of the agreement, with one case for each sort of statement. -/
theorem clean_statement_iff {stmt : Node} (inner : Agrees stmt.body)
    (typed : c.scopes.All Symbol.Typed) :
    Clean (statement stmt) c () c' ↔
      ∃ Γ, WellTyped c.scopes [stmt] Γ ∧ c' = { c with scopes := Γ } := by
  constructor
  · intro h
    cases stmt with
    | varDecl word name equals init =>
        obtain ⟨type, Γ, known, fresh, extended, value, rfl⟩ := (clean_varDecl_iff typed).mp h
        exact ⟨Γ, .varDecl known fresh extended value (.nil Γ), rfl⟩
    | assign name equals node =>
        obtain ⟨sym, bound, value, rfl⟩ := (clean_assign_iff typed).mp h
        exact ⟨_, .assign bound value (.nil _), rfl⟩
    | conditional paren cond brace body =>
        obtain ⟨isBoolean, braces⟩ := (clean_conditional_iff typed).mp h
        obtain ⟨⟨Δ, allowed⟩, rfl⟩ := (inner.braces typed).mp braces
        exact ⟨_, .conditional isBoolean allowed (.nil _), rfl⟩
    | block brace body =>
        obtain ⟨⟨Δ, allowed⟩, rfl⟩ := (inner.braces typed).mp (clean_blockStatement_iff.mp h)
        exact ⟨_, .block allowed (.nil _), rfl⟩
    | print word node =>
        obtain ⟨type, value, rfl⟩ := (clean_print_iff typed).mp h
        exact ⟨_, .print value (.nil _), rfl⟩
    | _ =>
        simp only [statement] at h
        exact absurd h not_clean_throw
  · rintro ⟨Γ, h, rfl⟩
    cases h with
    | varDecl known fresh extended value last =>
        cases last
        exact (clean_varDecl_iff typed).mpr ⟨_, _, known, fresh, extended, value, rfl⟩
    | assign bound value last =>
        cases last
        exact (clean_assign_iff typed).mpr ⟨_, bound, value, rfl⟩
    | conditional isBoolean allowed last =>
        cases last
        exact (clean_conditional_iff typed).mpr
          ⟨isBoolean, (inner.braces typed).mpr ⟨⟨_, allowed⟩, rfl⟩⟩
    | block allowed last =>
        cases last
        exact clean_blockStatement_iff.mpr ((inner.braces typed).mpr ⟨⟨_, allowed⟩, rfl⟩)
    | print value last =>
        cases last
        exact (clean_print_iff typed).mpr ⟨_, value, rfl⟩

theorem agrees (stmts : List Node) : Agrees stmts := by
  induction stmts using Node.list_induction with
  | nil =>
      intro c c' _
      simp only [statements, clean_pure_iff, true_and]
      constructor
      · rintro rfl
        exact ⟨_, .nil _, rfl⟩
      · rintro ⟨Δ, h, rfl⟩
        cases h
        rfl
  | cons stmt rest body_ih rest_ih =>
      intro c c' typed
      rw [clean_statements_cons_iff]
      constructor
      · rintro ⟨u, first, others⟩
        obtain ⟨Γ, allowed, rfl⟩ := (clean_statement_iff body_ih typed).mp first
        obtain ⟨Δ, remaining, rfl⟩ := (rest_ih (allowed.typed typed)).mp others
        exact ⟨Δ, WellTyped.cons_iff.mpr ⟨Γ, allowed, remaining⟩, rfl⟩
      · rintro ⟨Δ, h, rfl⟩
        obtain ⟨Γ, allowed, remaining⟩ := WellTyped.cons_iff.mp h
        have first := (clean_statement_iff body_ih typed).mpr ⟨Γ, allowed, rfl⟩
        refine ⟨{ c with scopes := Γ }, first, ?_⟩
        exact (rest_ih (allowed.typed typed)).mpr ⟨Δ, remaining, rfl⟩

/-- A program is checked without a fault or a report if and only if it is well typed, and
the scopes that checking leaves are those of the typing rules. -/
theorem program_clean_iff {p : Program} :
    Check.program p .initial = .ok () c ∧ c.hasErrors = false ↔
      WellTyped .initial p.stmts c.scopes ∧ c.reports = #[] := by
  have noReports : c.hasErrors = false ↔ c.reports = #[] := by
    simp [Checker.hasErrors]
  have typed : Checker.initial.scopes.All Symbol.Typed := ScopeStack.all_initial
  rw [noReports]
  constructor
  · rintro ⟨ran, quiet⟩
    obtain ⟨Δ, h, rfl⟩ := (agrees p.stmts typed).mp ⟨ran, quiet⟩
    exact ⟨h, rfl⟩
  · rintro ⟨h, quiet⟩
    have clean := (agrees p.stmts typed).mpr ⟨c.scopes, h, rfl⟩
    have same : c = { Checker.initial with scopes := c.scopes } := by
      cases c
      simp only at quiet
      rw [quiet]
      rfl
    exact ⟨same ▸ clean.ran, quiet⟩

/-- When checking looks for the type of an expression in the state `c`, it gives the part
of the expression the type. -/
inductive Gives : Checker → Node → Node → Ty → Prop
  | whole {c c' : Checker} {node : Node} {type : Ty} (given : typeOf node c = .ok type c') :
      Gives c node node type
  | left {c : Checker} {op : Token} {left right part : Node} {type : Ty}
      (within : Gives c left part type) : Gives c (.binary op left right) part type
  | right {c c' : Checker} {op : Token} {left right part : Node} {leftType type : Ty}
      (before : typeOf left c = .ok leftType c') (within : Gives c' right part type) :
      Gives c (.binary op left right) part type

/-- When checking comes to a statement in the state `c`, it gives the part of the
expression of the statement the type. -/
inductive GivesAt (c : Checker) : Node → Node → Ty → Prop
  /-- The first value of a variable is looked at after the variable is declared. -/
  | varDecl {d d' : Checker} {word name equals : Token} {init part : Node} {declared type : Ty}
      (named : declaredType word c = .ok declared d) (entered : declare name declared d = .ok () d')
      (within : Gives d' init part type) : GivesAt c (.varDecl word name equals init) part type
  | assign {d : Checker} {name equals : Token} {node part : Node} {target : Option Symbol}
      {type : Ty} (resolved : resolve name c = .ok target d) (within : Gives d node part type) :
      GivesAt c (.assign name equals node) part type
  | conditional {paren brace : Token} {cond part : Node} {body : List Node} {type : Ty}
      (within : Gives c cond part type) : GivesAt c (.conditional paren cond brace body) part type
  | print {word : Token} {node part : Node} {type : Ty} (within : Gives c node part type) :
      GivesAt c (.print word node) part type

/-- The types that checking gives to the parts of a typed expression are their types. -/
theorem Gives.hasType {node part : Node} {type partType : Ty} (h : Gives c node part partType)
    (typed : HasType c.scopes node type) :
    HasType c.scopes part partType ∧ ∀ leaf ∈ part.leaves, leaf ∈ node.leaves := by
  induction h generalizing type with
  | whole given =>
      rw [typeOf_of_hasType typed] at given
      cases given
      exact ⟨typed, fun _ member => member⟩
  | left _ ih =>
      obtain ⟨_, leftInt, _⟩ := HasType.binary_iff.mp typed
      obtain ⟨hasType, leaves⟩ := ih leftInt
      exact ⟨hasType, fun leaf member => List.mem_append_left _ (leaves leaf member)⟩
  | right before _ ih =>
      obtain ⟨_, leftInt, rightInt⟩ := HasType.binary_iff.mp typed
      rw [typeOf_of_hasType leftInt] at before
      cases before
      obtain ⟨hasType, leaves⟩ := ih rightInt
      exact ⟨hasType, fun leaf member => List.mem_append_right _ (leaves leaf member)⟩

end Check

end BlockLang

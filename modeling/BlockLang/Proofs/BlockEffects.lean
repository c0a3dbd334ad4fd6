import BlockLang.Proofs.Mirror
import BlockLang.Proofs.Resolution

/-!
# What a block can change

When a block is left, the scopes that were open before it are as before, except for values. Which
values can have changed is read off the tree: `Node.freeTargets` collects the names that are
assigned to in a list of statements, also between inner braces, unless the list has declared the
name before the assignment. Each such name stands for the innermost variable outside of the block,
and no other variable changes.

`ScopeStack.Updates` is the relation between the scopes before and after. It is composed along the
statements of a list, while the innermost scope hides more and more names from the assignments
that follow.
-/

namespace BlockLang

namespace Node

/-- Whether the statement has braces of its own. -/
def hasBraces : Node → Bool
  | .block _ _ => true
  | .conditional _ _ _ _ => true
  | _ => false

mutual

/-- The names that a statement assigns to in the scopes around it. -/
def freeTargetsOf : Node → List String
  | .assign name _ _ => [name.text]
  | .block _ body => freeTargets body
  | .conditional _ _ _ body => freeTargets body
  | _ => []

/-- The names that the statements of a list assign to in the scopes around the list. A name that is
declared in the list is not meant by the statements that follow. -/
def freeTargets : List Node → List String
  | [] => []
  | stmt :: rest =>
    freeTargetsOf stmt ++ (freeTargets rest).filter fun name => !stmt.declares name

end

theorem freeTargetsOf_of_hasBraces {stmt : Node} (braces : stmt.hasBraces = true) :
    freeTargetsOf stmt = freeTargets stmt.body := by
  cases stmt with
  | block => simp only [freeTargetsOf, body]
  | conditional => simp only [freeTargetsOf, body]
  | _ => cases braces

theorem declares_of_hasBraces {stmt : Node} (braces : stmt.hasBraces = true) (name : String) :
    stmt.declares name = false := by
  cases stmt with
  | varDecl => cases braces
  | _ => rfl

/-- Only a declaration declares a name. -/
theorem silent_or_varDecl (stmt : Node) :
    (∀ name, stmt.declares name = false) ∨
      ∃ word name equals init, stmt = .varDecl word name equals init := by
  cases stmt with
  | varDecl word name equals init => exact .inr ⟨word, name, equals, init, rfl⟩
  | _ => exact .inl fun _ => rfl

theorem mem_freeTargets_cons {name : String} {stmt : Node} {rest : List Node} :
    name ∈ freeTargets (stmt :: rest) ↔
      name ∈ freeTargetsOf stmt ∨ name ∈ freeTargets rest ∧ stmt.declares name = false := by
  simp only [freeTargets, List.mem_append, List.mem_filter, Bool.not_eq_true']

end Node

/-- A new value for one name leaves the symbols of the others. -/
theorem Scope.find?_setValue_of_ne (s : Scope) {name other : String} (different : other ≠ name)
    (value : Option Int) : (s.setValue name value).find? other = s.find? other := by
  rw [find?_setValue, if_neg different]

theorem Scope.find?_eq_none_of_same {s t : Scope} (same : t.withoutValues = s.withoutValues)
    {name : String} : t.find? name = none ↔ s.find? name = none := by
  rw [← Option.map_eq_none_iff (f := Symbol.withoutValue), ← find?_withoutValues, same,
    find?_withoutValues, Option.map_eq_none_iff]

namespace ScopeStack

variable {s t u : ScopeStack} {P Q : String → Prop} {i : Nat} {name : String}

/-- What a scope has under a name, where the scopes are counted from the innermost. -/
def symbolAt? (s : ScopeStack) (i : Nat) (name : String) : Option Symbol :=
  s.scopes[i]?.bind (·.find? name)

theorem symbolAt?_withoutValues (s : ScopeStack) (i : Nat) (name : String) :
    s.withoutValues.symbolAt? i name = (s.symbolAt? i name).map Symbol.withoutValue := by
  rw [symbolAt?, withoutValues, List.getElem?_map, symbolAt?]
  cases s.scopes[i]? with
  | none => rfl
  | some scope => exact scope.find?_withoutValues name

theorem map_symbolAt?_of_same (same : t.withoutValues = s.withoutValues) (i : Nat)
    (name : String) :
    (t.symbolAt? i name).map Symbol.withoutValue = (s.symbolAt? i name).map Symbol.withoutValue := by
  rw [← symbolAt?_withoutValues, ← symbolAt?_withoutValues, same]

theorem symbolAt?_eq_none_of_same (same : t.withoutValues = s.withoutValues) :
    t.symbolAt? i name = none ↔ s.symbolAt? i name = none := by
  rw [← Option.map_eq_none_iff (f := Symbol.withoutValue), map_symbolAt?_of_same same,
    Option.map_eq_none_iff]

/-- The innermost symbol of a name is in the first scope that has one. -/
theorem lookup?_of_symbolAt? {sym : Symbol} (found : s.symbolAt? i name = some sym)
    (hidden : ∀ j < i, s.symbolAt? j name = none) : s.lookup? name = some sym := by
  obtain ⟨scopes⟩ := s
  change findIn? name scopes = some sym
  induction i generalizing scopes with
  | zero =>
      cases scopes with
      | nil => cases found
      | cons innermost outer =>
          have here : innermost.find? name = some sym := found
          simp [findIn?, here]
  | succ i ih =>
      cases scopes with
      | nil => cases found
      | cons innermost outer =>
          have none : innermost.find? name = none := hidden 0 (Nat.succ_pos i)
          have later := ih outer found fun j small => hidden (j + 1) (Nat.succ_lt_succ small)
          simpa [findIn?, none] using later

/-- An update changes what the first scope with the name has under it, and nothing else. -/
theorem changed_setIn? {value : Option Int} {scopes updated : List Scope}
    (changed : setIn? name value scopes = some updated) {i : Nat} {other : String}
    (different : (mk updated).symbolAt? i other ≠ (mk scopes).symbolAt? i other) :
    other = name ∧ ∀ j < i, (mk scopes).symbolAt? j other = none := by
  induction scopes generalizing updated i with
  | nil => cases changed
  | cons first rest ih =>
      cases found : first.find? name with
      | some sym =>
          simp only [setIn?, found, Option.isSome_some, if_true, Option.some.injEq] at changed
          subst changed
          cases i with
          | zero =>
              refine ⟨?_, fun j small => absurd small (Nat.not_lt_zero j)⟩
              by_contra unnamed
              exact different (first.find?_setValue_of_ne unnamed value)
          | succ i => exact absurd rfl different
      | none =>
          simp only [setIn?, found, Option.isSome_none, Bool.false_eq_true, if_false,
            Option.map_eq_some_iff] at changed
          obtain ⟨tail, further, rfl⟩ := changed
          cases i with
          | zero => exact absurd rfl different
          | succ i =>
              obtain ⟨rfl, hidden⟩ := ih further different
              refine ⟨rfl, ?_⟩
              intro j small
              cases j with
              | zero => exact found
              | succ j => exact hidden j (Nat.lt_of_succ_lt_succ small)

/-- Nothing but values differs between two stacks of scopes, and only a name with the property can
have another value, in the innermost scope that has the name. -/
structure Updates (P : String → Prop) (s t : ScopeStack) : Prop where
  same : t.withoutValues = s.withoutValues
  changed : ∀ {i name}, t.symbolAt? i name ≠ s.symbolAt? i name →
    P name ∧ ∀ j < i, s.symbolAt? j name = none

namespace Updates

theorem refl (s : ScopeStack) : Updates P s s where
  same := rfl
  changed := fun different => absurd rfl different

theorem mono (h : Updates P s t) (weaker : ∀ name, P name → Q name) : Updates Q s t where
  same := h.same
  changed := fun different => (h.changed different).imp (weaker _) id

theorem trans (first : Updates P s t) (second : Updates P t u) : Updates P s u where
  same := second.same.trans first.same
  changed := by
    intro i name different
    by_cases early : t.symbolAt? i name = s.symbolAt? i name
    · rw [← early] at different
      obtain ⟨allowed, hidden⟩ := second.changed different
      refine ⟨allowed, ?_⟩
      intro j small
      exact (symbolAt?_eq_none_of_same first.same).mp (hidden j small)
    · exact first.changed early

/-- The innermost scope keeps its names, and hides them from the changes further out. -/
theorem exists_cons {top : Scope} {outer : List Scope} (h : Updates P s t)
    (opened : s.scopes = top :: outer) :
    ∃ top' outer', t.scopes = top' :: outer' ∧ top'.withoutValues = top.withoutValues ∧
      Updates (fun name => P name ∧ top.find? name = none) ⟨outer⟩ ⟨outer'⟩ := by
  obtain ⟨scopes⟩ := s
  obtain ⟨scopes'⟩ := t
  cases opened
  have same : scopes'.map Scope.withoutValues = (top :: outer).map Scope.withoutValues :=
    congrArg scopes h.same
  obtain ⟨top', outer', rfl, kept, others⟩ := List.map_eq_cons_iff.mp same
  refine ⟨top', outer', rfl, kept, congrArg ScopeStack.mk others, ?_⟩
  intro i name different
  obtain ⟨allowed, hidden⟩ := h.changed (i := i + 1) different
  refine ⟨⟨allowed, hidden 0 (Nat.succ_pos i)⟩, ?_⟩
  intro j small
  exact hidden (j + 1) (Nat.succ_lt_succ small)

/-- A new value is given to the innermost symbol of its name. -/
theorem setValue? {value : Option Int} (updated : s.setValue? name value = some t) :
    Updates (· = name) s t where
  same := withoutValues_setValue? updated
  changed := by
    obtain ⟨scopes⟩ := s
    obtain ⟨updated, changed, rfl⟩ := Option.map_eq_some_iff.mp updated
    exact changed_setIn? changed

/-- A symbol that can have another value afterwards is the innermost one of its name. -/
theorem symbol {sym : Symbol} (h : Updates P s t) (found : s.symbolAt? i name = some sym) :
    ∃ value, t.symbolAt? i name = some { sym with value := value } ∧
      (value ≠ sym.value → P name ∧ s.lookup? name = some sym ∧
        ∀ j < i, s.symbolAt? j name = none) := by
  have kept := map_symbolAt?_of_same h.same i name
  rw [found] at kept
  obtain ⟨sym', found', same⟩ := Option.map_eq_some_iff.mp kept
  have revalued : sym' = { sym with value := sym'.value } := by
    obtain ⟨_, _, _, _⟩ := sym'
    obtain ⟨_, _, _, _⟩ := sym
    cases same
    rfl
  refine ⟨sym'.value, found'.trans (congrArg some revalued), ?_⟩
  intro other
  have different : t.symbolAt? i name ≠ s.symbolAt? i name := by
    rw [found, found']
    rintro ⟨⟩
    exact other rfl
  obtain ⟨allowed, hidden⟩ := h.changed different
  exact ⟨allowed, lookup?_of_symbolAt? found hidden, hidden⟩

end Updates

end ScopeStack

/-- The scope has all names that the list declares. -/
def Scope.Covers (list : List Node) (s : Scope) : Prop :=
  ∀ name, (list.find? (·.declares name)).isSome → (s.find? name).isSome

namespace Scope.Covers

variable {s t : Scope} {list : List Node} {stmt : Node}

theorem of_same (h : Covers list s) (same : t.withoutValues = s.withoutValues) : Covers list t := by
  intro name declared
  have found := h name declared
  rw [Option.isSome_iff_ne_none] at found ⊢
  exact fun none => found ((find?_eq_none_of_same same).mp none)

theorem append_of_silent (h : Covers list s) (silent : ∀ name, stmt.declares name = false) :
    Covers (list ++ [stmt]) s := by
  intro name declared
  rw [List.find?_append, List.find?_singleton, silent name] at declared
  exact h name (by simpa using declared)

theorem append_of_insert {word name equals : Token} {init : Node} {sym : Symbol}
    (h : Covers list s) (named : sym.name = name.text) :
    Covers (list ++ [.varDecl word name equals init]) (s.insert sym) := by
  intro other declared
  rw [find?_insert]
  by_cases same : other = sym.name
  · rw [if_pos same]
    rfl
  · rw [if_neg same]
    have undeclared : (Node.varDecl word name equals init).declares other = false :=
      beq_eq_false_iff_ne.mpr fun e => same (e.symm.trans named.symm)
    rw [List.find?_append, List.find?_singleton, undeclared] at declared
    exact h other (by simpa using declared)

theorem forall₂_of_same {lists : List (List Node)} {inner inner' : List Scope}
    (covers : List.Forall₂ Covers lists inner)
    (same : inner'.map withoutValues = inner.map withoutValues) :
    List.Forall₂ Covers lists inner' := by
  induction covers generalizing inner' with
  | nil =>
      cases List.map_eq_nil_iff.mp same
      exact .nil
  | cons first _ ih =>
      obtain ⟨scope, rest, rfl, kept, others⟩ := List.map_eq_cons_iff.mp same
      exact .cons (first.of_same kept) (ih others)

/-- A name that one of the lists declares is found in the scopes. -/
theorem isSome_findIn? {lists : List (List Node)} {inner : List Scope} {name : String}
    (covers : List.Forall₂ Covers lists inner) (declared : (Node.declaration? name lists).isSome) :
    (ScopeStack.findIn? name inner).isSome := by
  induction covers with
  | nil => cases declared
  | @cons list scope _ _ first _ ih =>
      simp only [Node.declaration?, ScopeStack.findIn?, List.findSome?_cons] at declared ih ⊢
      cases found : scope.find? name with
      | some sym => rfl
      | none =>
          have none : list.find? (·.declares name) = none := by
            rw [← Option.not_isSome_iff_eq_none]
            intro some
            have there := first name some
            rw [found] at there
            cases there
          rw [none] at declared
          exact ih declared

end Scope.Covers

namespace ScopeStack

variable {s t : ScopeStack} {name : String} {value : Option Int}

/-- A name that is found in the first scopes is given its new value there. -/
theorem setIn?_append {inner outer : List Scope} (found : (findIn? name inner).isSome) :
    setIn? name value (inner ++ outer) = (setIn? name value inner).map (· ++ outer) := by
  induction inner with
  | nil => cases found
  | cons first rest ih =>
      cases here : first.find? name with
      | some sym => simp [setIn?, here]
      | none =>
          simp only [findIn?, List.findSome?_cons, here] at found
          simp only [List.cons_append, setIn?, here, Option.isSome_none, Bool.false_eq_true,
            if_false, ih found, Option.map_map]
          rfl

/-- Above the outermost scopes, of which there are `height`, each scope has the names that its list
declares. -/
def Covers (height : Nat) (lists : List (List Node)) (s : ScopeStack) : Prop :=
  ∃ inner outer, s.scopes = inner ++ outer ∧ outer.length = height ∧
    List.Forall₂ Scope.Covers lists inner

namespace Covers

variable {height : Nat} {before : List Node} {lists : List (List Node)} {stmt : Node}

theorem openScope (h : Covers height lists s) : Covers height ([] :: lists) s.openScope := by
  obtain ⟨inner, outer, split, count, covers⟩ := h
  refine ⟨.empty :: inner, outer, ?_, count, .cons ?_ covers⟩
  · rw [ScopeStack.openScope, split]
    rfl
  · intro name declared
    cases declared

theorem of_same (h : Covers height lists s) (same : t.withoutValues = s.withoutValues) :
    Covers height lists t := by
  obtain ⟨inner, outer, split, count, covers⟩ := h
  have parts : t.scopes.map Scope.withoutValues =
      inner.map Scope.withoutValues ++ outer.map Scope.withoutValues := by
    rw [← List.map_append, ← split]
    exact congrArg scopes same
  obtain ⟨inner', outer', split', sameInner, sameOuter⟩ := List.map_eq_append_iff.mp parts
  have sameCount := congrArg List.length sameOuter
  rw [List.length_map, List.length_map] at sameCount
  exact ⟨inner', outer', split', sameCount.trans count, Scope.Covers.forall₂_of_same covers sameInner⟩

theorem append_of_silent (h : Covers height (before :: lists) s)
    (silent : ∀ name, stmt.declares name = false) :
    Covers height ((before ++ [stmt]) :: lists) s := by
  obtain ⟨inner, outer, split, count, covers⟩ := h
  cases covers with
  | cons first others =>
      exact ⟨_, outer, split, count, .cons (first.append_of_silent silent) others⟩

theorem append_of_insert? {word name equals : Token} {init : Node} {sym : Symbol}
    (h : Covers height (before :: lists) s) (named : sym.name = name.text)
    (inserted : s.insert? sym = some t) :
    Covers height ((before ++ [.varDecl word name equals init]) :: lists) t := by
  obtain ⟨inner, outer, split, count, covers⟩ := h
  cases covers with
  | cons first others =>
      obtain ⟨innermost, rest, opened, rfl⟩ := insert?_eq_some_iff.mp inserted
      cases split.symm.trans opened
      exact ⟨_ :: _, outer, rfl, count, .cons (first.append_of_insert named) others⟩

/-- A new value for a name that one of the lists declares leaves the outermost scopes as they
are. -/
theorem setValue? (h : Covers height lists s) (declared : (Node.declaration? name lists).isSome)
    (updated : s.setValue? name value = some t) :
    t.outermostFirst.take height = s.outermostFirst.take height := by
  obtain ⟨inner, outer, split, rfl, covers⟩ := h
  rw [ScopeStack.setValue?, split, setIn?_append (Scope.Covers.isSome_findIn? covers declared),
    Option.map_map, Option.map_eq_some_iff] at updated
  obtain ⟨inner', _, rfl⟩ := updated
  simp [outermostFirst, split]

end Covers

end ScopeStack

namespace Exec

variable {e e' d : Executor} {stmt : Node} {stmts left : List Node} {place : Place}

theorem hasBraces_of_enter? (entered : enter? stmt e = some d) : stmt.hasBraces = true := by
  cases stmt with
  | block => rfl
  | conditional => rfl
  | _ => cases entered

/-- Statements change outer scopes only by assignments to free targets that the innermost scope
does not hide. -/
def Confined (stmts : List Node) : Prop :=
  ∀ {top outer} {e e' : Executor}, e.scopes.scopes = top :: outer →
    statements stmts e = .ok () e' →
      ScopeStack.Updates (fun name => name ∈ Node.freeTargets stmts ∧ top.find? name = none)
        ⟨outer⟩ e'.scopes.closeScope

/-- A statement that declares nothing changes the values of its free targets only. -/
theorem Confined.statement (body : Confined stmt.body) (silent : ∀ name, stmt.declares name = false)
    (ran : statement stmt e = .ok () e') :
    ScopeStack.Updates (· ∈ Node.freeTargetsOf stmt) e.scopes e'.scopes := by
  cases entry : enter? stmt e with
  | some d =>
      obtain ⟨d', inner, rfl⟩ := (walk.statement_eq_ok_iff entry).mp ran
      rw [← statements_eq_walk] at inner
      cases enter?_eq_some entry
      have changes := body (e := { e with scopes := e.scopes.openScope }) rfl inner
      rw [Node.freeTargetsOf_of_hasBraces (hasBraces_of_enter? entry)]
      exact changes.mono fun name allowed => allowed.1
  | none =>
      cases stmt with
      | varDecl word name equals init =>
          have named : (Node.varDecl word name equals init).declares name.text = true :=
            beq_self_eq_true name.text
          rw [silent] at named
          cases named
      | assign name equals node =>
          obtain ⟨value, scopes, _, updated, rfl⟩ := statement_assign_eq_ok_iff.mp ran
          refine (ScopeStack.Updates.setValue? updated).mono ?_
          rintro _ rfl
          simp [Node.freeTargetsOf]
      | print word node =>
          obtain ⟨value, line, _, _, rfl⟩ := statement_print_eq_ok_iff.mp ran
          exact .refl _
      | conditional paren cond brace body =>
          cases statement_conditional_eq_ok ran entry
          exact .refl _
      | block brace body => cases entry
      | _ => simp [Exec.statement] at ran

theorem exists_insert?_of_varDecl {word name equals : Token} {init : Node}
    (ran : statement (.varDecl word name equals init) e = .ok () e') :
    ∃ sym, sym.name = name.text ∧ e.scopes.insert? sym = some e'.scopes := by
  obtain ⟨value, type, scopes, _, _, inserted, rfl⟩ := statement_varDecl_eq_ok_iff.mp ran
  exact ⟨_, rfl, inserted⟩

theorem confined (stmts : List Node) : Confined stmts := by
  induction stmts using Node.list_induction with
  | nil =>
      intro top outer e e' opened ran
      simp only [statements] at ran
      cases ran
      rw [ScopeStack.closeScope, opened]
      exact .refl _
  | cons stmt rest body_ih rest_ih =>
      intro top outer e e' opened ran
      simp only [statements] at ran
      obtain ⟨_, d, first, others⟩ := Step.bind_eq_ok_iff.mp ran
      obtain silent | ⟨word, name, equals, init, rfl⟩ := stmt.silent_or_varDecl
      · obtain ⟨top', outer', opened', kept, here⟩ :=
          (body_ih.statement silent first).exists_cons opened
        have later := rest_ih opened' others
        refine (here.mono ?_).trans (later.mono ?_)
        · rintro name ⟨target, free⟩
          exact ⟨Node.mem_freeTargets_cons.mpr (.inl target), free⟩
        · rintro name ⟨target, free⟩
          exact ⟨Node.mem_freeTargets_cons.mpr (.inr ⟨target, silent name⟩),
            (Scope.find?_eq_none_of_same kept).mp free⟩
      · -- From here on the name is hidden by the innermost scope, which has it now.
        obtain ⟨sym, named, inserted⟩ := exists_insert?_of_varDecl first
        obtain ⟨innermost, others', opened', after⟩ := ScopeStack.insert?_eq_some_iff.mp inserted
        cases opened.symm.trans opened'
        have later := rest_ih (congrArg ScopeStack.scopes after) others
        refine later.mono ?_
        rintro other ⟨target, free⟩
        rw [Scope.find?_insert] at free
        by_cases same : other = sym.name
        · rw [if_pos same] at free
          cases free
        · rw [if_neg same] at free
          refine ⟨Node.mem_freeTargets_cons.mpr (.inr ⟨target, ?_⟩), free⟩
          rw [named] at same
          exact beq_eq_false_iff_ne.mpr fun e => same e.symm

theorem updates_of_statement (silent : ∀ name, stmt.declares name = false)
    (ran : statement stmt e = .ok () e') :
    ScopeStack.Updates (· ∈ Node.freeTargetsOf stmt) e.scopes e'.scopes :=
  Confined.statement (confined stmt.body) silent ran

theorem covers_statement {height : Nat} {before : List Node} {lists : List (List Node)}
    (h : e.scopes.Covers height (before :: lists)) (ran : statement stmt e = .ok () e') :
    e'.scopes.Covers height ((before ++ [stmt]) :: lists) := by
  obtain silent | ⟨word, name, equals, init, rfl⟩ := stmt.silent_or_varDecl
  · exact (h.of_same (updates_of_statement silent ran).same).append_of_silent silent
  · obtain ⟨sym, named, inserted⟩ := exists_insert?_of_varDecl ran
    exact h.append_of_insert? named inserted

/-- Between the braces of a block, the scopes above those around it have the names that were
declared on the way. -/
theorem covers_at (reached : walk.Reaches stmts d place (stmt :: left) e')
    (opened : d.scopes = e.scopes.openScope) :
    ∃ passed around, e'.scopes.Covers e.scopes.depth (passed :: around) ∧
      Node.Stands stmt stmts place ((passed ++ [stmt]) :: around) := by
  have start : d.scopes.Covers e.scopes.depth [[]] := by
    rw [opened]
    exact .openScope ⟨[], e.scopes.scopes, rfl, rfl, .nil⟩
  refine reached.carries (P := fun lists u => u.scopes.Covers e.scopes.depth lists)
    covers_statement ?_ start
  intro around before outer u v covers entered
  cases enter?_eq_some entered
  exact (covers.append_of_silent (Node.declares_of_hasBraces (hasBraces_of_enter? entered))).openScope

end Exec

/-- A block is framed by its free targets. Take any state of execution, and a block or a conditional
that is executed to its end. Then as many scopes are open as before, and they have the same symbols
except for values. A symbol has another value only if it was the innermost one of its name, and if
its name is a free target of the statements between the braces. In particular, whenever execution
comes to an assignment between the braces, to a name that was declared on the way there from the
opening brace, the scopes that were open before the block are not touched. -/
theorem blocks_change_free_targets {e e' : Executor} {stmt : Node}
    (braces : stmt.hasBraces = true) (ran : Exec.statement stmt e = .ok () e') :
    e'.scopes.depth = e.scopes.depth ∧ e'.scopes.withoutValues = e.scopes.withoutValues ∧
    (∀ i name sym, e.scopes.symbolAt? i name = some sym →
      ∃ value, e'.scopes.symbolAt? i name = some { sym with value := value } ∧
        (value ≠ sym.value → name ∈ Node.freeTargets stmt.body ∧
          e.scopes.lookup? name = some sym ∧ ∀ j < i, e.scopes.symbolAt? j name = none)) ∧
    ∀ entered place name equals value left lists d d', Exec.enter? stmt e = some entered →
      Exec.walk.Reaches stmt.body entered place (.assign name equals value :: left) d →
      Exec.statement (.assign name equals value) d = .ok () d' →
      Node.Stands (.assign name equals value) stmt.body place lists →
      (Node.declaration? name.text lists).isSome →
        d'.scopes.outermostFirst.take e.scopes.depth =
          d.scopes.outermostFirst.take e.scopes.depth := by
  have updates := Exec.updates_of_statement (Node.declares_of_hasBraces braces) ran
  rw [Node.freeTargetsOf_of_hasBraces braces] at updates
  refine ⟨?_, updates.same, fun i name sym found => updates.symbol found, ?_⟩
  · have heights := congrArg ScopeStack.depth updates.same
    simpa [ScopeStack.depth, ScopeStack.withoutValues] using heights
  · intro entered place name equals value left lists d d' entry reached assigned stands declared
    cases Exec.enter?_eq_some entry
    obtain ⟨passed, around, covers, stands'⟩ := Exec.covers_at reached rfl
    obtain ⟨_, rfl⟩ := stands'.unique stands
    obtain ⟨_, scopes, _, updated, rfl⟩ := Exec.statement_assign_eq_ok_iff.mp assigned
    have there : d.scopes.Covers e.scopes.depth
        ((passed ++ [.assign name equals value]) :: around) :=
      covers.append_of_silent fun _ => rfl
    exact there.setValue? declared updated

/-- An assignment to a variable that its block declares before. -/
def Node.ownTarget : Node :=
  .assign ⟨"x", 3, 2⟩ ⟨"=", 3, 4⟩ (.boolLit ⟨"false", 3, 6⟩)

/-- A block that assigns to the outer `x`, declares an `x` of its own and assigns to that, and then
assigns to the outer `y` from inner braces. -/
def Node.mixed : Node :=
  .block ⟨"\x7b", 1, 0⟩ [
    .assign ⟨"x", 1, 2⟩ ⟨"=", 1, 4⟩ (.boolLit ⟨"true", 1, 6⟩),
    .varDecl ⟨"boolean", 2, 2⟩ ⟨"x", 2, 10⟩ ⟨"=", 2, 12⟩ (.boolLit ⟨"true", 2, 14⟩),
    .ownTarget,
    .conditional ⟨"(", 4, 5⟩ (.boolLit ⟨"true", 4, 6⟩) ⟨"\x7b", 4, 12⟩ [
      .assign ⟨"y", 5, 4⟩ ⟨"=", 5, 6⟩ (.ident ⟨"x", 5, 8⟩),
      .varDecl ⟨"boolean", 6, 4⟩ ⟨"y", 6, 12⟩ ⟨"=", 6, 14⟩ (.boolLit ⟨"true", 6, 16⟩)]]

/-- A state of execution with two scopes, of which both have an `x`. -/
def Executor.layered : Executor where
  scopes := ⟨[
    ⟨[⟨"x", .boolean, ⟨"x", 0, 0⟩, some 7⟩]⟩,
    ⟨[⟨"x", .boolean, ⟨"x", 0, 0⟩, some 8⟩, ⟨"y", .boolean, ⟨"y", 0, 0⟩, some 9⟩]⟩]⟩
  output := #[]
  stream := ""

theorem blocks_change_free_targets_mixed :
    ∃ e' entered left d d' sym, Exec.statement .mixed .layered = .ok () e' ∧
      e'.scopes.withoutValues = Executor.layered.scopes.withoutValues ∧
      e'.scopes.symbolAt? 0 "x" = some ⟨"x", .boolean, ⟨"x", 0, 0⟩, some 1⟩ ∧
      e'.scopes.symbolAt? 1 "x" = some ⟨"x", .boolean, ⟨"x", 0, 0⟩, some 8⟩ ∧
      e'.scopes.symbolAt? 1 "y" = some ⟨"y", .boolean, ⟨"y", 0, 0⟩, some 0⟩ ∧
      Node.freeTargets Node.mixed.body = ["x", "y"] ∧
      Executor.layered.scopes.lookup? "y" = some sym ∧ sym.value = some 9 ∧
      Exec.walk.Reaches Node.mixed.body entered [2] (.ownTarget :: left) d ∧
      Exec.statement .ownTarget d = .ok () d' ∧
      d'.scopes.outermostFirst.take 2 = d.scopes.outermostFirst.take 2 := by
  have braces : Node.mixed.hasBraces = true := rfl
  obtain ⟨_, same, changes, untouched⟩ := blocks_change_free_targets (e := .layered) braces rfl
  obtain ⟨value, found, changed⟩ := changes 1 "y" _ rfl
  have new : value = some 0 := by
    cases found
    rfl
  obtain ⟨_, visible, _⟩ := changed (by simp [new])
  have comes : ∃ entered left d d', Exec.enter? .mixed .layered = some entered ∧
      Exec.walk.Reaches Node.mixed.body entered [2] (.ownTarget :: left) d ∧
      Exec.statement .ownTarget d = .ok () d' :=
    ⟨_, _, _, _, rfl, .after rfl (.after rfl (.here _ _)), rfl⟩
  obtain ⟨entered, left, d, d', entry, reached, assigned⟩ := comes
  have kept := untouched _ [2] _ _ _ _ _ _ _ entry reached assigned
    (.here (Node.mixed.body.take 2) _) rfl
  exact ⟨_, entered, left, d, d', _, rfl, same, rfl, rfl, rfl, rfl, visible, rfl, reached, assigned,
    kept⟩

end BlockLang

import BlockLang.Scope.Stack

/-!
# Laws of scopes and scope stacks

Checking declares symbols without values and execution declares them with values, so the
two stacks can only be compared without the values. `ScopeStack.withoutValues` takes the
values away and leaves every scope with its names, types and tokens. It commutes with all
uses of a stack, and giving a symbol a new value disappears under it.

The other notions here are a property of all symbols of a stack, the distinctness of the
names in each scope, and the freshness of a name in the innermost scope. Each comes with
what opening, closing, declaring and updating do to it, so that the two passes are never
compared by unfolding a scope.
-/

namespace BlockLang

namespace Symbol

/-- The symbol with its value taken away. -/
def withoutValue (s : Symbol) : Symbol := { s with value := none }

@[simp] theorem withoutValue_mk (name : String) (type : Ty) (token : Token)
    (value : Option Int) :
    (Symbol.mk name type token value).withoutValue = ⟨name, type, token, none⟩ := rfl

end Symbol

namespace Scope

variable {s : Scope} {name : String} {sym : Symbol} {value : Option Int}

/-- The scope with the values of all symbols taken away. -/
def withoutValues (s : Scope) : Scope := ⟨s.symbols.map Symbol.withoutValue⟩

/-- No two symbols of the scope have the same name. -/
def Distinct (s : Scope) : Prop :=
  s.symbols.Pairwise fun a b => a.name ≠ b.name

theorem find?_mem (h : s.find? name = some sym) : sym ∈ s.symbols :=
  List.mem_of_find?_eq_some h

theorem find?_withoutValues (s : Scope) (name : String) :
    s.withoutValues.find? name = (s.find? name).map Symbol.withoutValue := by
  simp only [find?, withoutValues, List.find?_map]
  rfl

theorem find?_insert (s : Scope) (sym : Symbol) (name : String) :
    (s.insert sym).find? name = if name = sym.name then some sym else s.find? name := by
  by_cases h : name = sym.name
  · simp [find?, insert, h]
  · simp only [if_neg h, find?, insert]
    rw [List.find?_cons_of_neg (by simpa using Ne.symm h), List.find?_filter]
    congr 1
    funext a
    by_cases ha : a.name = name
    · simp [ha, h]
    · simp [ha]

/-- A new value for one name changes the symbol of that name and leaves the others. -/
theorem find?_setValue (s : Scope) (name other : String) (value : Option Int) :
    (s.setValue name value).find? other =
      if other = name then (s.find? other).map ({ · with value := value }) else s.find? other := by
  have names : ((·.name == other) ∘ fun sym : Symbol =>
      if sym.name = name then { sym with value := value } else sym) = (·.name == other) := by
    funext sym
    simp only [Function.comp_apply]
    split <;> rfl
  rw [find?, setValue, List.find?_map, names, ← find?]
  cases found : s.find? other with
  | none => simp
  | some sym =>
      have named : sym.name = other := by simpa using List.find?_some found
      by_cases same : other = name
      · simp [same, named]
      · simp [same, named]

theorem withoutValues_insert (s : Scope) (sym : Symbol) :
    (s.insert sym).withoutValues = s.withoutValues.insert sym.withoutValue := by
  simp only [insert, withoutValues, List.map_cons, List.filter_map]
  rfl

theorem withoutValues_setValue (s : Scope) (name : String) (value : Option Int) :
    (s.setValue name value).withoutValues = s.withoutValues := by
  simp only [setValue, withoutValues, List.map_map]
  congr 1
  apply List.map_congr_left
  intro a _
  simp only [Function.comp_apply]
  split <;> rfl

theorem distinct_empty : empty.Distinct := List.Pairwise.nil

/-- Inserting a symbol removes the other symbol of its name, if there is one. -/
theorem Distinct.insert (h : s.Distinct) (sym : Symbol) : (s.insert sym).Distinct := by
  refine List.pairwise_cons.mpr ⟨?_, h.filter _⟩
  intro a member
  have other := (List.mem_filter.mp member).2
  intro e
  simp [e] at other

theorem Distinct.setValue (h : s.Distinct) (name : String) (value : Option Int) :
    (s.setValue name value).Distinct := by
  refine List.pairwise_map.mpr (h.imp ?_)
  intro a b different
  split <;> split <;> exact different

/-- In a scope with distinct names every symbol is found under its name. -/
theorem Distinct.find?_of_mem (h : s.Distinct) (member : sym ∈ s.symbols) :
    s.find? sym.name = some sym := by
  obtain ⟨symbols⟩ := s
  change symbols.find? (·.name == sym.name) = some sym
  change symbols.Pairwise fun a b => a.name ≠ b.name at h
  change sym ∈ symbols at member
  induction symbols with
  | nil => cases member
  | cons first rest ih =>
      obtain ⟨different, distinct⟩ := List.pairwise_cons.mp h
      rcases List.mem_cons.mp member with rfl | later
      · simp
      · have skipped : (first.name == sym.name) = false := by simpa using different sym later
        rw [List.find?_cons, skipped]
        exact ih distinct later

end Scope

namespace ScopeStack

variable {s t : ScopeStack} {name : String} {sym : Symbol} {value : Option Int}
variable {P : Symbol → Prop}

/-- The stack with the values of all symbols taken away. -/
def withoutValues (s : ScopeStack) : ScopeStack := ⟨s.scopes.map Scope.withoutValues⟩

/-- Every symbol in every scope has the property. -/
def All (P : Symbol → Prop) (s : ScopeStack) : Prop :=
  ∀ scope ∈ s.scopes, ∀ sym ∈ scope.symbols, P sym

/-- In every scope the names are distinct. -/
def Distinct (s : ScopeStack) : Prop :=
  ∀ scope ∈ s.scopes, scope.Distinct

/-- The innermost scope has no symbol of the name. -/
def Fresh (s : ScopeStack) (name : String) : Prop :=
  ∀ innermost, s.scopes.head? = some innermost → innermost.find? name = none

theorem insert?_eq_some_iff :
    s.insert? sym = some t ↔
      ∃ innermost outer, s.scopes = innermost :: outer ∧ t = ⟨innermost.insert sym :: outer⟩ := by
  obtain ⟨scopes⟩ := s
  cases scopes with
  | nil => simp [insert?]
  | cons innermost outer =>
      constructor
      · intro h
        exact ⟨innermost, outer, rfl, (Option.some.inj h).symm⟩
      · rintro ⟨_, _, ⟨⟩, rfl⟩
        rfl

/-- A declaration is the insertion of a symbol whose name is fresh. -/
theorem declare_eq_ok_iff {type : Ty} {token : Token} :
    s.declare name type token = .ok t ↔
      s.Fresh name ∧ s.insert? ⟨name, type, token, none⟩ = some t := by
  obtain ⟨scopes⟩ := s
  cases scopes with
  | nil => simp [declare, insert?]
  | cons innermost outer =>
      cases h : innermost.find? name with
      | none => simp [declare, insert?, Fresh, h]
      | some earlier => simp [declare, Fresh, h]

/-- A repeated declaration is refused with its own name and token. -/
theorem declare_eq_redeclared {type : Ty} {token token' : Token} {name' : String} {line : Int}
    (h : s.declare name type token = .error (.redeclared name' token' line)) :
    name' = name ∧ token' = token := by
  unfold declare at h
  split at h
  · cases h
  · split at h
    · cases h
      exact ⟨rfl, rfl⟩
    · cases h

/-- A new symbol hides the symbols of its name, and no others. -/
theorem lookup?_insert? (h : s.insert? sym = some t) (name : String) :
    t.lookup? name = if name = sym.name then some sym else s.lookup? name := by
  obtain ⟨innermost, outer, hs, rfl⟩ := insert?_eq_some_iff.mp h
  simp only [lookup?, findIn?, hs, List.findSome?_cons, Scope.find?_insert]
  by_cases e : name = sym.name
  · simp [e]
  · simp only [if_neg e]

theorem depth_closeScope (s : ScopeStack) : s.closeScope.depth = s.depth - 1 :=
  List.length_tail

theorem depth_insert? (h : s.insert? sym = some t) : t.depth = s.depth := by
  obtain ⟨innermost, outer, hs, rfl⟩ := insert?_eq_some_iff.mp h
  simp [depth, hs]

theorem closeScope_insert? (h : s.insert? sym = some t) : t.closeScope = s.closeScope := by
  obtain ⟨innermost, outer, hs, rfl⟩ := insert?_eq_some_iff.mp h
  simp [closeScope, hs]

theorem exists_find?_of_lookup? (h : s.lookup? name = some sym) :
    ∃ scope ∈ s.scopes, scope.find? name = some sym :=
  List.exists_of_findSome?_eq_some h

/-- An update changes the first scope that has the name, and only that one. -/
theorem setIn?_eq_some {scopes updated : List Scope} (h : setIn? name value scopes = some updated) :
    ∃ before scope after, scopes = before ++ scope :: after ∧
      findIn? name scopes = scope.find? name ∧ (scope.find? name).isSome ∧
      updated = before ++ scope.setValue name value :: after := by
  induction scopes generalizing updated with
  | nil => simp [setIn?] at h
  | cons first rest ih =>
      cases found : first.find? name with
      | some sym =>
          simp only [setIn?, found, Option.isSome_some, if_true, Option.some.injEq] at h
          exact ⟨[], first, rest, rfl, by simp [findIn?, found], by simp [found], h.symm⟩
      | none =>
          simp only [setIn?, found, Option.isSome_none, Bool.false_eq_true, if_false,
            Option.map_eq_some_iff] at h
          obtain ⟨tail, changed, rfl⟩ := h
          obtain ⟨before, scope, after, rfl, seen, bound, rfl⟩ := ih changed
          refine ⟨first :: before, scope, after, rfl, ?_, bound, rfl⟩
          simpa [findIn?, found] using seen

theorem setIn?_eq_none_iff {scopes : List Scope} :
    setIn? name value scopes = none ↔ findIn? name scopes = none := by
  induction scopes with
  | nil => simp [setIn?, findIn?]
  | cons first rest ih =>
      cases found : first.find? name with
      | some sym => simp [setIn?, findIn?, found]
      | none => simpa [setIn?, findIn?, found] using ih

theorem setValue?_eq_some (h : s.setValue? name value = some t) :
    ∃ before scope after, s.scopes = before ++ scope :: after ∧
      s.lookup? name = scope.find? name ∧ (scope.find? name).isSome ∧
      t.scopes = before ++ scope.setValue name value :: after := by
  obtain ⟨updated, changed, rfl⟩ := Option.map_eq_some_iff.mp h
  exact setIn?_eq_some changed

theorem depth_setValue? (h : s.setValue? name value = some t) : t.depth = s.depth := by
  obtain ⟨before, scope, after, hs, _, _, ht⟩ := setValue?_eq_some h
  simp [depth, hs, ht]

/-- An update is refused for the names that no scope has. -/
theorem setValue?_eq_none_iff : s.setValue? name value = none ↔ s.lookup? name = none := by
  rw [setValue?, Option.map_eq_none_iff]
  exact setIn?_eq_none_iff

@[simp] theorem withoutValues_openScope (s : ScopeStack) :
    s.openScope.withoutValues = s.withoutValues.openScope := rfl

@[simp] theorem withoutValues_closeScope (s : ScopeStack) :
    s.closeScope.withoutValues = s.withoutValues.closeScope := by
  simp [closeScope, withoutValues, List.map_tail]

@[simp] theorem lookup?_withoutValues (s : ScopeStack) (name : String) :
    s.withoutValues.lookup? name = (s.lookup? name).map Symbol.withoutValue := by
  obtain ⟨scopes⟩ := s
  change findIn? name (scopes.map Scope.withoutValues) = (findIn? name scopes).map _
  induction scopes with
  | nil => rfl
  | cons first rest ih =>
      simp only [findIn?, List.map_cons, List.findSome?_cons, Scope.find?_withoutValues] at ih ⊢
      cases first.find? name with
      | none => exact ih
      | some sym => rfl

theorem insert?_withoutValues (s : ScopeStack) (sym : Symbol) :
    s.withoutValues.insert? sym.withoutValue = (s.insert? sym).map withoutValues := by
  obtain ⟨scopes⟩ := s
  cases scopes with
  | nil => rfl
  | cons innermost outer => simp [insert?, withoutValues, Scope.withoutValues_insert]

theorem withoutValues_setValue? (h : s.setValue? name value = some t) :
    t.withoutValues = s.withoutValues := by
  obtain ⟨before, scope, after, hs, _, _, ht⟩ := setValue?_eq_some h
  simp [withoutValues, hs, ht, Scope.withoutValues_setValue]

theorem fresh_withoutValues : s.withoutValues.Fresh name ↔ s.Fresh name := by
  obtain ⟨scopes⟩ := s
  cases scopes with
  | nil => simp [Fresh, withoutValues]
  | cons innermost outer => simp [Fresh, withoutValues, Scope.find?_withoutValues]

theorem distinct_initial : initial.Distinct := by
  intro scope member
  cases List.mem_singleton.mp member
  exact Scope.distinct_empty

theorem Distinct.openScope (h : s.Distinct) : s.openScope.Distinct := by
  intro scope member
  rcases List.mem_cons.mp member with rfl | outer
  · exact Scope.distinct_empty
  · exact h scope outer

theorem Distinct.closeScope (h : s.Distinct) : s.closeScope.Distinct :=
  fun scope member => h scope (List.mem_of_mem_tail member)

theorem Distinct.insert? (h : s.Distinct) (inserted : s.insert? sym = some t) : t.Distinct := by
  obtain ⟨innermost, outer, hs, rfl⟩ := insert?_eq_some_iff.mp inserted
  intro scope member
  rcases List.mem_cons.mp member with rfl | later
  · exact (h innermost (by simp [hs])).insert sym
  · exact h scope (by simp [hs, later])

theorem Distinct.setValue? (h : s.Distinct) (updated : s.setValue? name value = some t) :
    t.Distinct := by
  obtain ⟨before, changed, after, hs, _, _, ht⟩ := setValue?_eq_some updated
  intro scope member
  rw [ht, List.mem_append, List.mem_cons] at member
  rcases member with earlier | rfl | later
  · exact h scope (by simp [hs, earlier])
  · exact (h changed (by simp [hs])).setValue name value
  · exact h scope (by simp [hs, later])

theorem all_initial : initial.All P := by
  intro scope member sym symbol
  cases List.mem_singleton.mp member
  cases symbol

theorem All.lookup? (h : s.All P) (found : s.lookup? name = some sym) : P sym := by
  obtain ⟨scope, member, found⟩ := exists_find?_of_lookup? found
  exact h scope member sym (Scope.find?_mem found)

theorem All.openScope (h : s.All P) : s.openScope.All P := by
  intro scope member sym symbol
  rcases List.mem_cons.mp member with rfl | outer
  · cases symbol
  · exact h scope outer sym symbol

theorem All.closeScope (h : s.All P) : s.closeScope.All P :=
  fun scope member => h scope (List.mem_of_mem_tail member)

theorem All.insert? (h : s.All P) (inserted : s.insert? sym = some t) (new : P sym) :
    t.All P := by
  obtain ⟨innermost, outer, hs, rfl⟩ := insert?_eq_some_iff.mp inserted
  intro scope member a symbol
  rcases List.mem_cons.mp member with rfl | later
  · rcases List.mem_cons.mp symbol with rfl | kept
    · exact new
    · exact h innermost (by simp [hs]) a (List.mem_filter.mp kept).1
  · exact h scope (by simp [hs, later]) a symbol

/-- A property of all symbols survives an update if the updated symbol has it. The names
must be distinct, since a scope gives the new value to all of its symbols of the name. -/
theorem All.setValue? (h : s.All P) (distinct : s.Distinct)
    (updated : s.setValue? name value = some t)
    (new : ∀ sym, s.lookup? name = some sym → P { sym with value := value }) : t.All P := by
  obtain ⟨before, changed, after, hs, seen, _, ht⟩ := setValue?_eq_some updated
  have member : changed ∈ s.scopes := by simp [hs]
  intro scope there a symbol
  rw [ht, List.mem_append, List.mem_cons] at there
  rcases there with earlier | rfl | later
  · exact h scope (by simp [hs, earlier]) a symbol
  · obtain ⟨b, old, rfl⟩ := List.mem_map.mp symbol
    split
    · rename_i same
      apply new
      rw [seen, ← same]
      exact (distinct changed member).find?_of_mem old
    · exact h changed member b old
  · exact h scope (by simp [hs, later]) a symbol

end ScopeStack

end BlockLang

import BlockLang.Proofs.Scopes
import BlockLang.Scope.Command

/-!
# Runs of commands on a scope stack

Commands are performed one after another, and those that are refused change nothing. A run of
commands is bracketed if it ends at the depth at which it begins and never goes below it. When a
scope is opened before such a run and closed after it, everything that was declared in between is
gone, and the scopes below still have their symbols; only values may be new.

The scopes are counted from the outermost here, since the height of a scope stays the same while
scopes are opened and closed above it. So the symbols of a stack are known by a height and a name
throughout a run, and a new value is given to the symbol of its name at `ScopeStack.height?`.
-/

namespace BlockLang.ScopeStack

variable {s t : ScopeStack} {command : Command} {commands : List Command}
variable {name : String} {height n : Nat} {sym : Symbol} {value : Option Int}

/-- The stack after commands in order, of which any may be refused. -/
def performAll (s : ScopeStack) (commands : List Command) : ScopeStack :=
  commands.foldl (fun s command => (s.perform command).1) s

@[simp] theorem performAll_nil (s : ScopeStack) : s.performAll [] = s := rfl

theorem performAll_append (s : ScopeStack) (first second : List Command) :
    s.performAll (first ++ second) = (s.performAll first).performAll second :=
  List.foldl_append

/-- At no time during the commands are fewer than `n` scopes open. -/
def StaysAbove (s : ScopeStack) (n : Nat) (commands : List Command) : Prop :=
  ∀ k ≤ commands.length, n ≤ (s.performAll (commands.take k)).depth

instance : Decidable (s.StaysAbove n commands) :=
  inferInstanceAs (Decidable (∀ k ≤ commands.length, n ≤ (s.performAll (commands.take k)).depth))

theorem StaysAbove.start (h : s.StaysAbove n commands) : n ≤ s.depth := by
  simpa using h 0 (Nat.zero_le _)

theorem StaysAbove.tail (h : s.StaysAbove n (command :: commands)) :
    (s.perform command).1.StaysAbove n commands :=
  fun k bound => h (k + 1) (Nat.succ_le_succ bound)

/-- The commands end at the depth at which they begin, and never go below it. -/
structure Bracketed (s : ScopeStack) (commands : List Command) : Prop where
  above : s.StaysAbove s.depth commands
  level : (s.performAll commands).depth = s.depth

/-! ## Heights -/

/-- The height of the innermost of the scopes that has the name, which is the number of scopes
around it. -/
def heightIn? (name : String) : List Scope → Option Nat
  | [] => none
  | scope :: outer =>
    if (scope.find? name).isSome then some outer.length else heightIn? name outer

/-- The height of the innermost scope that has the name. -/
def height? (s : ScopeStack) (name : String) : Option Nat :=
  heightIn? name s.scopes

/-- What the scope at a height has under a name. The outermost scope is at height zero. -/
def symbolAtHeight? (s : ScopeStack) (height : Nat) (name : String) : Option Symbol :=
  s.outermostFirst[height]?.bind (·.find? name)

theorem symbolAtHeight?_cons (scope : Scope) (outer : List Scope) (height : Nat) (name : String) :
    (mk (scope :: outer)).symbolAtHeight? height name =
      if height = outer.length then scope.find? name else (mk outer).symbolAtHeight? height name := by
  simp only [symbolAtHeight?, outermostFirst, List.reverse_cons, List.getElem?_append,
    List.length_reverse]
  by_cases here : height = outer.length
  · simp [here]
  · by_cases lower : height < outer.length
    · simp [here, lower]
    · have beyond : height - outer.length ≠ 0 := by omega
      simp [here, lower, beyond]

theorem symbolAtHeight?_lt (found : s.symbolAtHeight? height name = some sym) :
    height < s.depth := by
  obtain ⟨scope, there, _⟩ := Option.bind_eq_some_iff.mp found
  obtain ⟨bound, _⟩ := List.getElem?_eq_some_iff.mp there
  rwa [outermostFirst, List.length_reverse] at bound

theorem height?_cons_of_some {scope : Scope} (here : scope.find? name = some sym)
    (outer : List Scope) : (mk (scope :: outer)).height? name = some outer.length := by
  simp [height?, heightIn?, here]

theorem height?_cons_of_none {scope : Scope} (absent : scope.find? name = none)
    (outer : List Scope) : (mk (scope :: outer)).height? name = (mk outer).height? name := by
  simp [height?, heightIn?, absent]

theorem height?_lt (found : s.height? name = some height) : height < s.depth := by
  obtain ⟨scopes⟩ := s
  induction scopes with
  | nil => cases found
  | cons scope outer ih =>
      cases here : scope.find? name with
      | some sym =>
          rw [height?_cons_of_some here, Option.some.injEq] at found
          exact found ▸ Nat.lt_succ_self outer.length
      | none =>
          rw [height?_cons_of_none here] at found
          exact Nat.lt_succ_of_lt (ih found)

/-- The innermost symbol of a name stands at the height of the name. -/
theorem exists_symbol_of_height? (found : s.height? name = some height) :
    ∃ sym, s.symbolAtHeight? height name = some sym ∧ s.lookup? name = some sym := by
  obtain ⟨scopes⟩ := s
  induction scopes with
  | nil => cases found
  | cons scope outer ih =>
      rw [symbolAtHeight?_cons]
      cases here : scope.find? name with
      | some sym =>
          rw [height?_cons_of_some here, Option.some.injEq] at found
          exact ⟨sym, if_pos found.symm, by simp [lookup?, findIn?, here]⟩
      | none =>
          rw [height?_cons_of_none here] at found
          have lower : height ≠ outer.length := Nat.ne_of_lt (height?_lt found)
          obtain ⟨sym, stands, seen⟩ := ih found
          rw [if_neg lower]
          exact ⟨sym, stands, by simpa [lookup?, findIn?, here] using seen⟩

theorem height?_withoutValues (s : ScopeStack) (name : String) :
    s.withoutValues.height? name = s.height? name := by
  obtain ⟨scopes⟩ := s
  change heightIn? name (scopes.map Scope.withoutValues) = heightIn? name scopes
  induction scopes with
  | nil => rfl
  | cons scope outer ih => simp [heightIn?, Scope.find?_withoutValues, ih]

/-- An update changes the symbol of the name at the height of the name, and no other symbol. -/
theorem symbolAtHeight?_setValue? (updated : s.setValue? name value = some t) (height : Nat)
    (other : String) :
    t.symbolAtHeight? height other =
      if other = name ∧ s.height? name = some height then
        (s.symbolAtHeight? height other).map ({ · with value := value })
      else s.symbolAtHeight? height other := by
  obtain ⟨scopes⟩ := s
  obtain ⟨result, changed, rfl⟩ := Option.map_eq_some_iff.mp updated
  clear updated
  induction scopes generalizing result with
  | nil => cases changed
  | cons scope outer ih =>
      cases here : scope.find? name with
      | some sym =>
          simp only [setIn?, here, Option.isSome_some, if_true, Option.some.injEq] at changed
          subst changed
          rw [symbolAtHeight?_cons, symbolAtHeight?_cons, height?_cons_of_some here,
            Scope.find?_setValue]
          by_cases level : height = outer.length
          · simp [level]
          · simp [level, Ne.symm level]
      | none =>
          simp only [setIn?, here, Option.isSome_none, Bool.false_eq_true, if_false,
            Option.map_eq_some_iff] at changed
          obtain ⟨further, changed, rfl⟩ := changed
          have same : further.length = outer.length := by
            obtain ⟨before, found, after, rfl, _, _, rfl⟩ := setIn?_eq_some changed
            simp
          rw [symbolAtHeight?_cons, symbolAtHeight?_cons, height?_cons_of_none here, same]
          by_cases level : height = outer.length
          · have elsewhere : (mk outer).height? name ≠ some height :=
              fun found => Nat.ne_of_lt (height?_lt found) level
            rw [if_pos level, if_pos level, if_neg fun met => elsewhere met.2]
          · rw [if_neg level, if_neg level]
            exact ih further changed

/-! ## The outermost scopes -/

/-- The outermost scopes, of which there are `n`. -/
def outermost (s : ScopeStack) (n : Nat) : ScopeStack :=
  ⟨s.scopes.drop (s.depth - n)⟩

theorem outermost_depth (s : ScopeStack) : s.outermost s.depth = s := by
  simp [outermost]

theorem withoutValues_outermost (s : ScopeStack) (n : Nat) :
    (s.outermost n).withoutValues = s.withoutValues.outermost n := by
  simp [outermost, withoutValues, depth, List.map_drop]

theorem symbolAtHeight?_outermost (lower : height < n) (s : ScopeStack) (name : String) :
    (s.outermost n).symbolAtHeight? height name = s.symbolAtHeight? height name := by
  obtain few | many := Nat.le_total n s.depth
  · have count : s.scopes.length - (s.depth - n) = n := Nat.sub_sub_self few
    rw [symbolAtHeight?, outermostFirst, outermost, List.reverse_drop, count,
      List.getElem?_take_of_lt lower]
    rfl
  · rw [outermost, Nat.sub_eq_zero_of_le many]
    rfl

theorem outermost_closeScope (few : n < s.depth) : s.closeScope.outermost n = s.outermost n := by
  have steps : s.closeScope.depth - n + 1 = s.depth - n := by
    rw [depth_closeScope]
    omega
  rw [outermost, closeScope, List.drop_tail]
  exact congrArg (fun k => mk (s.scopes.drop k)) steps

/-- The outermost scopes are left when there is one more and it is closed. -/
theorem outermost_eq_closeScope (more : s.depth = n + 1) : s.outermost n = s.closeScope := by
  have left : s.closeScope.depth = n := by rw [depth_closeScope, more, Nat.add_sub_cancel]
  rw [← outermost_closeScope (more ▸ Nat.lt_succ_self n), ← left, outermost_depth]

theorem outermost_insert? (few : n < s.depth) (inserted : s.insert? sym = some t) :
    t.outermost n = s.outermost n := by
  have few' : n < t.depth := by rwa [depth_insert? inserted]
  rw [← outermost_closeScope few', closeScope_insert? inserted, outermost_closeScope few]

/-- A command gives a new value to the innermost symbol of a name, unless it is of another sort or
there is no such symbol. -/
theorem perform_cases (s : ScopeStack) (command : Command) :
    (∃ name value, command = .setValue name value ∧
      s.setValue? name value = some (s.perform command).1) ∨
    ∀ name value, command = .setValue name value → s.lookup? name = none := by
  cases command with
  | setValue name value =>
      cases updated : s.setValue? name value with
      | some t => exact .inl ⟨name, value, rfl, by simp [perform, updated]⟩
      | none =>
          right
          rintro _ _ ⟨⟩
          exact setValue?_eq_none_iff.mp updated
  | _ => exact .inr fun _ _ impossible => by cases impossible

/-- A command that gives no value to a symbol can only change the innermost scope, or open or close
one, and the scopes below stay as they are. -/
theorem outermost_perform (few : n < s.depth)
    (idle : ∀ name value, command = .setValue name value → s.lookup? name = none) :
    (s.perform command).1.outermost n = s.outermost n := by
  cases command with
  | openScope =>
      have opened : n < s.openScope.depth := Nat.lt_succ_of_lt few
      exact (outermost_closeScope opened).symm
  | closeScope => exact outermost_closeScope few
  | declare name type token =>
      cases declared : s.declare name type token with
      | error e => simp [perform, declared]
      | ok t =>
          simp only [perform, declared]
          exact outermost_insert? few (declare_eq_ok_iff.mp declared).2
  | insert sym =>
      cases inserted : s.insert? sym with
      | none => simp [perform, inserted]
      | some t =>
          simp only [perform, inserted]
          exact outermost_insert? few inserted
  | lookup name => rfl
  | setValue name value =>
      have refused : s.setValue? name value = none :=
        setValue?_eq_none_iff.mpr (idle name value rfl)
      simp [perform, refused]

/-- No command declares anything in the scopes below the innermost. -/
theorem withoutValues_perform (few : n < s.depth) (command : Command) :
    ((s.perform command).1.outermost n).withoutValues = (s.outermost n).withoutValues := by
  obtain ⟨name, value, rfl, updated⟩ | idle := s.perform_cases command
  · rw [withoutValues_outermost, withoutValues_setValue? updated, withoutValues_outermost]
  · rw [outermost_perform few idle]

theorem withoutValues_performAll (above : s.StaysAbove (n + 1) commands) :
    ((s.performAll commands).outermost n).withoutValues = (s.outermost n).withoutValues := by
  induction commands generalizing s with
  | nil => rfl
  | cons command rest ih => exact (ih above.tail).trans (withoutValues_perform above.start command)

/-! ## New values -/

/-- The command gives the value to the symbol of the name at the height, which is the innermost one
of its name. -/
def Assigns (s : ScopeStack) (command : Command) (height : Nat) (name : String)
    (value : Option Int) : Prop :=
  command = .setValue name value ∧ s.height? name = some height

/-- After `k` of the commands, the next one gives the value to the symbol of the name at the
height. -/
def AssignsAt (s : ScopeStack) (commands : List Command) (k height : Nat) (name : String)
    (value : Option Int) : Prop :=
  ∃ command, commands[k]? = some command ∧
    (s.performAll (commands.take k)).Assigns command height name value

theorem assignsAt_zero {rest : List Command} :
    s.AssignsAt (command :: rest) 0 height name value ↔ s.Assigns command height name value := by
  simp [AssignsAt]

/-- What becomes of the old value of the symbol of the name at the height: the new value is given to
the symbol by the last command that gives it any, or it is the old value and no command does. -/
def Revalues (s : ScopeStack) (commands : List Command) (height : Nat) (name : String)
    (old new : Option Int) : Prop :=
  (∃ k, s.AssignsAt commands k height name new ∧
    ∀ j > k, ∀ other, ¬ s.AssignsAt commands j height name other) ∨
  new = old ∧ ∀ k other, ¬ s.AssignsAt commands k height name other

theorem revalues_nil (old : Option Int) : s.Revalues [] height name old old := by
  refine .inr ⟨rfl, ?_⟩
  rintro k other ⟨command, there, _⟩
  cases there

theorem Revalues.cons {rest : List Command} {old middle new : Option Int}
    (first : s.Assigns command height name middle ∨
      middle = old ∧ ∀ other, ¬ s.Assigns command height name other)
    (later : (s.perform command).1.Revalues rest height name middle new) :
    s.Revalues (command :: rest) height name old new := by
  -- The rest has the last word, if it gives a value to the symbol at all.
  rcases later with ⟨k, assigns, last⟩ | ⟨rfl, never⟩
  · refine .inl ⟨k + 1, assigns, ?_⟩
    intro j after other
    cases j with
    | zero => cases after
    | succ j => exact last j (Nat.lt_of_succ_lt_succ after) other
  · rcases first with assigns | ⟨rfl, never'⟩
    · refine .inl ⟨0, assignsAt_zero.mpr assigns, ?_⟩
      intro j after other
      cases j with
      | zero => cases after
      | succ j => exact never j other
    · refine .inr ⟨rfl, ?_⟩
      intro k other
      cases k with
      | zero => exact fun assigns => never' other (assignsAt_zero.mp assigns)
      | succ k => exact never k other

/-- Below the innermost scope, a command changes a symbol only by giving a value to it. -/
theorem symbolAtHeight?_perform (few : n < s.depth) (lower : height < n) (command : Command)
    (found : s.symbolAtHeight? height name = some sym) :
    ∃ value, (s.perform command).1.symbolAtHeight? height name = some { sym with value := value } ∧
      (s.Assigns command height name value ∨
        value = sym.value ∧ ∀ other, ¬ s.Assigns command height name other) := by
  obtain ⟨target, new, rfl, updated⟩ | idle := s.perform_cases command
  · have after := symbolAtHeight?_setValue? updated height name
    by_cases met : name = target ∧ s.height? target = some height
    · rw [if_pos met, found] at after
      obtain ⟨rfl, here⟩ := met
      exact ⟨new, after, .inl ⟨rfl, here⟩⟩
    · rw [if_neg met, found] at after
      refine ⟨sym.value, after, .inr ⟨rfl, ?_⟩⟩
      rintro other ⟨⟨⟩, here⟩
      exact met ⟨rfl, here⟩
  · refine ⟨sym.value, ?_, .inr ⟨rfl, ?_⟩⟩
    · rw [← symbolAtHeight?_outermost lower, outermost_perform few idle,
        symbolAtHeight?_outermost lower, found]
    · rintro other ⟨rfl, here⟩
      obtain ⟨_, _, seen⟩ := exists_symbol_of_height? here
      rw [idle name other rfl] at seen
      cases seen

theorem symbolAtHeight?_performAll (above : s.StaysAbove (n + 1) commands) (lower : height < n)
    (found : s.symbolAtHeight? height name = some sym) :
    ∃ value, (s.performAll commands).symbolAtHeight? height name =
        some { sym with value := value } ∧
      s.Revalues commands height name sym.value value := by
  induction commands generalizing s sym with
  | nil => exact ⟨sym.value, found, revalues_nil sym.value⟩
  | cons command rest ih =>
      obtain ⟨middle, next, first⟩ := symbolAtHeight?_perform above.start lower command found
      obtain ⟨value, final, later⟩ := ih above.tail next
      exact ⟨value, final, later.cons first⟩

/-- A scope that is opened and closed again leaves the scopes below as they were, whatever is done
in between. Take any stack and any commands that are bracketed once a scope is opened; some of them
may be refused. After the scope is closed, there are the same scopes as before, with the same names,
types and tokens. A symbol can have another value only if some of the commands gave it one when it
was the innermost symbol of its name, and then it has the value that the last of these commands gave
it. So each name is found in the same scope as before, and stands for the same declaration. -/
theorem bracketed_commands_restore_scopes {s : ScopeStack} {commands : List Command}
    (bracketed : s.openScope.Bracketed commands) :
    let t := s.performAll (.openScope :: commands ++ [.closeScope])
    t.withoutValues = s.withoutValues ∧
    (∀ height name sym, s.symbolAtHeight? height name = some sym →
      ∃ value, t.symbolAtHeight? height name = some { sym with value := value } ∧
        s.openScope.Revalues commands height name sym.value value) ∧
    ∀ name, t.height? name = s.height? name ∧
      (t.lookup? name).map Symbol.withoutValue = (s.lookup? name).map Symbol.withoutValue := by
  intro t
  have above : s.openScope.StaysAbove (s.depth + 1) commands := bracketed.above
  have level : (s.openScope.performAll commands).depth = s.depth + 1 := bracketed.level
  have before : s.openScope.outermost s.depth = s := outermost_eq_closeScope rfl
  have after : (s.openScope.performAll commands).outermost s.depth = t := by
    rw [outermost_eq_closeScope level]
    exact (performAll_append s.openScope commands [.closeScope]).symm
  have same : t.withoutValues = s.withoutValues := by
    have kept := withoutValues_performAll above
    rwa [before, after] at kept
  refine ⟨same, ?_, ?_⟩
  · intro height name sym found
    have lower : height < s.depth := symbolAtHeight?_lt found
    rw [← before, symbolAtHeight?_outermost lower] at found
    obtain ⟨value, final, revalued⟩ := symbolAtHeight?_performAll above lower found
    rw [← symbolAtHeight?_outermost lower, after] at final
    exact ⟨value, final, revalued⟩
  · intro name
    constructor
    · rw [← t.height?_withoutValues, same, s.height?_withoutValues]
    · rw [← t.lookup?_withoutValues, same, s.lookup?_withoutValues]

/-- A stack with two scopes that both have an `x`. -/
def twofold : ScopeStack :=
  ⟨[⟨[⟨"x", .int, ⟨"x", 2, 6⟩, some 7⟩]⟩,
    ⟨[⟨"y", .int, ⟨"y", 1, 11⟩, some 9⟩, ⟨"x", .boolean, ⟨"x", 1, 8⟩, some 0⟩]⟩]⟩

/-- Commands that give values to `y` and to the inner `x`. Then comes a scope with an `x` and a `y`
of its own, from which `y` is given a value once more before it is hidden. The second declaration of
`x` is refused, and so is the value for `z`. -/
def tangled : List Command := [
  .setValue "y" (some 1),
  .setValue "x" (some 2),
  .openScope,
  .declare "x" .boolean ⟨"x", 4, 12⟩,
  .declare "x" .int ⟨"x", 5, 8⟩,
  .setValue "x" (some 3),
  .setValue "y" (some 4),
  .insert ⟨"y", .boolean, ⟨"y", 6, 12⟩, some 5⟩,
  .insert ⟨"y", .int, ⟨"y", 7, 8⟩, some 6⟩,
  .setValue "y" (some 10),
  .setValue "z" (some 11),
  .closeScope,
  .lookup "x"]

theorem bracketed_commands_restore_scopes_tangled :
    let t := twofold.performAll (.openScope :: tangled ++ [.closeScope])
    twofold.openScope.Bracketed tangled ∧ t.withoutValues = twofold.withoutValues ∧
    t.symbolAtHeight? 0 "y" = some ⟨"y", .int, ⟨"y", 1, 11⟩, some 4⟩ ∧
    (∃ k, twofold.openScope.AssignsAt tangled k 0 "y" (some 4) ∧
      ∀ j > k, ∀ other, ¬ twofold.openScope.AssignsAt tangled j 0 "y" other) ∧
    t.symbolAtHeight? 1 "x" = some ⟨"x", .int, ⟨"x", 2, 6⟩, some 2⟩ ∧
    t.symbolAtHeight? 0 "x" = some ⟨"x", .boolean, ⟨"x", 1, 8⟩, some 0⟩ ∧
    (t.lookup? "x").map Symbol.withoutValue = some ⟨"x", .int, ⟨"x", 2, 6⟩, none⟩ := by
  intro t
  have bracketed : twofold.openScope.Bracketed tangled := ⟨by decide, rfl⟩
  obtain ⟨same, values, names⟩ := bracketed_commands_restore_scopes bracketed
  obtain ⟨value, found, revalued⟩ := values 0 "y" _ rfl
  cases found
  obtain last | ⟨unchanged, _⟩ := revalued
  · exact ⟨bracketed, same, rfl, last, rfl, rfl, (names "x").2⟩
  · cases unchanged

end BlockLang.ScopeStack

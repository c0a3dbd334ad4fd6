import BlockLang.Fault

/-!
# Walks over a program

Checking and execution walk over the same trees. Both go through a list of statements in
order, and both may go through the statements between the braces of a statement before
they are done with it. `Walk` keeps what the two have in common, and `Walk.Reaches` says
in which state a walk comes to a place of the program.

A place is a position between the statements of one list. It is written as the numbers of
the statements passed in the lists around it, outermost first, so that a place does not
depend on the walk and two walks can be compared at the same place. The position after
the last statement of a list is a place too. Every state of a walk is therefore the state
at some place: the states after a brace are those at the start of a list, and all others
are states after a statement.

A walk that ends with a fault has come to a statement that fails by itself, that is, not
through the statements between its braces. `Walk.exists_failing` finds it.
-/

namespace BlockLang

namespace Step

variable {ε σ α β : Type} {x : EStateM ε σ α} {f : α → EStateM ε σ β}

/-- Two steps in sequence succeed if both succeed. -/
theorem bind_eq_ok_iff {s t : σ} {b : β} :
    (x >>= f) s = .ok b t ↔ ∃ a u, x s = .ok a u ∧ f a u = .ok b t := by
  change EStateM.bind x f s = .ok b t ↔ _
  unfold EStateM.bind
  cases x s with
  | ok a u =>
      constructor
      · intro h
        exact ⟨a, u, rfl, h⟩
      · rintro ⟨_, _, ⟨⟩, h⟩
        exact h
  | error e u => simp

/-- Two steps in sequence fail if the first fails, or the second after the first. -/
theorem bind_eq_error_iff {s t : σ} {e : ε} :
    (x >>= f) s = .error e t ↔
      x s = .error e t ∨ ∃ a u, x s = .ok a u ∧ f a u = .error e t := by
  change EStateM.bind x f s = .error e t ↔ _
  unfold EStateM.bind
  cases x s with
  | ok a u =>
      constructor
      · intro h
        exact .inr ⟨a, u, rfl, h⟩
      · rintro (failed | ⟨_, _, ⟨⟩, h⟩)
        · cases failed
        · exact h
  | error e' u => simp

theorem bind_of_ok {s u : σ} {a : α} (h : x s = .ok a u) : (x >>= f) s = f a u := by
  change EStateM.bind x f s = f a u
  unfold EStateM.bind
  rw [h]

@[simp] theorem pure_apply (a : α) (s : σ) : (pure a : EStateM ε σ α) s = .ok a s := rfl

@[simp] theorem throw_apply (e : ε) (s : σ) : (throw e : EStateM ε σ α) s = .error e s := rfl

@[simp] theorem set_apply (s t : σ) : (set t : EStateM ε σ PUnit) s = .ok ⟨⟩ t := rfl

@[simp] theorem modify_apply (g : σ → σ) (s : σ) :
    (modify g : EStateM ε σ PUnit) s = .ok ⟨⟩ (g s) := rfl

@[simp] theorem get_bind_apply (g : σ → EStateM ε σ β) (s : σ) :
    ((get : EStateM ε σ σ) >>= g) s = g s s := rfl

/-- What is done at each of several statements, in order. -/
def sequence {σ : Type} (statement : Node → EStateM Fault σ Unit) :
    List Node → EStateM Fault σ Unit
  | [] => pure ()
  | stmt :: rest => do
    statement stmt
    sequence statement rest

end Step

namespace Node

/-- The statements between the braces of a statement. -/
def body : Node → List Node
  | .block _ stmts => stmts
  | .conditional _ _ _ stmts => stmts
  | _ => []

/-- The expression that a statement begins with evaluating. -/
def expression? : Node → Option Node
  | .varDecl _ _ _ init => some init
  | .assign _ _ value => some value
  | .conditional _ cond _ _ => some cond
  | .print _ value => some value
  | _ => none

/-- The operands in an expression, from left to right: its parts that are no
operations. -/
def leaves : Node → List Node
  | .binary _ left right => left.leaves ++ right.leaves
  | node => [node]

/-- Whether a node is of a sort that can be executed and checked. -/
def isStatement : Node → Bool
  | .varDecl .. | .assign .. | .conditional .. | .block .. | .print .. => true
  | _ => false

theorem sizeOf_body_lt (stmt : Node) (rest : List Node) :
    sizeOf stmt.body < sizeOf (stmt :: rest) := by
  cases stmt <;> simp [body] <;> omega

/-- Statement lists are generated by putting a statement before a list, given the list
between the braces of the statement. -/
@[elab_as_elim] theorem list_induction {motive : List Node → Prop} (nil : motive [])
    (cons : ∀ stmt rest, motive stmt.body → motive rest → motive (stmt :: rest)) :
    ∀ stmts, motive stmts
  | [] => nil
  | stmt :: rest =>
    cons stmt rest (list_induction nil cons stmt.body) (list_induction nil cons rest)
termination_by stmts => sizeOf stmts
decreasing_by
  · exact sizeOf_body_lt stmt rest
  · simp only [List.cons.sizeOf_spec]
    omega

/-- A statement stands somewhere in a list, possibly between the braces of others. -/
inductive Within (stmt : Node) : List Node → Prop
  | here {stmts : List Node} (member : stmt ∈ stmts) : Within stmt stmts
  | inside {outer : Node} {stmts : List Node} (member : outer ∈ stmts)
      (within : Within stmt outer.body) : Within stmt stmts

theorem not_within_nil {stmt : Node} : ¬ Within stmt [] := by
  intro h
  cases h with
  | here member => cases member
  | inside member _ => cases member

theorem within_cons_iff {stmt first : Node} {rest : List Node} :
    Within stmt (first :: rest) ↔
      stmt = first ∨ Within stmt first.body ∨ Within stmt rest := by
  constructor
  · intro h
    cases h with
    | here member =>
        rcases List.mem_cons.mp member with same | later
        · exact .inl same
        · exact .inr (.inr (.here later))
    | inside member within =>
        rcases List.mem_cons.mp member with rfl | later
        · exact .inr (.inl within)
        · exact .inr (.inr (.inside later within))
  · rintro (rfl | between | later)
    · exact .here List.mem_cons_self
    · exact .inside List.mem_cons_self between
    · cases later with
      | here member => exact .here (List.mem_cons_of_mem first member)
      | inside member within => exact .inside (List.mem_cons_of_mem first member) within

theorem within_append_iff {stmt : Node} {first second : List Node} :
    Within stmt (first ++ second) ↔ Within stmt first ∨ Within stmt second := by
  induction first with
  | nil => simp [not_within_nil]
  | cons head rest ih => simp only [List.cons_append, within_cons_iff, ih, or_assoc]

end Node

/-- A place in a program: how many statements stand before it in each of the lists around
it, outermost first. -/
abbrev Place := List Nat

/-- A walk over programs with states of the given type: what it does at a statement, the
state in which it comes to the statements between the braces of a statement, if it does,
and what it does to the state at the closing brace. -/
structure Walk (σ : Type) where
  statement : Node → EStateM Fault σ Unit
  enter? : Node → σ → Option σ
  leave : σ → σ
  statement_of_enter : ∀ {stmt : Node} {s t : σ}, enter? stmt s = some t →
    statement stmt s = (do Step.sequence statement stmt.body; modify leave) t

namespace Walk

variable {σ : Type} {w : Walk σ}

/-- Starting on a list of statements in the state `s`, the walk comes to a place in the
state `t`, where the statements `left` are left of the innermost list around the place. -/
inductive Reaches (w : Walk σ) : List Node → σ → Place → List Node → σ → Prop
  /-- The start of the list. -/
  | here (stmts : List Node) (s : σ) : Reaches w stmts s [0] stmts s
  /-- A place after the first statement, which succeeds. -/
  | after {stmt : Node} {rest left : List Node} {s t u : σ} {n : Nat} {place : Place}
      (ran : w.statement stmt s = .ok () t) (reached : Reaches w rest t (n :: place) left u) :
      Reaches w (stmt :: rest) s ((n + 1) :: place) left u
  /-- A place between the braces of the first statement. -/
  | inside {stmt : Node} {rest left : List Node} {s t u : σ} {place : Place}
      (entered : w.enter? stmt s = some t) (reached : Reaches w stmt.body t place left u) :
      Reaches w (stmt :: rest) s (0 :: place) left u

/-- The walk over a list of statements. -/
def statements (w : Walk σ) : List Node → EStateM Fault σ Unit :=
  Step.sequence w.statement

@[simp] theorem statements_nil (s : σ) : w.statements [] s = .ok () s := rfl

theorem statements_cons (stmt : Node) (rest : List Node) :
    w.statements (stmt :: rest) = (do w.statement stmt; w.statements rest) := rfl

/-- A statement whose braces are entered succeeds if the statements between them do. -/
theorem statement_eq_ok_iff {stmt : Node} {s t u : σ} (entered : w.enter? stmt s = some t) :
    w.statement stmt s = .ok () u ↔ ∃ v, w.statements stmt.body t = .ok () v ∧ u = w.leave v := by
  rw [w.statement_of_enter entered, Step.bind_eq_ok_iff]
  constructor
  · rintro ⟨_, v, body, closed⟩
    simp only [Step.modify_apply, EStateM.Result.ok.injEq, true_and] at closed
    exact ⟨v, body, closed.symm⟩
  · rintro ⟨v, body, rfl⟩
    exact ⟨(), v, body, rfl⟩

/-- A statement whose braces are entered fails as the statements between them do, and the
closing brace is not come to. -/
theorem statement_eq_error_iff {stmt : Node} {s t u : σ} {f : Fault}
    (entered : w.enter? stmt s = some t) :
    w.statement stmt s = .error f u ↔ w.statements stmt.body t = .error f u := by
  rw [w.statement_of_enter entered, Step.bind_eq_error_iff]
  constructor
  · rintro (body | ⟨_, v, _, closed⟩)
    · exact body
    · simp at closed
  · exact .inl

namespace Reaches

theorem place_ne_nil {stmts left : List Node} {s t : σ} {place : Place}
    (h : w.Reaches stmts s place left t) : place ≠ [] := by
  cases h <;> simp

/-- A walk comes to a place at most once. -/
theorem unique {stmts left left' : List Node} {s t t' : σ} {place : Place}
    (h : w.Reaches stmts s place left t) (h' : w.Reaches stmts s place left' t') :
    left' = left ∧ t' = t := by
  induction h with
  | here =>
      cases h' with
      | here => exact ⟨rfl, rfl⟩
      | inside _ reached => exact absurd rfl reached.place_ne_nil
  | after ran _ ih =>
      cases h' with
      | after ran' reached' =>
          rw [ran] at ran'
          cases ran'
          exact ih reached'
  | inside entered reached ih =>
      cases h' with
      | here => exact absurd rfl reached.place_ne_nil
      | inside entered' reached' =>
          rw [entered] at entered'
          cases entered'
          exact ih reached'

/-- A walk that comes to a place goes on from there as if it started there. -/
theorem trans {stmts middle left : List Node} {s t u : σ} {place place' : Place}
    (h : w.Reaches stmts s place middle t) (h' : w.Reaches middle t place' left u) :
    ∃ place'', w.Reaches stmts s place'' left u := by
  induction h with
  | here => exact ⟨place', h'⟩
  | after ran _ ih =>
      obtain ⟨place'', reached⟩ := ih h'
      obtain ⟨n, rest, rfl⟩ := List.exists_cons_of_ne_nil reached.place_ne_nil
      exact ⟨(n + 1) :: rest, .after ran reached⟩
  | inside entered _ ih =>
      obtain ⟨place'', reached⟩ := ih h'
      exact ⟨0 :: place'', .inside entered reached⟩

/-- From a place the walk goes on to the place after the next statement. -/
theorem next {stmts left : List Node} {stmt : Node} {s t u : σ} {place : Place}
    (h : w.Reaches stmts s place (stmt :: left) t) (ran : w.statement stmt t = .ok () u) :
    ∃ place', w.Reaches stmts s place' left u :=
  h.trans (.after ran (.here left u))

/-- A statement that a walk comes to stands in the list it started on. -/
theorem within {stmts left : List Node} {stmt : Node} {s t : σ} {place : Place}
    (h : w.Reaches stmts s place (stmt :: left) t) : stmt.Within stmts := by
  generalize hrest : stmt :: left = rest at h
  induction h with
  | here =>
      subst hrest
      exact .here List.mem_cons_self
  | after _ _ ih => exact Node.within_cons_iff.mpr (.inr (.inr (ih hrest)))
  | inside _ _ ih => exact Node.within_cons_iff.mpr (.inr (.inl (ih hrest)))

end Reaches

/-- A walk that succeeds comes to the place after the last statement. -/
theorem reaches_end {stmts : List Node} {s t : σ} (h : w.statements stmts s = .ok () t) :
    w.Reaches stmts s [stmts.length] [] t := by
  induction stmts generalizing s with
  | nil =>
      cases h
      exact .here [] _
  | cons stmt rest ih =>
      obtain ⟨_, u, ran, remaining⟩ := Step.bind_eq_ok_iff.mp h
      exact .after ran (ih remaining)

/-- A walk that fails has come to a statement that fails, and not because of the
statements between its braces. -/
theorem exists_failing {stmts : List Node} {s t : σ} {f : Fault}
    (h : w.statements stmts s = .error f t) :
    ∃ place stmt left u, w.Reaches stmts s place (stmt :: left) u ∧
      w.enter? stmt u = none ∧ w.statement stmt u = .error f t := by
  induction stmts using Node.list_induction generalizing s with
  | nil => simp at h
  | cons stmt rest body_ih rest_ih =>
      rw [statements_cons, Step.bind_eq_error_iff] at h
      obtain failed | ⟨_, u, ran, failed⟩ := h
      · cases entry : w.enter? stmt s with
        | none => exact ⟨[0], stmt, rest, s, .here _ s, entry, failed⟩
        | some v =>
            obtain ⟨place, inner, left, u, reached, own⟩ :=
              body_ih ((statement_eq_error_iff entry).mp failed)
            exact ⟨0 :: place, inner, left, u, .inside entry reached, own⟩
      · obtain ⟨place, inner, left, v, reached, own⟩ := rest_ih failed
        obtain ⟨n, outer, rfl⟩ := List.exists_cons_of_ne_nil reached.place_ne_nil
        exact ⟨(n + 1) :: outer, inner, left, v, .after ran reached, own⟩

/-- A walk that comes to a statement which fails ends there. -/
theorem Reaches.statements_eq_error {stmts left : List Node} {stmt : Node} {s t u : σ}
    {place : Place} {f : Fault} (h : w.Reaches stmts s place (stmt :: left) t)
    (failed : w.statement stmt t = .error f u) : w.statements stmts s = .error f u := by
  generalize hrest : stmt :: left = rest at h
  induction h with
  | here =>
      subst hrest
      exact Step.bind_eq_error_iff.mpr (.inl failed)
  | after ran _ ih => exact Step.bind_eq_error_iff.mpr (.inr ⟨(), _, ran, ih failed hrest⟩)
  | inside entered _ ih =>
      have within := (statement_eq_error_iff entered).mpr (ih failed hrest)
      exact Step.bind_eq_error_iff.mpr (.inl within)

/-- A walk comes to at most one statement that fails by itself. -/
theorem Reaches.failing_unique {stmts left left' : List Node} {stmt stmt' : Node} {s t t' u u' : σ}
    {place place' : Place} {f f' : Fault} (h : w.Reaches stmts s place (stmt :: left) t)
    (own : w.enter? stmt t = none) (failed : w.statement stmt t = .error f u)
    (h' : w.Reaches stmts s place' (stmt' :: left') t') (own' : w.enter? stmt' t' = none)
    (failed' : w.statement stmt' t' = .error f' u') : place' = place := by
  generalize hrest : stmt :: left = rest at h
  induction h generalizing place' with
  | here =>
      cases hrest
      cases h' with
      | here => rfl
      | after ran => cases ran.symm.trans failed
      | inside entered => cases entered.symm.trans own
  | after ran _ ih =>
      cases h' with
      | here => cases ran.symm.trans failed'
      | after ran' reached' =>
          cases ran.symm.trans ran'
          cases ih own failed reached' hrest
          rfl
      | inside entered reached' =>
          have within := (statement_eq_error_iff entered).mpr (reached'.statements_eq_error failed')
          cases ran.symm.trans within
  | inside entered reached ih =>
      cases h' with
      | here => cases entered.symm.trans own'
      | after ran =>
          subst hrest
          have within := (statement_eq_error_iff entered).mpr (reached.statements_eq_error failed)
          cases ran.symm.trans within
      | inside entered' reached' =>
          cases entered.symm.trans entered'
          rw [ih own failed reached' hrest]

/-- A property of states holds all along a walk if the statements without entered braces
keep it, wherever the walk comes to them, and if entering and leaving braces keeps it. -/
theorem keeps {P : σ → Prop}
    (enter : ∀ {stmt s t}, P s → w.enter? stmt s = some t → P t)
    (leave : ∀ {s}, P s → P (w.leave s)) {stmts left : List Node} {s t : σ} {place : Place}
    (start : P s)
    (simple : ∀ {place stmt left t u}, w.Reaches stmts s place (stmt :: left) t → P t →
      w.enter? stmt t = none → w.statement stmt t = .ok () u → P u)
    (reached : w.Reaches stmts s place left t) : P t := by
  induction stmts using Node.list_induction generalizing s place left t with
  | nil =>
      cases reached
      exact start
  | cons stmt rest body_ih rest_ih =>
      have inBody : ∀ {left t u place}, w.enter? stmt s = some u →
          w.Reaches stmt.body u place left t → P t := by
        intro left t u place entered within
        exact body_ih (enter start entered) (fun inner => simple (.inside entered inner)) within
      cases reached with
      | here => exact start
      | inside entered within => exact inBody entered within
      | @after _ _ _ _ u _ _ _ ran later =>
          have first : P u := by
            cases entry : w.enter? stmt s with
            | none => exact simple (.here _ _) start entry ran
            | some v =>
                obtain ⟨last, done, rfl⟩ := (statement_eq_ok_iff entry).mp ran
                exact leave (inBody entry (reaches_end done))
          refine rest_ih first ?_ later
          intro place stmt left t u inner holds own done
          obtain ⟨n, outer, rfl⟩ := List.exists_cons_of_ne_nil inner.place_ne_nil
          exact simple (.after ran inner) holds own done

end Walk

end BlockLang

import BlockLang.Lexeme
import Mathlib.Computability.ContextFreeGrammar

/-!
# The grammar of programs

The grammar is a context-free one over the kinds of lexemes. Its rules say how a statement
list grows, what the statements are made of, and what an expression is: two expressions
with an operator between them are an expression, so one expression has many derivations.

The first part is about all context-free grammars. The items that a grammar is used for
carry more than the terminals do, as a lexeme carries more than its kind, so a word is
given by items and a label for each of them. `Yields` says that the labels are derived.
What every rule keeps holds of all items that a grammar yields, and a grammar yields all
items that its rules put together; with the two, a grammar can be compared with any other
account of its language.
-/

namespace ContextFreeGrammar

variable {T A : Type*} {N : Type} {label : A → T} {F F' : N → List A → Prop}

/-- The items can be cut into consecutive parts, one for each symbol: an item with the label
of a terminal, and items of which `F` holds for a nonterminal. -/
def Spells (label : A → T) (F : N → List A → Prop) : List (Symbol T N) → List A → Prop
  | [], items => items = []
  | .terminal t :: form, items =>
    ∃ item rest, label item = t ∧ Spells label F form rest ∧ item :: rest = items
  | .nonterminal n :: form, items =>
    ∃ part rest, F n part ∧ Spells label F form rest ∧ part ++ rest = items

theorem spells_append {first second : List (Symbol T N)} {items : List A} :
    Spells label F (first ++ second) items ↔
      ∃ left right, Spells label F first left ∧ Spells label F second right ∧
        left ++ right = items := by
  induction first generalizing items with
  | nil => simp [Spells]
  | cons symbol first ih =>
      cases symbol with
      | terminal t =>
          simp only [List.cons_append, Spells, ih]
          constructor
          · rintro ⟨item, _, labelled, ⟨left, right, before, after, rfl⟩, rfl⟩
            exact ⟨item :: left, right, ⟨item, left, labelled, before, rfl⟩, after, rfl⟩
          · rintro ⟨_, right, ⟨item, left, labelled, before, rfl⟩, after, rfl⟩
            exact ⟨item, left ++ right, labelled, ⟨left, right, before, after, rfl⟩, rfl⟩
      | nonterminal n =>
          simp only [List.cons_append, Spells, ih]
          constructor
          · rintro ⟨part, _, holds, ⟨left, right, before, after, rfl⟩, rfl⟩
            exact ⟨part ++ left, right, ⟨part, left, holds, before, rfl⟩, after,
              List.append_assoc ..⟩
          · rintro ⟨_, right, ⟨part, left, holds, before, rfl⟩, after, rfl⟩
            exact ⟨part, left ++ right, holds, ⟨left, right, before, after, rfl⟩,
              (List.append_assoc ..).symm⟩

theorem spells_labels (items : List A) :
    Spells label F ((items.map label).map .terminal) items := by
  induction items with
  | nil => rfl
  | cons item rest ih => exact ⟨item, rest, rfl, ih, rfl⟩

variable {g : ContextFreeGrammar T}

/-- The grammar derives the labels of the items from the symbols. -/
def Yields (g : ContextFreeGrammar T) (label : A → T) (form : List (Symbol T g.NT))
    (items : List A) : Prop :=
  g.Derives form ((items.map label).map .terminal)

/-- What every rule of a grammar keeps holds of all that the grammar derives. -/
theorem Yields.spells {F : g.NT → List A → Prop} {form : List (Symbol T g.NT)} {items : List A}
    (h : g.Yields label form items)
    (keeps : ∀ rule ∈ g.rules, ∀ part, Spells label F rule.output part → F rule.input part) :
    Spells label F form items := by
  unfold Yields at h
  induction h using Relation.ReflTransGen.head_induction_on with
  | refl => exact spells_labels items
  | head step _ ih =>
      obtain ⟨rule, member, rewrites⟩ := step
      obtain ⟨before, after, rfl, rfl⟩ := rewrites.exists_parts
      obtain ⟨_, right, inner, outer, rfl⟩ := spells_append.mp ih
      obtain ⟨left, part, first, output, rfl⟩ := spells_append.mp inner
      have input : Spells label F [.nonterminal rule.input] part :=
        ⟨part, [], keeps rule member part output, rfl, List.append_nil part⟩
      exact spells_append.mpr
        ⟨_, right, spells_append.mpr ⟨left, part, first, input, rfl⟩, outer, rfl⟩

/-- A form yields items if each of its nonterminals yields its part of them. -/
theorem yields_of_spells {form : List (Symbol T g.NT)} {items : List A}
    (h : Spells label (fun n => g.Yields label [.nonterminal n]) form items) :
    g.Yields label form items := by
  induction form generalizing items with
  | nil =>
      cases h
      exact Derives.refl _
  | cons symbol form ih =>
      cases symbol with
      | terminal t =>
          obtain ⟨item, rest, rfl, spelled, rfl⟩ := h
          exact (ih spelled).append_left [.terminal (label item)]
      | nonterminal n =>
          obtain ⟨part, rest, yields, spelled, rfl⟩ := h
          unfold Yields
          rw [List.map_append, List.map_append]
          exact (Derives.append_right yields form).trans ((ih spelled).append_left _)

theorem yields_of_rule {rule : ContextFreeRule T g.NT} (member : rule ∈ g.rules) {items : List A}
    (h : Spells label (fun n => g.Yields label [.nonterminal n]) rule.output items) :
    g.Yields label [.nonterminal rule.input] items :=
  Produces.trans_derives ⟨rule, member, .input_output⟩ (yields_of_spells h)

end ContextFreeGrammar

namespace BlockLang

open Lexeme (Kind)

/-- What the rules of the grammar are about. -/
inductive Nonterminal
  | program
  | stmtList
  | stmt
  | declStmt
  | typeWord
  | assignStmt
  | printStmt
  | ifStmt
  | block
  | expr
deriving DecidableEq, Repr

/-- The rules of the grammar. An expression may be split at any of its operators that
stand outside parentheses, so the grammar has several derivations for one expression. -/
def productions : List (ContextFreeRule Kind Nonterminal) := [
  ⟨.program, [.nonterminal .stmtList]⟩,
  ⟨.stmtList, [.nonterminal .stmtList, .nonterminal .stmt]⟩,
  ⟨.stmtList, []⟩,
  ⟨.stmt, [.nonterminal .declStmt, .terminal .semicolon]⟩,
  ⟨.stmt, [.nonterminal .assignStmt, .terminal .semicolon]⟩,
  ⟨.stmt, [.nonterminal .printStmt, .terminal .semicolon]⟩,
  ⟨.stmt, [.nonterminal .ifStmt]⟩,
  ⟨.stmt, [.nonterminal .block]⟩,
  ⟨.declStmt, [.nonterminal .typeWord, .terminal .identifier, .terminal .equals,
    .nonterminal .expr]⟩,
  ⟨.typeWord, [.terminal .intWord]⟩,
  ⟨.typeWord, [.terminal .booleanWord]⟩,
  ⟨.assignStmt, [.terminal .identifier, .terminal .equals, .nonterminal .expr]⟩,
  ⟨.printStmt, [.terminal .printWord, .terminal .leftParen, .nonterminal .expr,
    .terminal .rightParen]⟩,
  ⟨.ifStmt, [.terminal .ifWord, .terminal .leftParen, .nonterminal .expr,
    .terminal .rightParen, .nonterminal .block]⟩,
  ⟨.block, [.terminal .leftBrace, .nonterminal .stmtList, .terminal .rightBrace]⟩,
  ⟨.expr, [.nonterminal .expr, .terminal .plus, .nonterminal .expr]⟩,
  ⟨.expr, [.nonterminal .expr, .terminal .minus, .nonterminal .expr]⟩,
  ⟨.expr, [.terminal .number]⟩,
  ⟨.expr, [.terminal .trueWord]⟩,
  ⟨.expr, [.terminal .falseWord]⟩,
  ⟨.expr, [.terminal .identifier]⟩,
  ⟨.expr, [.terminal .leftParen, .nonterminal .expr, .terminal .rightParen]⟩]

/-- The grammar of programs, over the kinds of lexemes. -/
def grammar : ContextFreeGrammar Kind where
  NT := Nonterminal
  initial := .program
  rules := productions.toFinset

/-- The kinds of the lexemes are those of a program. -/
def IsSentence (lexemes : List Lexeme) : Prop :=
  lexemes.map Lexeme.kind ∈ grammar.language

end BlockLang

import BlockLang.Program.Parse
import BlockLang.Proofs.Drafting
import BlockLang.Proofs.Unambiguity
import Mathlib

/-!
# Reading programs by the grammar

A source text that is scanned to its end is read if and only if its lexemes are a sentence
of the grammar, and the program is then that of the only derivation of the lexemes.

Lexemes are viable if they are the beginning of a sentence. Drafts take exactly the viable
lexemes, since every draft can be completed; this makes viability decidable, although it
speaks of all sentences. The first fault of a source text is therefore the first lexeme
that cannot be followed by anything, even if scanning stops at an illegal character later.
-/

namespace BlockLang

open Lexeme (Kind)

open BlockLang.Derivation

/-- The lexemes are the beginning of a sentence. -/
def Viable (lexemes : List Lexeme) : Prop :=
  ∃ rest : List Kind, lexemes.map Lexeme.kind ++ rest ∈ grammar.language

namespace Draft

/-- The lexemes of the derivations of a program are those of which a draft becomes the
program. -/
theorem feedAll_program_iff {lexemes : List Lexeme} {p : Program} :
    (∃ d, empty.feedAll lexemes = .ok d ∧ d.program? = some p) ↔
      ∃ list : Stmts, list.lexemes = lexemes ∧ list.program = p := by
  constructor
  · rintro ⟨d, fed, complete⟩
    exact (reads_empty.feedAll fed).program? complete
  · rintro ⟨list, rfl, rfl⟩
    exact feedAll_derivation list

theorem isSentence_iff_feedAll {lexemes : List Lexeme} :
    IsSentence lexemes ↔ ∃ d p, empty.feedAll lexemes = .ok d ∧ d.program? = some p := by
  rw [isSentence_iff]
  constructor
  · rintro ⟨list, rfl⟩
    obtain ⟨d, fed, complete⟩ := feedAll_derivation list
    exact ⟨d, list.program, fed, complete⟩
  · rintro ⟨d, p, fed, complete⟩
    obtain ⟨list, same, _⟩ := feedAll_program_iff.mp ⟨d, fed, complete⟩
    exact ⟨list, same⟩

/-- Drafts take exactly the viable lexemes. -/
theorem viable_iff_feedAll {lexemes : List Lexeme} :
    Viable lexemes ↔ ∃ d, empty.feedAll lexemes = .ok d := by
  constructor
  · rintro ⟨rest, sentence⟩
    have kinds : (rest.map Completable.sample).map Lexeme.kind = rest := by
      simp [Function.comp_def, Completable.sample]
    have whole : IsSentence (lexemes ++ rest.map Completable.sample) := by
      rwa [IsSentence, List.map_append, kinds]
    obtain ⟨d, p, fed, _⟩ := isSentence_iff_feedAll.mp whole
    rw [feedAll_append] at fed
    cases first : empty.feedAll lexemes with
    | ok d => exact ⟨d, rfl⟩
    | error l =>
        rw [first] at fed
        cases fed
  · rintro ⟨d, fed⟩
    obtain ⟨rest, last, p, others, complete⟩ := d.completable
    have all : empty.feedAll (lexemes ++ rest) = .ok last :=
      (feedAll_append_of_ok fed).trans others
    have sentence := isSentence_iff_feedAll.mpr ⟨last, p, all, complete⟩
    rw [IsSentence, List.map_append] at sentence
    exact ⟨rest.map Lexeme.kind, sentence⟩

/-- A lexeme is refused by the draft of the lexemes before it. -/
theorem feedAll_eq_error {d : Draft} {lexemes : List Lexeme} {l : Lexeme}
    (h : d.feedAll lexemes = .error l) :
    ∃ before after d', lexemes = before ++ l :: after ∧ d.feedAll before = .ok d' ∧
      d'.feedAll [l] = .error l := by
  induction lexemes generalizing d with
  | nil => cases h
  | cons first rest ih =>
      cases fed : d.feed? first with
      | none =>
          have refused : d.feedAll [first] = .error first := by simp [feedAll, fed]
          simp only [feedAll, fed, Except.error.injEq] at h
          subst h
          exact ⟨[], rest, d, rfl, rfl, refused⟩
      | some next =>
          rw [feedAll_of_feed? fed] at h
          obtain ⟨before, after, d', rfl, taken, refused⟩ := ih h
          exact ⟨first :: before, after, d', rfl, (feedAll_of_feed? fed).trans taken, refused⟩

/-- The lexeme that is refused is the first one that cannot follow the lexemes before it. -/
theorem feedAll_eq_error_iff {lexemes : List Lexeme} {l : Lexeme} :
    empty.feedAll lexemes = .error l ↔
      ∃ before after, lexemes = before ++ l :: after ∧ Viable before ∧
        ¬ Viable (before ++ [l]) := by
  constructor
  · intro h
    obtain ⟨before, after, d, rfl, taken, refused⟩ := feedAll_eq_error h
    refine ⟨before, after, rfl, viable_iff_feedAll.mpr ⟨d, taken⟩, ?_⟩
    rw [viable_iff_feedAll, feedAll_append_of_ok taken]
    rintro ⟨d', fed⟩
    rw [refused] at fed
    cases fed
  · rintro ⟨before, after, rfl, viable, notViable⟩
    obtain ⟨d, taken⟩ := viable_iff_feedAll.mp viable
    rw [viable_iff_feedAll, feedAll_append_of_ok taken] at notViable
    rw [feedAll_append_of_ok taken]
    cases fed : d.feed? l with
    | none => simp [feedAll, fed]
    | some next => exact absurd ⟨next, feedAll_of_feed? fed⟩ notViable

end Draft

instance : DecidablePred Viable := fun lexemes =>
  match fed : Draft.empty.feedAll lexemes with
  | .ok d => isTrue (Draft.viable_iff_feedAll.mpr ⟨d, fed⟩)
  | .error l => isFalse (by
    rw [Draft.viable_iff_feedAll]
    rintro ⟨d, taken⟩
    rw [fed] at taken
    cases taken)

/-- What viable lexemes begin with is viable. -/
theorem Viable.of_append {first second : List Lexeme} (h : Viable (first ++ second)) :
    Viable first := by
  obtain ⟨rest, sentence⟩ := h
  rw [List.map_append, List.append_assoc] at sentence
  exact ⟨_, sentence⟩

theorem viable_of_isPrefix {part lexemes : List Lexeme} (h : part <+: lexemes)
    (viable : Viable lexemes) : Viable part := by
  obtain ⟨rest, rfl⟩ := h
  exact viable.of_append

namespace Program

/-- A source text is read if it is scanned to its end and its lexemes have a derivation. -/
theorem parse_eq_ok_iff {source : String} {p : Program} :
    parse source = .ok p ↔ (Scan.ofSource source).illegal = none ∧
      ∃ list : Stmts, list.lexemes = (Scan.ofSource source).lexemes ∧ list.program = p := by
  rw [← Draft.feedAll_program_iff, parse, ofScan]
  cases fed : Draft.empty.feedAll (Scan.ofSource source).lexemes with
  | error l => simp
  | ok d =>
      cases stopped : (Scan.ofSource source).illegal with
      | some c => simp
      | none =>
          cases complete : d.program? with
          | none => simp [complete]
          | some q => simp [complete]

/-- A lexeme is refused if it is the first that cannot follow the lexemes before it,
whatever comes after it. -/
theorem parse_eq_unexpected {source : String} {before after : List Lexeme} {l : Lexeme}
    (split : (Scan.ofSource source).lexemes = before ++ l :: after) (viable : Viable before)
    (notViable : ¬ Viable (before ++ [l])) : parse source = .error (.unexpected l) := by
  have refused := Draft.feedAll_eq_error_iff.mpr ⟨before, after, split, viable, notViable⟩
  simp [parse, ofScan, refused]

/-- What is reported about viable lexemes comes after all of them. -/
theorem parse_of_viable {source : String} (viable : Viable (Scan.ofSource source).lexemes) :
    (∀ c, (Scan.ofSource source).illegal = some c →
      parse source = .error (.illegal c (Scan.ofSource source).stop.line)) ∧
    ((Scan.ofSource source).illegal = none → ¬ IsSentence (Scan.ofSource source).lexemes →
      parse source = .error .unexpectedEnd) := by
  obtain ⟨d, fed⟩ := Draft.viable_iff_feedAll.mp viable
  refine ⟨?_, ?_⟩
  · intro c stopped
    simp [parse, ofScan, fed, stopped]
  · intro complete notSentence
    cases finished : d.program? with
    | none => simp [parse, ofScan, fed, complete, finished]
    | some p => exact absurd (Draft.isSentence_iff_feedAll.mpr ⟨d, p, fed, finished⟩) notSentence

theorem exists_parse_iff {source : String} (complete : (Scan.ofSource source).illegal = none) :
    (∃ p, parse source = .ok p) ↔ IsSentence (Scan.ofSource source).lexemes := by
  rw [isSentence_iff]
  constructor
  · rintro ⟨p, parsed⟩
    obtain ⟨_, list, same, _⟩ := parse_eq_ok_iff.mp parsed
    exact ⟨list, same⟩
  · rintro ⟨list, same⟩
    exact ⟨list.program, parse_eq_ok_iff.mpr ⟨complete, list, same, rfl⟩⟩

end Program

/-- Reading by the grammar: let a source text be scanned to its end. It is read if and only
if the kinds of its lexemes are a word of the grammar. It is read as a program if and only
if the program is that of a derivation of the lexemes, and there is no other derivation of
them. The tokens in the tree are those of lexemes, in the same order. -/
theorem parse_builds_only_derivation {source : String}
    (complete : (Scan.ofSource source).illegal = none) :
    ((∃ p, Program.parse source = .ok p) ↔
      (Scan.ofSource source).lexemes.map Lexeme.kind ∈ grammar.language) ∧
    ∀ p, Program.parse source = .ok p ↔
      ∃ list : Derivation.Stmts, list.lexemes = (Scan.ofSource source).lexemes ∧
        (∀ other : Derivation.Stmts, other.lexemes = (Scan.ofSource source).lexemes →
          other = list) ∧
        list.program = p ∧
        (Node.tokensAll p.stmts).Sublist ((Scan.ofSource source).lexemes.map Lexeme.token) := by
  refine ⟨Program.exists_parse_iff complete, ?_⟩
  intro p
  rw [Program.parse_eq_ok_iff]
  constructor
  · rintro ⟨_, list, same, rfl⟩
    have only : ∀ other : Stmts, other.lexemes = (Scan.ofSource source).lexemes →
        other = list := by
      intro other same'
      exact Stmts.lexemes_injective (same'.trans same.symm)
    exact ⟨list, same, only, rfl, same ▸ list.tokens_sublist⟩
  · rintro ⟨list, same, _, rfl, _⟩
    exact ⟨complete, list, same, rfl⟩

/-- The source text of a program with a chain of operators and a group in parentheses. -/
def groupedSource : String := "print(1 - (2 + 3) - 4);"

/-- The program of `groupedSource`. -/
def Program.grouped : Program where
  stmts := [
    .print ⟨"print", 1, 0⟩
      (.binary ⟨"-", 1, 18⟩
        (.binary ⟨"-", 1, 8⟩ (.intLit ⟨"1", 1, 6⟩)
          (.binary ⟨"+", 1, 13⟩ (.intLit ⟨"2", 1, 11⟩) (.intLit ⟨"3", 1, 15⟩)))
        (.intLit ⟨"4", 1, 20⟩))]

theorem parse_groupedSource : Program.parse groupedSource = .ok .grouped := by
  cbv

theorem parse_builds_only_derivation_grouped :
    (Scan.ofSource groupedSource).illegal = none ∧
    Program.parse groupedSource = .ok .grouped ∧
    (Scan.ofSource groupedSource).lexemes.map Lexeme.kind ∈ grammar.language ∧
    ∃ list : Derivation.Stmts, list.lexemes = (Scan.ofSource groupedSource).lexemes ∧
      (∀ other : Derivation.Stmts, other.lexemes = (Scan.ofSource groupedSource).lexemes →
        other = list) ∧
      list.program = .grouped := by
  have complete : (Scan.ofSource groupedSource).illegal = none := by cbv
  obtain ⟨accepts, builds⟩ := parse_builds_only_derivation complete
  obtain ⟨list, same, only, program, _⟩ := (builds .grouped).mp parse_groupedSource
  exact ⟨complete, parse_groupedSource, accepts.mp ⟨_, parse_groupedSource⟩, list, same, only,
    program⟩

/-- A source text with an unexpected lexeme before an illegal character. -/
def untimelySource : String := "int = 1; @"

end BlockLang

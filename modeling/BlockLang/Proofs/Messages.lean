import BlockLang.Check
import Mathlib.Data.List.Basic

/-!
# Telling messages apart

A message about a program ends with a full stop. The character before it is a letter if the
message is about a name without a declaration, a digit if it is about a repeated declaration, and
a quote in all other cases. So the text of a diagnostic alone shows which of these it is about,
whatever the names in it are.
-/

namespace BlockLang

namespace Diagnostic

/-- The text says that a name has no declaration. -/
def IsUndeclared (d : Diagnostic) : Prop :=
  ∃ name, d.message = "Variable '" ++ name ++ "' has not been declared."

/-- The text says that a name is declared already, and on which line. -/
def IsRedeclared (d : Diagnostic) : Prop :=
  ∃ name line, d.message = "Variable '" ++ name ++
    "' was already declared in this scope at line " ++ Numeral.decimal line ++ "."

end Diagnostic

namespace Report

/-- Whether the report is about a name without a declaration. -/
def isUndeclared (r : Report) : Bool :=
  match r.problem with
  | .undeclared _ => true
  | _ => false

/-- Whether the report is about a repeated declaration. -/
def isRedeclared (r : Report) : Bool :=
  match r.problem with
  | .redeclared _ _ => true
  | _ => false

end Report

namespace Text

/-- The last character of a text but one. -/
def closing (text : String) : Option Char :=
  text.toList.dropLast.getLast?

theorem closing_append (text : String) {ending : String} {c : Char}
    (h : closing ending = some c) : closing (text ++ ending) = some c := by
  have inner : ending.toList.dropLast ≠ [] := by
    intro empty
    rw [closing, empty] at h
    cases h
  have outer : ending.toList ≠ [] := fun empty => inner (by rw [empty, List.dropLast_nil])
  rw [closing, String.toList_append, List.dropLast_append_of_ne_nil outer, List.getLast?_append,
    ← closing, h, Option.some_or]

theorem closing_stop (text : String) : closing (text ++ ".") = text.toList.getLast? := by
  simp [closing]

end Text

open Text (closing closing_append closing_stop)

/-- The decimal writing of an integer ends with a digit. -/
theorem Numeral.exists_getLast?_decimal (n : Int) :
    ∃ c, (decimal n).toList.getLast? = some c ∧ c.isDigit = true := by
  obtain ⟨c, last⟩ := Option.ne_none_iff_exists'.mp
    (mt List.getLast?_eq_none_iff.mp (Nat.toDigits_ne_nil (n := n.natAbs) (b := 10)))
  have isDigit : c.isDigit = true :=
    Nat.isDigit_of_mem_toDigits (by decide) (by decide) (List.mem_of_getLast? last)
  refine ⟨c, ?_, isDigit⟩
  unfold decimal
  split
  · simp [Nat.repr_eq_ofList_toDigits, List.getLast?_cons, last]
  · simp [Nat.repr_eq_ofList_toDigits, last]

theorem closing_redeclaredText (name : String) (line : Int) :
    ∃ c, closing (ScopeStack.DeclareError.redeclaredText name line) = some c ∧
      c.isDigit = true := by
  obtain ⟨c, last, isDigit⟩ := Numeral.exists_getLast?_decimal line
  refine ⟨c, ?_, isDigit⟩
  rw [ScopeStack.DeclareError.redeclaredText, closing_stop, String.toList_append,
    List.getLast?_append, last, Option.some_or]

theorem closing_undeclared (name : String) :
    closing (Problem.undeclared name).message = some 'd' :=
  closing_append _ (by decide)

/-- Messages about anything but missing and repeated declarations close with a quote. -/
theorem Problem.closing_message {p : Problem} (undeclared : ∀ name, p ≠ .undeclared name)
    (redeclared : ∀ name line, p ≠ .redeclared name line) : closing p.message = some '\'' := by
  cases p with
  | undeclared name => exact absurd rfl (undeclared name)
  | redeclared name line => exact absurd rfl (redeclared name line)
  | mismatch found expected => exact closing_append _ (by decide)
  | operands op left right => exact closing_append _ (by decide)
  | condition found => exact closing_append _ (by decide)

namespace Report

/-- A report is about a name without a declaration if and only if its text says so. -/
theorem isUndeclared_iff (r : Report) : r.isUndeclared = true ↔ r.diagnostic.IsUndeclared := by
  obtain ⟨problem, token⟩ := r
  constructor
  · intro kind
    cases problem with
    | undeclared name => exact ⟨name, rfl⟩
    | _ => cases kind
  · rintro ⟨name, same⟩
    have letter := (congrArg closing same).trans (closing_undeclared name)
    cases problem with
    | undeclared name => rfl
    | redeclared name line =>
        obtain ⟨c, digit, isDigit⟩ := closing_redeclaredText name line
        cases digit.symm.trans letter
        cases isDigit
    | _ => cases (Problem.closing_message (by simp) (by simp)).symm.trans letter

/-- A report is about a repeated declaration if and only if its text says so. -/
theorem isRedeclared_iff (r : Report) : r.isRedeclared = true ↔ r.diagnostic.IsRedeclared := by
  obtain ⟨problem, token⟩ := r
  constructor
  · intro kind
    cases problem with
    | redeclared name line => exact ⟨name, line, rfl⟩
    | _ => cases kind
  · rintro ⟨name, line, same⟩
    obtain ⟨c, digit, isDigit⟩ := closing_redeclaredText name line
    have letter := (congrArg closing same).trans digit
    cases problem with
    | redeclared name line => rfl
    | undeclared name =>
        cases (closing_undeclared name).symm.trans letter
        cases isDigit
    | _ =>
        cases (Problem.closing_message (by simp) (by simp)).symm.trans letter
        cases isDigit

end Report

end BlockLang

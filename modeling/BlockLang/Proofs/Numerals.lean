import BlockLang.Proofs.Layout
import BlockLang.Proofs.SourceFaults

/-!
# Writing and reading integers

An integer that is printed can be read back from the line it is printed on, and a number in a
source text is printed as its digits would be in ASCII, without leading zeros. Both directions
have a limit of their own: the digits of a number are counted with its leading zeros, and those
of a printed integer without its sign. A number that is within the first limit is always within
the second, and a printed integer is within the first if it is within the second.

What is read is the integer with these decimal digits, in the sense of `Nat.ofDigits`; what is
printed are the digits of `Nat.toDigits`.
-/

namespace BlockLang

open Lexeme (Kind)

open Text (isDecimalDigit digitValue?)

namespace Numeral

variable {c : Char} {d n : Nat} {digits : List Nat} {text : String}

/-- The ASCII digits of a text that is written with the digits of any scripts. -/
def asciiDigits (text : String) : List Char :=
  (text.toList.filterMap digitValue?).map Nat.digitChar

/-- The digits from the first one on that is not zero, and a zero if there is none. -/
def significant : List Char → List Char
  | [] => ['0']
  | '0' :: rest => significant rest
  | digits => digits

theorem digitValue?_digitChar (h : d < 10) : digitValue? (Nat.digitChar d) = some d := by
  have table : ∀ d < 10, digitValue? (Nat.digitChar d) = some d := by decide
  exact table d h

theorem lt_of_digitValue? (h : digitValue? c = some d) : d < 10 := by
  simp only [digitValue?, Option.map_eq_some_iff] at h
  obtain ⟨first, found, rfl⟩ := h
  have range := List.find?_some found
  simp only [Bool.and_eq_true, decide_eq_true_eq] at range
  omega

theorem lt_of_mem_digitValues {chars : List Char} (h : d ∈ chars.filterMap digitValue?) :
    d < 10 := by
  obtain ⟨c, _, valued⟩ := List.mem_filterMap.mp h
  exact lt_of_digitValue? valued

theorem filterMap_digitChar (small : ∀ d ∈ digits, d < 10) :
    (digits.map Nat.digitChar).filterMap digitValue? = digits := by
  rw [List.filterMap_map]
  have same : ∀ d ∈ digits, (digitValue? ∘ Nat.digitChar) d = some d :=
    fun d member => digitValue?_digitChar (small d member)
  rw [List.filterMap_congr same, List.filterMap_some]

theorem value_concat (digits : List Nat) (d : Nat) :
    value (digits ++ [d]) = 10 * value digits + d := by
  simp [value]

theorem value_zero_cons (digits : List Nat) : value (0 :: digits) = value digits := rfl

/-- The first digit counts most. -/
theorem value_eq_ofDigits (digits : List Nat) : value digits = Nat.ofDigits 10 digits.reverse := by
  induction digits using List.reverseRecOn with
  | nil => rfl
  | append_singleton digits d ih =>
      rw [value_concat, List.reverse_concat, Nat.ofDigits_cons, ih]
      omega

/-- The digits of an integer denote it. -/
theorem exists_digits (n : Nat) :
    ∃ digits : List Nat, (∀ d ∈ digits, d < 10) ∧ value digits = n ∧
      Nat.toDigits 10 n = digits.map Nat.digitChar := by
  induction n using Nat.strong_induction_on with
  | h n ih =>
      rw [Nat.toDigits_eq_if (by decide)]
      split
      · exact ⟨[n], by simpa, by simp [value], rfl⟩
      · obtain ⟨digits, small, valued, written⟩ := ih (n / 10) (by omega)
        have last : n % 10 < 10 := Nat.mod_lt n (by decide)
        refine ⟨digits ++ [n % 10], ?_, ?_, by simp [written]⟩
        · simpa [or_imp, forall_and, last] using small
        · rw [value_concat, valued]
          omega

/-- The digits of a number are those it is written with, if the first of them is not zero. -/
theorem toDigits_value_of_ne_zero (small : ∀ x ∈ d :: digits, x < 10) (first : d ≠ 0) :
    0 < value (d :: digits) ∧
      Nat.toDigits 10 (value (d :: digits)) = (d :: digits).map Nat.digitChar := by
  induction digits using List.reverseRecOn with
  | nil =>
      have single : value [d] = d := by simp [value]
      rw [single]
      exact ⟨Nat.pos_of_ne_zero first, Nat.toDigits_of_lt_base (small d (.head _))⟩
  | append_singleton digits last ih =>
      rw [← List.cons_append] at small ⊢
      obtain ⟨positive, written⟩ := ih fun x member => small x (List.mem_append_left _ member)
      have bound : last < 10 := small last (by simp)
      rw [value_concat, ← Nat.toDigits_append_toDigits (by decide) positive bound, written,
        Nat.toDigits_of_lt_base bound]
      exact ⟨by omega, by simp⟩

/-- The digits of a number are those it is written with, without leading zeros. -/
theorem toDigits_value (small : ∀ d ∈ digits, d < 10) :
    Nat.toDigits 10 (value digits) = significant (digits.map Nat.digitChar) := by
  induction digits with
  | nil => rfl
  | cons d rest ih =>
      by_cases first : d = 0
      · subst first
        rw [value_zero_cons, ih fun x member => small x (.tail _ member)]
        rfl
      · rw [(toDigits_value_of_ne_zero small first).2, List.map_cons, significant]
        · nofun
        · intro _ zero
          exact first (Nat.digitChar_eq_zero.mp (List.cons.inj zero).1)

theorem IsDigits.value_lt (h : IsDigits text) :
    value (text.toList.filterMap digitValue?) < 10 ^ text.length := by
  rw [value_eq_ofDigits, ← h.length_digitValues, ← List.length_reverse]
  apply Nat.ofDigits_lt_base_pow_length (by decide)
  intro d member
  exact lt_of_mem_digitValues (List.mem_reverse.mp member)

/-- A number is written as its digits would be in ASCII, without leading zeros. -/
theorem decimal_value (text : String) :
    decimal (value (text.toList.filterMap digitValue?)) =
      String.ofList (significant (asciiDigits text)) := by
  rw [decimal, if_neg (by omega), Int.natAbs_natCast, Nat.repr_eq_ofList_toDigits,
    toDigits_value fun d => lt_of_mem_digitValues]
  rfl

theorem toList_repr (n : Nat) : (Nat.repr n).toList = Nat.toDigits 10 n := by
  rw [Nat.repr_eq_ofList_toDigits, String.toList_ofList]

theorem isDigits_repr (n : Nat) : IsDigits (Nat.repr n) := by
  obtain ⟨digits, small, _, written⟩ := exists_digits n
  refine ⟨?_, ?_⟩
  · rw [toList_repr]
    exact Nat.toDigits_ne_nil
  · intro c member
    rw [toList_repr, written] at member
    obtain ⟨d, isDigit, rfl⟩ := List.mem_map.mp member
    rw [isDecimalDigit, digitValue?_digitChar (small d isDigit)]
    rfl

theorem value_repr (n : Nat) : value ((Nat.repr n).toList.filterMap digitValue?) = n := by
  obtain ⟨digits, small, valued, written⟩ := exists_digits n
  rw [toList_repr, written, filterMap_digitChar small, valued]

theorem length_repr_le_iff {n : Nat} : (Nat.repr n).length ≤ digitLimit ↔ n < 10 ^ digitLimit :=
  Nat.length_repr_le_iff (by decide)

/-- An integer is written if it has few enough digits. -/
theorem write?_eq (v : Int) :
    write? v = if v.natAbs < 10 ^ digitLimit then some (decimal v) else none := by
  unfold write?
  by_cases short : v.natAbs < 10 ^ digitLimit
  · rw [if_pos short, if_neg (not_lt.mpr (length_repr_le_iff.mpr short))]
  · rw [if_neg short, if_pos (not_le.mp fun few => short (length_repr_le_iff.mp few))]

/-- What is written is read back. -/
theorem read_decimal {v : Int} (short : v.natAbs < 10 ^ digitLimit) : read (decimal v) = .ok v := by
  have count := length_repr_le_iff.mpr short
  have digits := isDigits_repr v.natAbs
  by_cases negative : v < 0
  · have sign : splitSign (("-" ++ Nat.repr v.natAbs).toList.dropWhile Text.isNumeralBlank) =
        (true, (Nat.repr v.natAbs).toList) := by
      rw [String.toList_append]
      rfl
    rw [decimal, if_pos negative, digits.read_of_splitSign sign, if_neg (by omega), value_repr]
    congr 1
    rw [if_pos rfl]
    omega
  · rw [decimal, if_neg negative, digits.read_eq, if_neg (by omega), value_repr]
    congr 1
    omega

end Numeral

open Numeral (digitLimit)

namespace Exec

/-- What a statement that prints does once its value is known. -/
theorem statement_print_of_evaluate {word : Token} {node : Node} {e : Executor} {v : Int}
    (evaluated : evaluate e.scopes node = .ok v) :
    statement (.print word node) e =
      if v.natAbs < 10 ^ digitLimit then .ok () (e.printLine (Numeral.decimal v))
      else .error .longValue e := by
  simp only [statement]
  rw [Step.bind_of_ok (valueOf_eq_ok_iff.mpr ⟨evaluated, rfl⟩), print, Numeral.write?_eq]
  by_cases short : v.natAbs < 10 ^ digitLimit
  · rw [if_pos short, if_pos short]
    rfl
  · rw [if_neg short, if_neg short]
    rfl

end Exec

/-- The texts of numbers in source texts are the runs of digits. -/
theorem Scan.exists_number_iff {text : String} :
    (∃ source, ∃ l ∈ (ofSource source).lexemes, l.kind = .number ∧ l.token.text = text) ↔
      Numeral.IsDigits text := by
  constructor
  · rintro ⟨source, l, member, isNumber, rfl⟩
    exact isDigits_of_mem member isNumber
  · intro digits
    have form : Piece.Form [] ⟨some .number, text.toList⟩ :=
      .number digits.nonempty ⟨digits.all, nofun⟩
    have words := words_ofSource text
    have read := Piece.reading_append form
    rw [List.append_nil] at read
    rw [read] at words
    have member : (⟨.number, text, 0, 0⟩ : Lexeme) ∈
        (ofSource text).lexemes.map (Lexeme.mapToken Token.withoutPlace) := by
      rw [words]
      simp [Piece.word?]
    obtain ⟨l, found, same⟩ := List.mem_map.mp member
    refine ⟨text, l, found, ?_, ?_⟩
    · exact congrArg Lexeme.kind same
    · exact congrArg (fun l => l.token.text) same

namespace Fault

theorem limitText_eq :
    limitText = "Exceeds the limit (4300 digits) for integer string conversion" := by
  decide +kernel

theorem message_longNumeral (digits : Nat) :
    (longNumeral digits).message =
      "Exceeds the limit (4300 digits) for integer string conversion" ++ ": value has " ++
        Nat.repr digits ++ " digits" ++
          "; use sys.set_int_max_str_digits() to increase the limit" := by
  rw [← limitText_eq]
  rfl

theorem message_longValue :
    longValue.message = "Exceeds the limit (4300 digits) for integer string conversion" ++
      "; use sys.set_int_max_str_digits() to increase the limit" := by
  rw [← limitText_eq]
  rfl

end Fault

open Numeral (asciiDigits significant)

/-- An expression with a negative value. -/
def Node.negative : Node :=
  .binary ⟨"-", 1, 2⟩ (.intLit ⟨"0", 1, 0⟩) (.intLit ⟨"70", 1, 4⟩)

/-- A state of execution in which `x` has a given value. -/
def Executor.holding (v : Int) : Executor :=
  ⟨⟨[⟨[⟨"x", .int, ⟨"x", 1, 4⟩, some v⟩]⟩]⟩, #[], ""⟩

/-- A number in digits of two scripts, with leading zeros. -/
def mixedNumber : String := "\u0660\u0660\u06672"

/-- A number with one digit more than is read. -/
def longNumber : String := String.ofList (List.replicate (digitLimit + 1) '7')

end BlockLang

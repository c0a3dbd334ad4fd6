import BlockLang.Proofs.Numerals
import BlockLang.Proofs.Stages

/-!
# Arithmetic from text to text

A statement that prints an expression of numbers, operators and parentheses is run from its
source text to the printed line. What the expression means is said on the text alone:
`Denotes` cuts it at its last operator outside parentheses, so that operators associate to the
left and have one level of precedence, and gives the integer that it denotes. Any layout may
stand between the tokens.

The run agrees with this meaning: the text is read as the lexemes of a derivation, apart from
places, the tree of the derivation has the integer as its value in all scopes and raises no
objection, and the integer is printed in decimal if it is within the limit.
-/

namespace BlockLang

open Lexeme (Kind)

open Numeral (digitLimit)

open Text (isDecimalDigit digitValue?)

open BlockLang.Derivation

namespace Arithmetic

/-- The sorts of phrases of an arithmetic expression. -/
inductive Phrase
  /-- A number, or an expression between parentheses. -/
  | operand
  /-- Operands with operators between them. -/
  | chain
deriving DecidableEq, Repr

/-- The text is a phrase that denotes the integer. -/
inductive Denotes : Phrase → List Char → Int → Prop
  /-- Digits of any scripts, not more than are read, denote the number with these digits. -/
  | number {digits : List Char} (nonempty : digits ≠ [])
      (all : ∀ c ∈ digits, isDecimalDigit c = true) (short : digits.length ≤ digitLimit) :
      Denotes .operand digits (Nat.ofDigits 10 (digits.filterMap digitValue?).reverse : Nat)
  /-- Parentheses around an expression do not change what it denotes. -/
  | group {before inner after : List Char} {v : Int} (opened : IsLayout before)
      (denotes : Denotes .chain inner v) (closed : IsLayout after) :
      Denotes .operand ('(' :: (before ++ (inner ++ (after ++ [')'])))) v
  /-- An operand alone is an expression. -/
  | single {text : List Char} {v : Int} (denotes : Denotes .operand text v) :
      Denotes .chain text v
  /-- What stands before the last plus is added to the operand after it. -/
  | plus {left before after right : List Char} {v w : Int} (first : Denotes .chain left v)
      (gap : IsLayout before) (gap' : IsLayout after) (last : Denotes .operand right w) :
      Denotes .chain (left ++ (before ++ '+' :: (after ++ right))) (v + w)
  /-- The operand after the last minus is taken from what stands before it. -/
  | minus {left before after right : List Char} {v w : Int} (first : Denotes .chain left v)
      (gap : IsLayout before) (gap' : IsLayout after) (last : Denotes .operand right w) :
      Denotes .chain (left ++ (before ++ '-' :: (after ++ right))) (v - w)

/-- The text is a statement that prints an expression which denotes the integer, with any layout
between its tokens and around it. -/
inductive Prints : List Char → Int → Prop
  | intro {start afterWord afterLeft expr beforeRight afterRight stop : List Char} {v : Int}
      (layout : ∀ gap ∈ [start, afterWord, afterLeft, beforeRight, afterRight, stop],
        IsLayout gap)
      (denotes : Denotes .chain expr v) :
      Prints (start ++ ("print".toList ++ (afterWord ++ '(' :: (afterLeft ++ (expr ++
        (beforeRight ++ ')' :: (afterRight ++ ';' :: stop))))))) v

/-- The tree is made of numbers and operators, and has the integer as its value. -/
inductive Constant : Node → Int → Prop
  | number {literal : Token} (digits : Numeral.IsDigits literal.text)
      (short : literal.text.length ≤ digitLimit) :
      Constant (.intLit literal)
        (Nat.ofDigits 10 (literal.text.toList.filterMap digitValue?).reverse : Nat)
  | binary {op : Token} {left right : Node} {v w : Int} (first : Constant left v)
      (second : Constant right w) : Constant (.binary op left right) (applyOperator op.text v w)

namespace Constant

variable {node : Node} {v : Int}

theorem evaluate_eq (h : Constant node v) (scopes : ScopeStack) : evaluate scopes node = .ok v := by
  induction h with
  | number digits short =>
      rw [evaluate, digits.literalValue_eq, if_neg (not_lt.mpr short), Numeral.value_eq_ofDigits]
  | binary _ _ first_ih second_ih =>
      rw [evaluate, first_ih, second_ih]
      rfl

/-- Checking has no objection. -/
theorem typeOf_eq (h : Constant node v) (c : Checker) : Check.typeOf node c = .ok .int c := by
  induction h with
  | number => rfl
  | binary _ _ first_ih second_ih =>
      rw [Check.typeOf, Step.bind_of_ok first_ih, Step.bind_of_ok second_ih]
      rfl

/-- Only the texts of the tokens matter. -/
theorem of_withoutPlaces (h : Constant (node.mapTokens Token.withoutPlace Token.withoutPlace) v) :
    Constant node v := by
  generalize same : node.mapTokens Token.withoutPlace Token.withoutPlace = image at h
  induction h generalizing node with
  | number digits short =>
      cases node with
      | intLit literal =>
          simp only [Node.mapTokens, Node.intLit.injEq] at same
          subst same
          exact .number digits short
      | _ => simp [Node.mapTokens] at same
  | binary _ _ first_ih second_ih =>
      cases node with
      | binary op left right =>
          simp only [Node.mapTokens, Node.binary.injEq] at same
          obtain ⟨rfl, isLeft, isRight⟩ := same
          exact .binary (first_ih isLeft) (second_ih isRight)
      | _ => simp [Node.mapTokens] at same

end Constant

/-- The lexemes have a derivation as a phrase of the sort, with the given tree. -/
def Phrase.Derives : Phrase → List Lexeme → Node → Prop
  | .operand, lexemes, node => ∃ atom : Atom, atom.lexemes = lexemes ∧ atom.node = node
  | .chain, lexemes, node => ∃ expr : Expr, expr.lexemes = lexemes ∧ expr.node = node

end Arithmetic

namespace Piece

theorem reading_nil : reading [] = ([], []) := by
  rw [reading, split, splitFrom]
  rfl

theorem reading_punctuation {c : Char} {kind : Kind} (known : (c, kind) ∈ Kind.punctuation)
    (rest : List Char) :
    reading (c :: rest) =
      (⟨kind, String.ofList [c], 0, 0⟩ :: (reading rest).1, (reading rest).2) :=
  reading_append (.punctuation known)

/-- The text is read as the lexemes, unless digits come after it. -/
def Reads (text : List Char) (lexemes : List Lexeme) : Prop :=
  ∀ rest, IsRun isDecimalDigit [] rest →
    reading (text ++ rest) = (lexemes ++ (reading rest).1, (reading rest).2)

namespace Reads

variable {text left right gap gap' : List Char} {lexemes lexemes' : List Lexeme} {c : Char}
  {kind : Kind}

theorem number {digits : List Char} (nonempty : digits ≠ [])
    (all : ∀ c ∈ digits, isDecimalDigit c = true) :
    Reads digits [⟨.number, String.ofList digits, 0, 0⟩] := by
  intro rest stops
  exact reading_append (.number nonempty ⟨all, stops.maximal⟩)

/-- A punctuation character ends what is read before it, also after layout. -/
theorem before_punctuation (h : Reads text lexemes) (layout : IsLayout gap)
    (known : (c, kind) ∈ Kind.punctuation) (rest : List Char) :
    reading (text ++ (gap ++ c :: rest)) =
      (lexemes ++ ⟨kind, String.ofList [c], 0, 0⟩ :: (reading rest).1, (reading rest).2) := by
  have table : ∀ entry ∈ Kind.punctuation, isDecimalDigit entry.1 = false := by decide
  have stops : IsRun isDecimalDigit [] (c :: rest) := by
    refine ⟨by simp, ?_⟩
    rintro _ ⟨⟩
    exact table _ known
  rw [h _ (stops.before_layout layout (by decide)), layout.reading_append,
    reading_punctuation known]

theorem group (h : Reads text lexemes) (opened : IsLayout gap) (closed : IsLayout gap') :
    Reads ('(' :: (gap ++ (text ++ (gap' ++ [')']))))
      (⟨.leftParen, "(", 0, 0⟩ :: (lexemes ++ [⟨.rightParen, ")", 0, 0⟩])) := by
  intro rest _
  have regroup : '(' :: (gap ++ (text ++ (gap' ++ [')']))) ++ rest =
      '(' :: (gap ++ (text ++ (gap' ++ ')' :: rest))) := by simp
  have left : ('(', Kind.leftParen) ∈ Kind.punctuation := by decide
  have right : (')', Kind.rightParen) ∈ Kind.punctuation := by decide
  rw [regroup, reading_punctuation left, opened.reading_append, h.before_punctuation closed right]
  simp

theorem binary (first : Reads left lexemes) (before : IsLayout gap) (after : IsLayout gap')
    (known : (c, kind) ∈ Kind.punctuation) (last : Reads right lexemes') :
    Reads (left ++ (gap ++ c :: (gap' ++ right)))
      (lexemes ++ ⟨kind, String.ofList [c], 0, 0⟩ :: lexemes') := by
  intro rest stops
  have regroup : left ++ (gap ++ c :: (gap' ++ right)) ++ rest =
      left ++ (gap ++ c :: (gap' ++ (right ++ rest))) := by simp
  rw [regroup, first.before_punctuation before known, after.reading_append, last rest stops]
  simp

end Reads

end Piece

namespace Arithmetic

variable {phrase : Phrase} {text code : List Char} {v w : Int}

/-- A phrase is read as the lexemes of a derivation whose tree has the value that the phrase
denotes. -/
theorem Denotes.exists_derivation (h : Denotes phrase text v) :
    ∃ lexemes node, phrase.Derives lexemes node ∧ Piece.Reads text lexemes ∧ Constant node v := by
  induction h with
  | @number digits nonempty all short =>
      have isDigits : Numeral.IsDigits (String.ofList digits) := by
        refine ⟨?_, ?_⟩ <;> rwa [String.toList_ofList]
      refine ⟨_, _, ⟨.number (.of ⟨.number, String.ofList digits, 0, 0⟩ rfl), rfl, rfl⟩,
        .number nonempty all, ?_⟩
      have constant : Constant (.intLit ⟨String.ofList digits, 0, 0⟩) _ :=
        .number isDigits (by simpa using short)
      rwa [String.toList_ofList] at constant
  | group opened _ closed ih =>
      obtain ⟨_, _, ⟨expr, rfl, rfl⟩, reads, constant⟩ := ih
      refine ⟨_, _, ⟨.paren (.of ⟨.leftParen, "(", 0, 0⟩ rfl) expr
        (.of ⟨.rightParen, ")", 0, 0⟩ rfl), rfl, rfl⟩, ?_, constant⟩
      exact reads.group opened closed
  | single _ ih =>
      obtain ⟨_, _, ⟨atom, rfl, rfl⟩, reads, constant⟩ := ih
      exact ⟨_, _, ⟨.atom atom, rfl, rfl⟩, reads, constant⟩
  | plus _ gap gap' _ first_ih last_ih =>
      obtain ⟨_, _, ⟨expr, rfl, rfl⟩, readsFirst, constantFirst⟩ := first_ih
      obtain ⟨_, _, ⟨atom, rfl, rfl⟩, readsLast, constantLast⟩ := last_ih
      refine ⟨_, _, ⟨.binary expr ⟨⟨.plus, "+", 0, 0⟩, by decide⟩ atom, rfl, rfl⟩,
        readsFirst.binary gap gap' (by decide) readsLast, .binary constantFirst constantLast⟩
  | minus _ gap gap' _ first_ih last_ih =>
      obtain ⟨_, _, ⟨expr, rfl, rfl⟩, readsFirst, constantFirst⟩ := first_ih
      obtain ⟨_, _, ⟨atom, rfl, rfl⟩, readsLast, constantLast⟩ := last_ih
      refine ⟨_, _, ⟨.binary expr ⟨⟨.minus, "-", 0, 0⟩, by decide⟩ atom, rfl, rfl⟩,
        readsFirst.binary gap gap' (by decide) readsLast, .binary constantFirst constantLast⟩

/-- A statement that prints is read as the lexemes of the derivation of a program with that
statement only. -/
theorem Prints.exists_list (h : Prints code v) :
    ∃ (list : Stmts) (node : Node), Piece.reading code = (list.lexemes, []) ∧
      list.program = ⟨[.print ⟨"print", 0, 0⟩ node]⟩ ∧ Constant node v := by
  obtain ⟨layout, denotes⟩ := h
  simp only [List.forall_mem_cons] at layout
  obtain ⟨start, afterWord, afterLeft, beforeRight, afterRight, stop, _⟩ := layout
  obtain ⟨_, _, ⟨expr, rfl, rfl⟩, reads, constant⟩ := denotes.exists_derivation
  refine ⟨.snoc .empty (.simple (.print (.of ⟨.printWord, "print", 0, 0⟩ rfl)
    (.of ⟨.leftParen, String.ofList ['('], 0, 0⟩ rfl) expr
    (.of ⟨.rightParen, String.ofList [')'], 0, 0⟩ rfl))
    (.of ⟨.semicolon, String.ofList [';'], 0, 0⟩ rfl)), expr.node, ?_, rfl, constant⟩
  have left : ('(', Kind.leftParen) ∈ Kind.punctuation := by decide
  have right : (')', Kind.rightParen) ∈ Kind.punctuation := by decide
  have semicolon : (';', Kind.semicolon) ∈ Kind.punctuation := by decide
  have isRun (rest : List Char) : IsRun Text.isWordChar ['r', 'i', 'n', 't'] ('(' :: rest) := by
    refine ⟨List.all_eq_true.mp (by decide), ?_⟩
    rintro _ ⟨⟩
    decide
  have word (rest : List Char) :
      Piece.Form (_ ++ '(' :: rest) ⟨some .printWord, "print".toList⟩ :=
    .word (.inl rfl) ((isRun rest).before_layout afterWord (by decide)) (.inl (by decide))
  have ended := stop.reading_append []
  rw [List.append_nil, Piece.reading_nil] at ended
  rw [start.reading_append, Piece.reading_append (word _), afterWord.reading_append,
    Piece.reading_punctuation left, afterLeft.reading_append,
    reads.before_punctuation beforeRight right, afterRight.reading_append,
    Piece.reading_punctuation semicolon, ended]
  simp [Stmts.lexemes, Stmt.lexemes, Simple.lexemes, Piece.word?]

/-- A text that prints is read as a program with one statement only, whose expression has the
value that is to be printed. -/
theorem Prints.exists_parse {source : String} (h : Prints source.toList v) :
    ∃ word node, Program.parse source = .ok ⟨[.print word node]⟩ ∧ Constant node v := by
  obtain ⟨list, image, read, program, constant⟩ := h.exists_list
  obtain ⟨⟨stmts⟩, parsed, same⟩ := Program.exists_parse_of_words read
  simp only [program, Program.withoutPlaces, Program.mapTokens, Node.mapTokensAll_eq_map,
    Program.mk.injEq, List.map_eq_singleton_iff] at same
  obtain ⟨stmt, rfl, shown⟩ := same
  cases stmt with
  | print word node =>
      simp only [Node.mapTokens, Node.print.injEq] at shown
      obtain ⟨_, rfl⟩ := shown
      exact ⟨word, node, parsed, constant.of_withoutPlaces⟩
  | _ => simp [Node.mapTokens] at shown

theorem Constant.check_eq {word : Token} {node : Node} (h : Constant node v) :
    Check.program ⟨[.print word node]⟩ .initial = .ok () .initial := by
  simp only [Check.program, Check.statements, Check.statement]
  rw [bind_assoc, Step.bind_of_ok (h.typeOf_eq _)]
  rfl

theorem Constant.exec_eq {word : Token} {node : Node} (h : Constant node v) :
    Exec.program ⟨[.print word node]⟩ .initial =
      if v.natAbs < 10 ^ digitLimit then .ok () (Executor.initial.printLine (Numeral.decimal v))
      else .error .longValue .initial := by
  have printed : Exec.statement (.print word node) .initial = _ :=
    Exec.statement_print_of_evaluate (h.evaluate_eq _)
  simp only [Exec.program, Exec.statements, bind_pure_unit]
  exact printed

end Arithmetic

/-- The console after a text was printed on it. -/
def Console.printed (sink : Sink) (text : String) (console : Console) : Console :=
  match sink with
  | .stdout => { console with stdout := console.stdout ++ text }
  | .stream => { console with stream := console.stream ++ text }

theorem Console.printed_empty (sink : Sink) (console : Console) :
    console.printed sink "" = console := by
  cases sink <;> simp [printed]

namespace Run

variable {sink : Sink} {console : Console} {p : Program} {e : Executor}

theorem writePrinted_eq (text : String) :
    writePrinted sink text console = .ok () (console.printed sink text) := by
  cases sink <;> rfl

theorem execute_of_ok (ran : Exec.program p .initial = .ok () e) :
    execute sink p console =
      .ok ⟨[], e.output.toList, true⟩ (console.printed sink e.stream) := by
  simp only [execute, ran]
  rw [Step.bind_of_ok (writePrinted_eq _)]
  rfl

theorem execute_of_error {f : Fault} (ran : Exec.program p .initial = .error f e) :
    execute sink p console = .error (.fault f) (console.printed sink e.stream) := by
  simp only [execute, ran]
  rw [Step.bind_of_ok (writePrinted_eq _)]
  rfl

end Run

open Arithmetic (Prints)

/-- Arithmetic is exact. Let a source text print an expression of numbers, operators and
parentheses, with any layout between its tokens. There is only one integer that it denotes. A
run of the text prints this integer in decimal on one line and nothing else if it has few enough
digits, and otherwise fails because of the limit without having printed anything. It is the same
when the source is given as a text that could name a file, unless it does. -/
theorem arithmetic_is_exact {source : String} {v : Int} (prints : Prints source.toList v) :
    (∀ w, Prints source.toList w → w = v) ∧
    (∀ (settings : Settings) (console : Console),
      let accepted : Console := { console with
        stdout := console.stdout ++ (if settings.echo then Run.echoText source else "") ++
          Run.acceptedText }
      Run.text settings source console =
        if v.natAbs < 10 ^ digitLimit then
          .ok ⟨[], [Numeral.decimal v], true⟩
            (accepted.printed settings.sink (Numeral.decimal v ++ "\n"))
        else .error (.fault .longValue) accepted) ∧
    (∀ (files : Files) (settings : Settings),
      (∀ bytes, files.find source ≠ .ok (.file bytes)) →
        Run.source files settings (.text source) = Run.text settings source) ∧
    Fault.longValue.label = "ValueError" ∧
    Fault.longValue.message = "Exceeds the limit (4300 digits) for integer string conversion" ++
      "; use sys.set_int_max_str_digits() to increase the limit" := by
  obtain ⟨word, node, parsed, constant⟩ := prints.exists_parse
  refine ⟨?_, ?_, fun _ _ => Run.source_text, rfl, Fault.message_longValue⟩
  · intro w prints'
    obtain ⟨word', node', parsed', constant'⟩ := prints'.exists_parse
    cases parsed.symm.trans parsed'
    exact Except.ok.inj ((constant'.evaluate_eq .initial).symm.trans (constant.evaluate_eq _))
  · rintro ⟨echo, sink⟩ console accepted
    rw [Run.text_of_parse parsed, Run.checkAndExecute_of_clean constant.check_eq rfl]
    have ran : Exec.program ⟨[.print word node]⟩ .initial = _ := constant.exec_eq
    split
    · next short =>
        rw [if_pos short] at ran
        rw [Run.execute_of_ok ran]
        rfl
    · next long =>
        rw [if_neg long] at ran
        rw [Run.execute_of_error ran]
        exact congrArg _ (Console.printed_empty _ _)

/-- A statement with operators of one level, parentheses and a comment. -/
def chainSource : String := "print(1 - (2 +3)//a\n-1);"

/-- A statement whose value has one digit more than its numbers. -/
def carrySource : String :=
  "print(" ++ String.ofList (List.replicate digitLimit '9') ++ "+1);"

namespace Arithmetic

theorem Denotes.digit {c : Char} {n : Nat} (value : digitValue? c = some n) :
    Denotes .operand [c] n := by
  have denotes : Denotes .operand [c] _ :=
    .number (by simp) (by simp [isDecimalDigit, value]) (by simp [digitLimit])
  simpa [value] using denotes

theorem ofDigits_nines (n : Nat) :
    ((Nat.ofDigits 10 (List.replicate n 9) : Nat) : Int) = 10 ^ n - 1 := by
  induction n with
  | zero => rfl
  | succ n ih =>
      rw [List.replicate_succ, Nat.ofDigits_cons, Nat.cast_add, Nat.cast_mul, ih]
      push_cast
      ring

theorem Denotes.nines {n : Nat} (positive : n ≠ 0) (short : n ≤ digitLimit) :
    Denotes .operand (List.replicate n '9') (10 ^ n - 1) := by
  have isDigit : ∀ c ∈ List.replicate n '9', isDecimalDigit c = true := by
    intro c member
    rw [List.eq_of_mem_replicate member]
    decide
  have denotes : Denotes .operand (List.replicate n '9') _ :=
    .number (by simpa using positive) isDigit (by simpa using short)
  have values : (List.replicate n '9').filterMap digitValue? = List.replicate n 9 :=
    List.filterMap_replicate_of_some (by decide)
  rwa [values, List.reverse_replicate, ofDigits_nines] at denotes

theorem Prints.compact (h : Denotes .chain text v) :
    Prints ("print(".toList ++ (text ++ ");".toList)) v :=
  have none : IsLayout [] := .nil
  .intro (by simp [none] : ∀ gap ∈ [[], [], [], [], [], []], IsLayout gap) h

theorem prints_chainSource : Prints chainSource.toList (-5) := by
  have space : IsLayout [' '] := .blank (by decide) .nil
  have comment : IsLayout ('/' :: '/' :: (['a'] ++ ['\n'])) := .lineComment (by decide) .nil
  have one : Denotes .operand ['1'] 1 := .digit (by decide)
  have sum : Denotes .chain "2 +3".toList 5 :=
    .plus (.single (.digit (by decide : digitValue? '2' = some 2))) space .nil
      (.digit (by decide : digitValue? '3' = some 3))
  have difference : Denotes .chain "1 - (2 +3)".toList (1 - 5) :=
    .minus (.single one) space space (.group .nil sum .nil)
  exact .compact (.minus difference comment .nil one)

theorem prints_carrySource : Prints carrySource.toList (10 ^ digitLimit) := by
  have one : Denotes .operand ['1'] 1 := .digit (by decide)
  have nines : Denotes .operand (List.replicate digitLimit '9') _ := .nines (by decide) le_rfl
  have prints := Prints.compact (.plus (.single nines) .nil .nil one)
  simpa [carrySource] using prints

end Arithmetic

theorem arithmetic_is_exact_chain :
    Run.source .none ⟨false, .stream⟩ (.text chainSource) .empty =
      .ok ⟨[], ["-5"], true⟩ ⟨Run.acceptedText, "", "-5\n"⟩ ∧
    Run.source .none ⟨false, .stdout⟩ (.text carrySource) .empty =
      .error (.fault .longValue) ⟨Run.acceptedText, "", ""⟩ := by
  obtain ⟨_, ran, asText, _⟩ := arithmetic_is_exact Arithmetic.prints_chainSource
  obtain ⟨_, failed, asText', _⟩ := arithmetic_is_exact Arithmetic.prints_carrySource
  refine ⟨?_, ?_⟩
  · have few : (-5 : Int).natAbs < 10 ^ digitLimit :=
      lt_of_lt_of_le (by decide : 5 < 10 ^ 1) (Nat.pow_le_pow_right (by decide) (by decide))
    rw [asText .none _ nofun, ran, if_pos few]
    rfl
  · have many : ¬ (10 ^ digitLimit : Int).natAbs < 10 ^ digitLimit := by
      simp [Int.natAbs_pow]
    rw [asText' .none _ nofun, failed, if_neg many]
    rfl

end BlockLang

import BlockLang.Proofs.Completion
import BlockLang.Proofs.Progress
import BlockLang.Proofs.Tiling

/-!
# Faults of programs from source texts

Programs that are read from source texts are executed without being checked here, so that any
of their variables may be missing. Nothing else can be missing. Every node is of the sort that
its place requires, every type word denotes a type, and every integer literal is a run of
digits, of any scripts, which is read as an integer unless it is too long. At every place at
least the outermost scope is open, since each statement closes the scopes that it opens, and
all variables in the open scopes have values. What is left is listed by `SourceFault`.
-/

namespace BlockLang

open Lexeme (Kind)

open Text (isDecimalDigit digitValue?)

namespace Numeral

/-- The text is a run of digits, of any scripts. -/
structure IsDigits (text : String) : Prop where
  nonempty : text.toList ≠ []
  all : ∀ c ∈ text.toList, isDecimalDigit c = true

theorem isGrouped_of_digits {chars : List Char} (nonempty : chars ≠ [])
    (digits : ∀ c ∈ chars, isDecimalDigit c = true) : isGrouped chars = true := by
  have underscore : ∀ c ∈ chars, c ≠ '_' := by
    rintro c member rfl
    exact absurd (digits _ member) (by decide)
  clear digits
  fun_induction isGrouped chars with
  | case1 => exact absurd rfl nonempty
  | case2 c => simpa using underscore
  | case3 c d rest _ ih =>
      obtain ⟨first, others⟩ := List.forall_mem_cons.mp underscore
      have second := (List.forall_mem_cons.mp others).1
      simp [first, second, ih (List.cons_ne_nil _ _) others]

theorem IsDigits.length_digitValues {text : String} (h : IsDigits text) :
    (text.toList.filterMap digitValue?).length = text.length := by
  rw [List.length_filterMap_eq_countP, ← String.length_toList]
  exact List.countP_eq_length.mpr h.all

/-- A run of digits of any scripts after an optional sign is read as an integer, unless it is
too long. -/
theorem IsDigits.read_of_splitSign {digits text : String} {negative : Bool} (h : IsDigits digits)
    (sign : splitSign (text.toList.dropWhile Text.isNumeralBlank) = (negative, digits.toList)) :
    read text = if digitLimit < digits.length then .error (.tooLong digits.length)
      else .ok (if negative then -(value (digits.toList.filterMap digitValue?) : Int)
        else value (digits.toList.filterMap digitValue?)) := by
  have part : ∀ c ∈ digits.toList, isDigitPart c = true := by
    intro c member
    simp [isDigitPart, h.all c member]
  simp only [read, sign, List.takeWhile_eq_self_iff.mpr part, List.dropWhile_eq_nil_iff.mpr part,
    isGrouped_of_digits h.nonempty h.all, h.length_digitValues]
  simp

/-- A run of digits of any scripts is read as an integer, unless it is too long. -/
theorem IsDigits.read_eq {text : String} (h : IsDigits text) :
    read text = if digitLimit < text.length then .error (.tooLong text.length)
      else .ok (value (text.toList.filterMap digitValue?)) := by
  obtain ⟨first, rest, chars⟩ := List.exists_cons_of_ne_nil h.nonempty
  have isDigit := h.all first (by simp [chars])
  have unblank : text.toList.dropWhile Text.isNumeralBlank = text.toList := by
    simp [chars, Text.isNumeralBlank, Piece.not_isBlank_of_isDecimalDigit isDigit]
  have unsigned : splitSign text.toList = (false, text.toList) := by
    have plus : first ≠ '+' := by
      rintro rfl
      exact absurd isDigit (by decide)
    have minus : first ≠ '-' := by
      rintro rfl
      exact absurd isDigit (by decide)
    rw [chars, splitSign]
    · rintro _ ⟨⟩
      exact plus rfl
    · rintro _ ⟨⟩
      exact minus rfl
  exact h.read_of_splitSign (by rw [unblank, unsigned])

end Numeral

namespace Derivation

variable {node : Node} {literal : Token}

mutual

theorem Atom.exists_number : (atom : Atom) → .intLit literal ∈ atom.node.leaves →
    ∃ l ∈ atom.lexemes, l.kind = .number ∧ l.token = literal
  | .number l, member => by
    cases List.mem_singleton.mp member
    exact ⟨l.val, .head _, l.kind_eq, rfl⟩
  | .truth _, member => by cases List.mem_singleton.mp member
  | .ident _, member => by cases List.mem_singleton.mp member
  | .paren left inner right, member => by
    obtain ⟨l, within, found⟩ := inner.exists_number member
    exact ⟨l, by simp [Atom.lexemes, within], found⟩

/-- The integer literals of an expression are lexemes of numbers. -/
theorem Expr.exists_number : (expr : Expr) → .intLit literal ∈ expr.node.leaves →
    ∃ l ∈ expr.lexemes, l.kind = .number ∧ l.token = literal
  | .atom operand, member => operand.exists_number member
  | .binary left op right, member => by
    rcases List.mem_append.mp member with inLeft | inRight
    · obtain ⟨l, within, found⟩ := left.exists_number inLeft
      exact ⟨l, by simp [Expr.lexemes, within], found⟩
    · obtain ⟨l, within, found⟩ := right.exists_number inRight
      exact ⟨l, by simp [Expr.lexemes, within], found⟩

end

theorem Simple.exists_expr (simple : Simple) (part : simple.node.expression? = some node) :
    ∃ expr : Expr, expr.node = node ∧ expr.lexemes ⊆ simple.lexemes := by
  cases simple with
  | decl type name equals init =>
      exact ⟨init, Option.some.inj part, fun l member => by simp [Simple.lexemes, member]⟩
  | assign name equals value =>
      exact ⟨value, Option.some.inj part, fun l member => by simp [Simple.lexemes, member]⟩
  | print word left value right =>
      exact ⟨value, Option.some.inj part, fun l member => by simp [Simple.lexemes, member]⟩

/-- The expression of a statement has a derivation inside that of the statement. -/
theorem Stmt.exists_expr (stmt : Stmt) (part : stmt.node.expression? = some node) :
    ∃ expr : Expr, expr.node = node ∧ expr.lexemes ⊆ stmt.lexemes := by
  cases stmt with
  | simple inner semicolon =>
      obtain ⟨expr, same, within⟩ := inner.exists_expr part
      exact ⟨expr, same, fun l member => by simp [Stmt.lexemes, within member]⟩
  | conditional word left cond right block =>
      exact ⟨cond, Option.some.inj part, fun l member => by simp [Stmt.lexemes, member]⟩
  | block block => cases part

end Derivation

theorem Piece.Form.isDigits {after : List Char} {text : String}
    (h : Form after ⟨some .number, text.toList⟩) : Numeral.IsDigits text := by
  generalize chars : text.toList = list at h
  cases h with
  | number nonempty isRun => exact ⟨chars ▸ nonempty, chars ▸ isRun.all⟩
  | word _ _ named =>
      have table : ∀ entry ∈ Kind.reserved, entry.2 ≠ .number := by decide
      rcases named with member | ⟨⟨⟩, _⟩
      exact absurd rfl (table _ member)
  | punctuation known =>
      have table : ∀ entry ∈ Kind.punctuation, entry.2 ≠ .number := by decide
      exact absurd rfl (table _ known)

/-- The numbers in a source text are runs of digits. -/
theorem Scan.isDigits_of_mem {source : String} {l : Lexeme} (member : l ∈ (ofSource source).lexemes)
    (isNumber : l.kind = .number) : Numeral.IsDigits l.token.text := by
  obtain ⟨before, after, stands⟩ := exists_stands member
  have form := stands.form
  rw [isNumber] at form
  exact form.isDigits

/-- The integer literals of a program that is read from a source text are runs of digits. -/
theorem Program.digits_of_parse {source : String} {p : Program} {stmt expr : Node}
    {literal : Token} (parsed : parse source = .ok p) (within : stmt.Within p.stmts)
    (part : stmt.expression? = some expr) (member : .intLit literal ∈ expr.leaves) :
    Numeral.IsDigits literal.text := by
  obtain ⟨_, list, same, rfl⟩ := parse_eq_ok_iff.mp parsed
  obtain ⟨stmt, rfl, inList⟩ := list.exists_stmt within
  obtain ⟨expr, rfl, inStmt⟩ := stmt.exists_expr part
  obtain ⟨l, inExpr, isNumber, rfl⟩ := expr.exists_number member
  exact Scan.isDigits_of_mem (same ▸ inList (inStmt inExpr)) isNumber

namespace ScopeStack

variable {s t : ScopeStack}

/-- What a statement can do to the scopes by itself, that is, not between braces. -/
inductive Change (s : ScopeStack) : ScopeStack → Prop
  | keep : Change s s
  | declare {sym : Symbol} {t : ScopeStack} (valued : sym.value.isSome)
      (inserted : s.insert? sym = some t) : Change s t
  | update {name : String} {value : Int} {t : ScopeStack}
      (updated : s.setValue? name (some value) = some t) : Change s t

theorem Change.depth_eq (h : Change s t) : t.depth = s.depth := by
  cases h with
  | keep => rfl
  | declare _ inserted => exact depth_insert? inserted
  | update updated => exact depth_setValue? updated

theorem Change.distinct (h : Change s t) (distinct : s.Distinct) : t.Distinct := by
  cases h with
  | keep => exact distinct
  | declare _ inserted => exact distinct.insert? inserted
  | update updated => exact distinct.setValue? updated

theorem Change.valued (h : Change s t) (distinct : s.Distinct)
    (valued : s.All fun sym => sym.value.isSome) : t.All fun sym => sym.value.isSome := by
  cases h with
  | keep => exact valued
  | declare given inserted => exact valued.insert? inserted given
  | update updated => exact valued.setValue? distinct updated fun _ _ => rfl

end ScopeStack

namespace Exec

variable {stmt : Node} {stmts left : List Node} {place : Place} {e e' : Executor}

/-- A statement whose braces are not entered changes at most one symbol. -/
theorem change_of_statement (ran : statement stmt e = .ok () e') (own : enter? stmt e = none) :
    e.scopes.Change e'.scopes := by
  cases stmt with
  | varDecl word name equals init =>
      obtain ⟨value, type, scopes, _, _, inserted, rfl⟩ := statement_varDecl_eq_ok_iff.mp ran
      exact .declare rfl inserted
  | assign name equals node =>
      obtain ⟨value, scopes, _, updated, rfl⟩ := statement_assign_eq_ok_iff.mp ran
      exact .update updated
  | print word node =>
      obtain ⟨value, line, _, _, rfl⟩ := statement_print_eq_ok_iff.mp ran
      exact .keep
  | conditional paren cond brace body =>
      cases statement_conditional_eq_ok ran own
      exact .keep
  | block brace body => cases own
  | _ => simp [statement] at ran

/-- A statement leaves as many scopes as it found, if the statements between its braces do. -/
theorem depth_statement_of_body
    (body : ∀ {d d' : Executor}, statements stmt.body d = .ok () d' →
      d'.scopes.depth = d.scopes.depth)
    (ran : statement stmt e = .ok () e') : e'.scopes.depth = e.scopes.depth := by
  cases entry : enter? stmt e with
  | none => exact (change_of_statement ran entry).depth_eq
  | some t =>
      obtain ⟨u, done, rfl⟩ := (walk.statement_eq_ok_iff entry).mp ran
      rw [← statements_eq_walk] at done
      cases enter?_eq_some entry
      have closed : (leave u).scopes.depth = u.scopes.depth - 1 := ScopeStack.depth_closeScope _
      exact closed.trans (congrArg (· - 1) (body done))

/-- Executing statements leaves as many scopes as it found. -/
theorem depth_statements (ran : statements stmts e = .ok () e') :
    e'.scopes.depth = e.scopes.depth := by
  induction stmts using Node.list_induction generalizing e e' with
  | nil =>
      cases ran
      rfl
  | cons stmt rest body_ih rest_ih =>
      obtain ⟨_, u, first, others⟩ := Step.bind_eq_ok_iff.mp ran
      exact (rest_ih others).trans (depth_statement_of_body body_ih first)

/-- At every place there is one scope more for each pair of braces around it. -/
theorem depth_at (reached : walk.Reaches stmts e place left e') :
    e'.scopes.depth + 1 = e.scopes.depth + place.length := by
  induction reached with
  | here => rfl
  | after ran _ ih =>
      have same := depth_statement_of_body depth_statements ran
      simp only [List.length_cons] at ih ⊢
      omega
  | inside entered _ ih =>
      cases enter?_eq_some entered
      rw [ScopeStack.depth_openScope] at ih
      rw [List.length_cons]
      omega

/-- All along an execution the names in each scope are distinct, and all variables have
values. -/
theorem valued_at (reached : walk.Reaches stmts .initial place left e) :
    e.scopes.Distinct ∧ e.scopes.All fun sym => sym.value.isSome := by
  refine Walk.keeps (P := fun t : Executor =>
    t.scopes.Distinct ∧ t.scopes.All fun sym => sym.value.isSome) ?_ ?_ ?_ ?_ reached
  · rintro stmt s t ⟨distinct, valued⟩ entered
    cases enter?_eq_some entered
    exact ⟨distinct.openScope, valued.openScope⟩
  · rintro s ⟨distinct, valued⟩
    exact ⟨distinct.closeScope, valued.closeScope⟩
  · exact ⟨ScopeStack.distinct_initial, ScopeStack.all_initial⟩
  · rintro place stmt left t u _ ⟨distinct, valued⟩ own ran
    have change := change_of_statement ran own
    exact ⟨change.distinct distinct, change.valued distinct valued⟩

end Exec

/-- The faults that a statement of a program from a source text can end with in the given
scopes. -/
inductive SourceFault (scopes : ScopeStack) : Node → Fault → Prop
  /-- The expression of the statement reads a variable that no open scope has. -/
  | unboundRead {stmt expr : Node} {name : Token} (part : stmt.expression? = some expr)
      (member : .ident name ∈ expr.leaves) (unbound : scopes.lookup? name.text = none) :
      SourceFault scopes stmt (.unbound name.text)
  /-- The statement assigns to a variable that no open scope has. -/
  | unboundTarget {name equals : Token} {value : Node}
      (unbound : scopes.lookup? name.text = none) :
      SourceFault scopes (.assign name equals value) (.unbound name.text)
  /-- An integer literal in the expression of the statement has too many digits. -/
  | longNumeral {stmt expr : Node} {literal : Token} (part : stmt.expression? = some expr)
      (member : .intLit literal ∈ expr.leaves)
      (digits : Numeral.IsDigits literal.text)
      (long : Numeral.digitLimit < literal.text.length) :
      SourceFault scopes stmt (.longNumeral literal.text.length)
  /-- The value to print has too many digits. -/
  | longValue {word : Token} {node : Node} {value : Int}
      (evaluated : evaluate scopes node = .ok value)
      (long : Numeral.digitLimit < (Nat.repr value.natAbs).length) :
      SourceFault scopes (.print word node) .longValue

theorem SourceFault.kind {scopes : ScopeStack} {stmt : Node} {f : Fault}
    (h : SourceFault scopes stmt f) :
    (∃ name, f = .unbound name ∧ scopes.lookup? name = none) ∨
      (∃ digits, f = .longNumeral digits ∧ Numeral.digitLimit < digits) ∨ f = .longValue := by
  cases h with
  | unboundRead _ _ unbound => exact .inl ⟨_, rfl, unbound⟩
  | unboundTarget unbound => exact .inl ⟨_, rfl, unbound⟩
  | longNumeral _ _ _ long => exact .inr (.inl ⟨_, rfl, long⟩)
  | longValue => exact .inr (.inr rfl)

theorem Node.IsExpression.leaf {node leaf : Node} (h : node.IsExpression)
    (member : leaf ∈ node.leaves) : leaf.IsExpression := by
  induction h with
  | binary _ _ left_ih right_ih =>
      rcases List.mem_append.mp member with inLeft | inRight
      · exact left_ih inLeft
      · exact right_ih inRight
  | intLit literal => exact List.mem_singleton.mp member ▸ .intLit literal
  | boolLit literal => exact List.mem_singleton.mp member ▸ .boolLit literal
  | ident name => exact List.mem_singleton.mp member ▸ .ident name

theorem Node.IsRegular.expression {stmt expr : Node} (h : stmt.IsRegular)
    (part : stmt.expression? = some expr) : expr.IsExpression := by
  cases h with
  | varDecl _ value => exact Option.some.inj part ▸ value
  | assign value => exact Option.some.inj part ▸ value
  | conditional value => exact Option.some.inj part ▸ value
  | block => cases part
  | print value => exact Option.some.inj part ▸ value

/-- The value of a literal that is a run of digits. -/
theorem Numeral.IsDigits.literalValue_eq {text : String} (h : IsDigits text) :
    literalValue text = if digitLimit < text.length then .error (.longNumeral text.length)
      else .ok (value (text.toList.filterMap digitValue?)) := by
  rw [literalValue, h.read_eq]
  by_cases long : digitLimit < text.length
  · rw [if_pos long, if_pos long]
  · rw [if_neg long, if_neg long]

theorem literalValue_of_isDigits {text : String} {f : Fault} (digits : Numeral.IsDigits text)
    (h : literalValue text = .error f) :
    f = .longNumeral text.length ∧ Numeral.digitLimit < text.length := by
  rw [digits.literalValue_eq] at h
  by_cases long : Numeral.digitLimit < text.length
  · rw [if_pos long] at h
    exact ⟨(Except.error.inj h).symm, long⟩
  · rw [if_neg long] at h
    cases h

/-- The expression of a regular statement fails on a literal that is too long, or on a variable
that is not bound. -/
theorem SourceFault.of_expression {scopes : ScopeStack} {stmt expr : Node} {f : Fault}
    (regular : stmt.IsRegular) (valued : scopes.All fun sym => sym.value.isSome)
    (part : stmt.expression? = some expr)
    (digits : ∀ literal, .intLit literal ∈ expr.leaves → Numeral.IsDigits literal.text)
    (failed : evaluate scopes expr = .error f) : SourceFault scopes stmt f := by
  obtain ⟨leaf, member, cause⟩ := exists_leaf_of_evaluate_eq_error failed
  cases (regular.expression part).leaf member with
  | intLit literal =>
      obtain ⟨rfl, long⟩ := literalValue_of_isDigits (digits literal member) cause
      exact .longNumeral part member (digits literal member) long
  | boolLit => cases cause
  | ident name =>
      cases ScopeStack.eq_unbound_of_valueOf cause
      exact .unboundRead part member (ScopeStack.lookup?_eq_none_of_valueOf valued cause)
  | binary => exact absurd member (Node.binary_notMem_leaves expr)

/-- A regular statement that fails ends with one of the faults, while a scope is open. -/
theorem Exec.Fails.source {scopes : ScopeStack} {stmt : Node} {f : Fault}
    (h : Exec.Fails scopes stmt f) (regular : stmt.IsRegular) (opened : 0 < scopes.depth)
    (valued : scopes.All fun sym => sym.value.isSome)
    (digits : ∀ expr literal, stmt.expression? = some expr → .intLit literal ∈ expr.leaves →
      Numeral.IsDigits literal.text) :
    SourceFault scopes stmt f := by
  cases h with
  | expression part failed =>
      exact .of_expression regular valued part (fun literal => digits _ literal part) failed
  | unknownType unknown =>
      cases regular with
      | varDecl known _ =>
          rw [unknown] at known
          cases known
  | noScope outside => simp [ScopeStack.depth, outside] at opened
  | unbound unbound => exact .unboundTarget unbound
  | longValue evaluated long => exact .longValue evaluated (Numeral.write?_eq_none_iff.mp long)
  | unknownStatement other => cases regular <;> cases other

/-- Programs from source texts have no internal faults. Such a program is checked to its end,
with the outermost scope open. It is executed to its end, also with the outermost scope open, or
comes to a statement that fails because a variable is not bound, because an integer literal has
too many digits, or because a value to print has too many digits. -/
theorem source_program_faults {source : String} {p : Program}
    (parsed : Program.parse source = .ok p) :
    (∃ c, Check.program p .initial = .ok () c ∧ c.scopes.depth = 1) ∧
    ((∃ e, Exec.program p .initial = .ok () e ∧ e.scopes.depth = 1) ∨
      ∃ f e, Exec.program p .initial = .error f e ∧
        ((∃ name, f = .unbound name ∧ e.scopes.lookup? name = none) ∨
          (∃ digits, f = .longNumeral digits ∧ Numeral.digitLimit < digits) ∨
          f = .longValue) ∧
        ∃ place stmt left, Exec.walk.Reaches p.stmts .initial place (stmt :: left) e ∧
          Exec.statement stmt e = .error f e ∧ SourceFault e.scopes stmt f) := by
  refine ⟨Check.completes_of_parse parsed, ?_⟩
  cases ran : Exec.program p .initial with
  | ok _ e => exact .inl ⟨e, rfl, Exec.depth_statements ran⟩
  | error f e =>
      obtain ⟨place, stmt, left, reached, failed, fails⟩ := Exec.exists_fails ran
      -- The outermost scope is open wherever the failing statement stands.
      have opened : 0 < e.scopes.depth := by
        have depth := Exec.depth_at reached
        have around := List.length_pos_iff.mpr reached.place_ne_nil
        have outermost : Executor.initial.scopes.depth = 1 := rfl
        omega
      have fault : SourceFault e.scopes stmt f :=
        fails.source (Program.regular_of_parse parsed stmt reached.within) opened
          (Exec.valued_at reached).2
          (fun _ _ part member => Program.digits_of_parse parsed reached.within part member)
      exact .inr ⟨f, e, rfl, fault.kind, place, stmt, left, reached, failed, fault⟩

/-- A source text with problems of types that execution does not mind, digits of two scripts in
one literal, a block that is skipped, and a variable that is never declared. -/
def uncheckedSource : String :=
  "boolean b = 1 + true;\n\x7b print(b + \u06641); \x7d if (b) \x7b x = y; \x7d print(z);"

/-- The program of `uncheckedSource`. -/
def Program.unchecked : Program where
  stmts := [
    .varDecl ⟨"boolean", 1, 0⟩ ⟨"b", 1, 8⟩ ⟨"=", 1, 10⟩
      (.binary ⟨"+", 1, 14⟩ (.intLit ⟨"1", 1, 12⟩) (.boolLit ⟨"true", 1, 16⟩)),
    .block ⟨"\x7b", 2, 0⟩ [.print ⟨"print", 2, 2⟩
      (.binary ⟨"+", 2, 10⟩ (.ident ⟨"b", 2, 8⟩) (.intLit ⟨"\u06641", 2, 12⟩))],
    .conditional ⟨"(", 2, 22⟩ (.ident ⟨"b", 2, 23⟩) ⟨"\x7b", 2, 26⟩
      [.assign ⟨"x", 2, 28⟩ ⟨"=", 2, 30⟩ (.ident ⟨"y", 2, 32⟩)],
    .print ⟨"print", 2, 37⟩ (.ident ⟨"z", 2, 43⟩)]

theorem parse_uncheckedSource : Program.parse uncheckedSource = .ok .unchecked := by
  cbv

theorem source_program_faults_unchecked :
    ∃ c e place stmt left, Program.parse uncheckedSource = .ok .unchecked ∧
      Check.program .unchecked .initial = .ok () c ∧ c.hasErrors = true ∧ c.scopes.depth = 1 ∧
      Exec.program .unchecked .initial = .error (.unbound "z") e ∧ e.output = #["43"] ∧
      Exec.walk.Reaches Program.unchecked.stmts .initial place (stmt :: left) e ∧
      SourceFault e.scopes stmt (.unbound "z") := by
  obtain ⟨⟨c, checked, depth⟩, outcome⟩ := source_program_faults parse_uncheckedSource
  obtain ⟨e, ran, _⟩ | ⟨f, e, ran, _, place, stmt, left, reached, _, fault⟩ := outcome
  · cases ran
  · have reported : c.hasErrors = true := by
      cases checked
      rfl
    have printed : Exec.program .unchecked .initial = .error (.unbound "z") e ∧
        e.output = #["43"] := by
      cases ran
      exact ⟨rfl, rfl⟩
    rw [printed.1] at ran
    cases ran
    exact ⟨c, e, place, stmt, left, parse_uncheckedSource, checked, reported, depth, printed.1,
      printed.2, reached, fault⟩

end BlockLang

import BlockLang.Diagnostic
import BlockLang.Fault

/-!
# Checking programs

Checking walks over a tree once, keeps a stack of scopes without values, and reports
every problem it meets with the token it is about. A problem never ends the walk. An
expression in which a problem was reported has the error type, and nothing further is
reported about the types it takes part in.

The walk ends early only on a fault. What was reported and declared before the fault is
kept, and so are the scopes of the blocks that the walk is in.
-/

namespace BlockLang

/-- What checking finds wrong with a program: a name that no open scope declares, a name that
its scope declares already, with the line where it does, a value of one type for a variable of
another, an operator between operands that are not both integers, or a condition that is no
truth value. -/
inductive Problem
  | undeclared (name : String)
  | redeclared (name : String) (line : Int)
  | mismatch (found expected : Ty)
  | operands (op : String) (left right : Ty)
  | condition (found : Ty)
deriving DecidableEq, Repr

namespace Problem

/-- The message about a problem. -/
def message : Problem → String
  | .undeclared name => "Variable '" ++ name ++ "' has not been declared."
  | .redeclared name line => ScopeStack.DeclareError.redeclaredText name line
  | .mismatch found expected =>
    "Cannot assign a value of type '" ++ found.render ++ "' to a variable of type '" ++
      expected.render ++ "'."
  | .operands op left right =>
    "Operator '" ++ op ++ "' can only be applied to operands of type 'int', but found '" ++
      left.render ++ "' and '" ++ right.render ++ "'."
  | .condition found =>
    "The condition of an 'if' statement must be of type 'boolean', but found type '" ++
      found.render ++ "'."

/-- The name or the operator that the message about a problem shows. -/
def subject? : Problem → Option String
  | .undeclared name | .redeclared name _ => some name
  | .operands op _ _ => some op
  | .mismatch _ _ | .condition _ => none

/-- The types that the message about a problem shows, in order. -/
def types : Problem → List Ty
  | .undeclared _ | .redeclared _ _ => []
  | .mismatch found expected => [found, expected]
  | .operands _ left right => [left, right]
  | .condition found => [found]

/-- The wordings that messages about programs have, each with the name or the operator and with
the texts that it shows in the places of types. -/
inductive Wording : Option String → List String → String → Prop
  | undeclared (name : String) :
      Wording (some name) [] ("Variable '" ++ name ++ "' has not been declared.")
  | redeclared (name : String) (line : Int) :
      Wording (some name) [] ("Variable '" ++ name ++
        "' was already declared in this scope at line " ++ Numeral.decimal line ++ ".")
  | mismatch (found expected : String) :
      Wording none [found, expected] ("Cannot assign a value of type '" ++ found ++
        "' to a variable of type '" ++ expected ++ "'.")
  | operands (op left right : String) :
      Wording (some op) [left, right] ("Operator '" ++ op ++
        "' can only be applied to operands of type 'int', but found '" ++ left ++ "' and '" ++
        right ++ "'.")
  | condition (found : String) :
      Wording none [found]
        ("The condition of an 'if' statement must be of type 'boolean', but found type '" ++
          found ++ "'.")

/-- A message has its wording, with the printed types in their places. -/
theorem wording (p : Problem) : Wording p.subject? (p.types.map Ty.render) p.message := by
  cases p with
  | undeclared name => exact .undeclared name
  | redeclared name line => exact .redeclared name line
  | mismatch found expected => exact .mismatch found.render expected.render
  | operands op left right => exact .operands op left.render right.render
  | condition found => exact .condition found.render

end Problem

/-- A problem and the token it is about. -/
structure Report where
  problem : Problem
  token : Token
deriving DecidableEq, Repr

/-- The diagnostic that shows a report. -/
def Report.diagnostic (r : Report) : Diagnostic :=
  .ofToken r.problem.message r.token

/-- The state of checking: the open scopes, and the reports in the order they were
made. -/
structure Checker where
  scopes : ScopeStack
  reports : Array Report
deriving DecidableEq, Repr

namespace Checker

def initial : Checker := ⟨.initial, #[]⟩

def hasErrors (c : Checker) : Bool :=
  !c.reports.isEmpty

/-- The diagnostics of all reports. -/
def diagnostics (c : Checker) : List Diagnostic :=
  c.reports.toList.map Report.diagnostic

def report (c : Checker) (problem : Problem) (token : Token) : Checker :=
  { c with reports := c.reports.push ⟨problem, token⟩ }

end Checker

/-- A step of checking, which changes the state and may end with a fault. -/
abbrev Check := EStateM Fault Checker

namespace Check

def report (problem : Problem) (token : Token) : Check Unit :=
  modify (·.report problem token)

def openScope : Check Unit :=
  modify fun c => { c with scopes := c.scopes.openScope }

def closeScope : Check Unit :=
  modify fun c => { c with scopes := c.scopes.closeScope }

def declaredType (word : Token) : Check Ty :=
  match Ty.ofWord? word.text with
  | some type => pure type
  | none => throw (.unknownType word.text)

/-- Declares a variable. A name that the scope has already is reported and keeps its
first declaration. -/
def declare (name : Token) (type : Ty) : Check Unit := do
  let c ← get
  match c.scopes.declare name.text type name with
  | .ok scopes => set { c with scopes := scopes }
  | .error .noScope => throw .noScope
  | .error (.redeclared name token line) => report (.redeclared name line) token

/-- The innermost declaration of a name. A name without one is reported. -/
def resolve (name : Token) : Check (Option Symbol) := do
  let c ← get
  match c.scopes.lookup? name.text with
  | some sym => pure (some sym)
  | none => do
    report (.undeclared name.text) name
    pure none

/-- The type of an operation, given the types of its operands. -/
def operation (op : Token) (left right : Ty) : Check Ty :=
  if left.isError || right.isError then pure .error
  else if left.isMatch .int && right.isMatch .int then pure .int
  else do
    report (.operands op.text left right) op
    pure .error

/-- Reports a value that does not fit its variable, unless its type is lost already. -/
def expectMatch (equals : Token) (found expected : Ty) : Check Unit :=
  if !found.isError && !found.isMatch expected then report (.mismatch found expected) equals
  else pure ()

def expectCondition (paren : Token) (found : Ty) : Check Unit :=
  if !found.isError && !found.isMatch .boolean then report (.condition found) paren
  else pure ()

/-- The type of an expression, whose operands are looked at from left to right. -/
def typeOf : Node → Check Ty
  | .intLit _ => pure .int
  | .boolLit _ => pure .boolean
  | .ident name => do
    match ← resolve name with
    | some sym => pure sym.type
    | none => pure .error
  | .binary op left right => do
    let leftType ← typeOf left
    let rightType ← typeOf right
    operation op leftType rightType
  | node => throw (.unknownExpression node.sort)

mutual

/-- Checks a statement. A name is declared before its first value is looked at, and the
target of an assignment is resolved before the new value is. -/
def statement : Node → Check Unit
  | .varDecl word name equals init => do
    let type ← declaredType word
    declare name type
    let value ← typeOf init
    expectMatch equals value type
  | .assign name equals value => do
    let target ← resolve name
    let type ← typeOf value
    match target with
    | some sym => expectMatch equals type sym.type
    | none => pure ()
  | .conditional paren cond _ body => do
    let type ← typeOf cond
    expectCondition paren type
    openScope
    statements body
    closeScope
  | .block _ stmts => do
    openScope
    statements stmts
    closeScope
  | .print _ value => do
    let _ ← typeOf value
    pure ()
  | node => throw (.unknownStatement node.sort)

def statements : List Node → Check Unit
  | [] => pure ()
  | stmt :: rest => do
    statement stmt
    statements rest

end

def program (p : Program) : Check Unit :=
  statements p.stmts

end Check

end BlockLang

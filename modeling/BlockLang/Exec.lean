import BlockLang.Fault

/-!
# Executing programs

Execution walks over a tree, keeps a stack of scopes with values, and prints. Every value
is an integer; the truth values are one and zero. Nothing is checked on the way, so
execution is meant for programs that checking found no problem with. On a fault, what was
done before is kept, and so are the scopes of the blocks that execution is in.
-/

namespace BlockLang

/-- The state of execution: the open scopes, the printed lines, and the text written to
the stream that shows them. The stream is a text whether or not anyone reads it. Execution only
writes to it and never looks at it, so an execution without a stream is the same one with this
text left aside. -/
structure Executor where
  scopes : ScopeStack
  output : Array String
  stream : String
deriving DecidableEq, Repr

namespace Executor

def initial : Executor := ⟨.initial, #[], ""⟩

/-- The state with one more printed line. -/
def printLine (e : Executor) (line : String) : Executor :=
  { e with output := e.output.push line, stream := e.stream ++ line ++ "\n" }

end Executor

/-- A step of execution, which changes the state and may end with a fault. -/
abbrev Exec := EStateM Fault Executor

/-- The integer that stands for the truth value true. -/
def trueValue : Int := 1

def falseValue : Int := 0

def literalValue (text : String) : Except Fault Int :=
  match Numeral.read text with
  | .ok value => .ok value
  | .error .malformed => .error (.badNumeral text)
  | .error (.tooLong digits) => .error (.longNumeral digits)

/-- The value of a variable. A symbol without a value is read as if it were unbound, but no run
comes to one: execution gives every symbol that it declares a value, and whatever the steps of a
session, the symbols in the scopes of its executor have one. -/
def ScopeStack.valueOf (scopes : ScopeStack) (name : String) : Except Fault Int :=
  match (scopes.lookup? name).bind Symbol.value with
  | some value => .ok value
  | none => .error (.unbound name)

/-- Applies an operator. A plus adds, and any other operator subtracts. -/
def applyOperator (op : String) (left right : Int) : Int :=
  if op = "+" then left + right else left - right

/-- The value of an expression. The operands of an operator are evaluated from left to
right. -/
def evaluate (scopes : ScopeStack) : Node → Except Fault Int
  | .intLit literal => literalValue literal.text
  | .boolLit literal => .ok (if literal.text = "true" then trueValue else falseValue)
  | .ident name => scopes.valueOf name.text
  | .binary op left right => do
    let leftValue ← evaluate scopes left
    let rightValue ← evaluate scopes right
    return applyOperator op.text leftValue rightValue
  | node => .error (.unknownExpression node.sort)

namespace Exec

def openScope : Exec Unit :=
  modify fun e => { e with scopes := e.scopes.openScope }

def closeScope : Exec Unit :=
  modify fun e => { e with scopes := e.scopes.closeScope }

def valueOf (node : Node) : Exec Int := do
  let e ← get
  match evaluate e.scopes node with
  | .ok value => pure value
  | .error fault => throw fault

/-- Puts a variable with its first value into the innermost scope, in place of any variable of
the name there. -/
def declare (word name : Token) (value : Int) : Exec Unit := do
  match Ty.ofWord? word.text with
  | none => throw (.unknownType word.text)
  | some type =>
    let e ← get
    match e.scopes.insert? ⟨name.text, type, name, some value⟩ with
    | none => throw .noScope
    | some scopes => set { e with scopes := scopes }

def assign (name : Token) (value : Int) : Exec Unit := do
  let e ← get
  match e.scopes.setValue? name.text (some value) with
  | none => throw (.unbound name.text)
  | some scopes => set { e with scopes := scopes }

def print (value : Int) : Exec Unit :=
  match Numeral.write? value with
  | none => throw .longValue
  | some line => modify (·.printLine line)

mutual

/-- Executes a statement. Every expression is evaluated before the statement has any
effect. Only the value one makes a condition true. -/
def statement : Node → Exec Unit
  | .varDecl word name _ init => do
    let value ← valueOf init
    declare word name value
  | .assign name _ value => do
    let value ← valueOf value
    assign name value
  | .print _ value => do
    let value ← valueOf value
    print value
  | .conditional _ cond _ body => do
    let value ← valueOf cond
    if value = trueValue then
      openScope
      statements body
      closeScope
    else pure ()
  | .block _ stmts => do
    openScope
    statements stmts
    closeScope
  | node => throw (.unknownStatement node.sort)

def statements : List Node → Exec Unit
  | [] => pure ()
  | stmt :: rest => do
    statement stmt
    statements rest

end

def program (p : Program) : Exec Unit :=
  statements p.stmts

end Exec

end BlockLang

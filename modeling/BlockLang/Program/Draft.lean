import BlockLang.Lexeme
import BlockLang.Node

/-!
# Programs under construction

A draft is the part of a program that the lexemes read so far determine, with a marker
for what comes next. `Draft.feed` extends a draft by one lexeme or refuses it, and a
draft that waits for a statement outside all blocks is a complete program. No lexeme is
ever taken back, so a lexeme is refused exactly when no program starts with the lexemes
read so far followed by it.

Operators associate to the left and have one level of precedence: a draft holds at most
one left operand for each open parenthesis. Parentheses around an expression leave no
trace in the tree.
-/

namespace BlockLang

open Lexeme (Kind)

namespace Draft

/-- What an expression is read for: the first or a new value of a variable, the value to
print, or a condition. -/
inductive Purpose
  | init (type name equals : Token)
  | value (name equals : Token)
  | print (word : Token)
  | cond (paren : Token)
deriving DecidableEq, Repr

/-- A left operand with its operator, if one waits for a right operand. -/
abbrev Waiting := Option (Node × Token)

/-- The expression that an operand completes: itself, or the operation it was awaited
for. -/
def Waiting.complete : Waiting → Node → Node
  | none, operand => operand
  | some (left, op), operand => .binary op left operand

/-- What comes next, with what has been read of the statement. At `statement` the innermost
list may also end, and at `operator` the expression may. For each parenthesis open in an
expression, `outer` holds what waits outside of it, innermost first. -/
inductive Focus
  | statement
  | declName (type : Token)
  | declEquals (type name : Token)
  | assignEquals (name : Token)
  | printParen (word : Token)
  | ifParen
  | operand (purpose : Purpose) (waiting : Waiting) (outer : List Waiting)
  | operator (purpose : Purpose) (expr : Node) (outer : List Waiting)
  | thenBrace (paren : Token) (cond : Node)
  | semicolon (stmt : Node)
deriving DecidableEq, Repr

/-- What an open block becomes when it is closed. -/
inductive Opening
  | block (brace : Token)
  | conditional (paren : Token) (cond : Node) (brace : Token)
deriving DecidableEq, Repr

def Opening.close : Opening → List Node → Node
  | .block brace, stmts => .block brace stmts
  | .conditional paren cond brace, stmts => .conditional paren cond brace stmts

end Draft

/-- A program under construction: what comes next, the statements of the innermost open
list, latest first, and for each open block, innermost first, how it was opened and the
statements that stand before it in its list, latest first. -/
structure Draft where
  focus : Draft.Focus
  stmts : List Node
  blocks : List (Draft.Opening × List Node)
deriving DecidableEq, Repr

namespace Draft

def empty : Draft := ⟨.statement, [], []⟩

def addStatement (d : Draft) (stmt : Node) : Draft :=
  { d with focus := .statement, stmts := stmt :: d.stmts }

def openBlock (d : Draft) (opening : Opening) : Draft :=
  ⟨.statement, [], (opening, d.stmts) :: d.blocks⟩

/-- The draft with its innermost block closed, if there is one. -/
def closeBlock? (d : Draft) : Option Draft :=
  match d.blocks with
  | [] => none
  | (opening, before) :: blocks =>
    some ⟨.statement, opening.close d.stmts.reverse :: before, blocks⟩

/-- The draft after a semicolon or closing parenthesis that ends an expression outside
all of its parentheses, if that is how an expression for this purpose ends. -/
def endExpression? (d : Draft) : Purpose → Node → Kind → Option Draft
  | .init type name equals, expr, .semicolon =>
    some (d.addStatement (.varDecl type name equals expr))
  | .value name equals, expr, .semicolon => some (d.addStatement (.assign name equals expr))
  | .print word, expr, .rightParen => some { d with focus := .semicolon (.print word expr) }
  | .cond paren, expr, .rightParen => some { d with focus := .thenBrace paren expr }
  | _, _, _ => none

def feedStatement? (d : Draft) (l : Lexeme) : Option Draft :=
  match l.kind with
  | .intWord | .booleanWord => some { d with focus := .declName l.token }
  | .identifier => some { d with focus := .assignEquals l.token }
  | .printWord => some { d with focus := .printParen l.token }
  | .ifWord => some { d with focus := .ifParen }
  | .leftBrace => some (d.openBlock (.block l.token))
  | .rightBrace => d.closeBlock?
  | _ => none

def feedOperand? (d : Draft) (purpose : Purpose) (waiting : Waiting) (outer : List Waiting)
    (l : Lexeme) : Option Draft :=
  match l.kind with
  | .number =>
    some { d with focus := .operator purpose (waiting.complete (.intLit l.token)) outer }
  | .trueWord | .falseWord =>
    some { d with focus := .operator purpose (waiting.complete (.boolLit l.token)) outer }
  | .identifier =>
    some { d with focus := .operator purpose (waiting.complete (.ident l.token)) outer }
  | .leftParen => some { d with focus := .operand purpose none (waiting :: outer) }
  | _ => none

def feedOperator? (d : Draft) (purpose : Purpose) (expr : Node) (outer : List Waiting)
    (l : Lexeme) : Option Draft :=
  match l.kind, outer with
  | .plus, _ | .minus, _ =>
    some { d with focus := .operand purpose (some (expr, l.token)) outer }
  | .rightParen, waiting :: outer =>
    some { d with focus := .operator purpose (waiting.complete expr) outer }
  | kind, [] => d.endExpression? purpose expr kind
  | _, _ => none

/-- The draft after one more lexeme, unless no program goes on with it. -/
def feed? (d : Draft) (l : Lexeme) : Option Draft :=
  match d.focus with
  | .statement => d.feedStatement? l
  | .declName type =>
    if l.kind = .identifier then some { d with focus := .declEquals type l.token } else none
  | .declEquals type name =>
    if l.kind = .equals then some { d with focus := .operand (.init type name l.token) none [] }
    else none
  | .assignEquals name =>
    if l.kind = .equals then some { d with focus := .operand (.value name l.token) none [] }
    else none
  | .printParen word =>
    if l.kind = .leftParen then some { d with focus := .operand (.print word) none [] } else none
  | .ifParen =>
    if l.kind = .leftParen then some { d with focus := .operand (.cond l.token) none [] }
    else none
  | .operand purpose waiting outer => d.feedOperand? purpose waiting outer l
  | .operator purpose expr outer => d.feedOperator? purpose expr outer l
  | .thenBrace paren cond =>
    if l.kind = .leftBrace then some (d.openBlock (.conditional paren cond l.token)) else none
  | .semicolon stmt => if l.kind = .semicolon then some (d.addStatement stmt) else none

/-- The draft after several lexemes, or the first of them that is refused. -/
def feedAll (d : Draft) : List Lexeme → Except Lexeme Draft
  | [] => .ok d
  | l :: rest =>
    match d.feed? l with
    | none => .error l
    | some d => d.feedAll rest

def program? (d : Draft) : Option Program :=
  match d.focus, d.blocks with
  | .statement, [] => some ⟨d.stmts.reverse⟩
  | _, _ => none

end Draft

end BlockLang

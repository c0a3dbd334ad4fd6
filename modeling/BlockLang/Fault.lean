import BlockLang.Node
import BlockLang.Scope.Stack

/-!
# Faults

A fault ends a pass over a program tree at once, unlike a problem that checking reports
and goes on from. Most faults need a tree that comes from no source text; programs read
from source text can only run into unbound variables and the limits on numerals.
-/

namespace BlockLang

/-- Why a pass over a tree ends early: a node of the given sort stands where a statement or an
expression is expected, a declaration names no type of the language, a variable is declared while
no scope is open or used while none has it, an integer literal is no numeral or has too many
digits, whose number is kept, or a printed value has too many digits. -/
inductive Fault
  | unknownStatement (sort : String)
  | unknownExpression (sort : String)
  | unknownType (word : String)
  | noScope
  | unbound (name : String)
  | badNumeral (text : String)
  | longNumeral (digits : Nat)
  | longValue
deriving DecidableEq, Repr

namespace Fault

/-- The longest quotation of a text that is no numeral. -/
def quotationLimit : Nat := 200

/-- The class under which a fault is reported. -/
def label : Fault → String
  | .unknownStatement _ | .unknownExpression _ => "SemanticError"
  | .unknownType _ | .badNumeral _ | .longNumeral _ | .longValue => "ValueError"
  | .noScope => ScopeStack.DeclareError.noScope.label
  | .unbound _ => "AttributeError"

def limitText : String :=
  "Exceeds the limit (" ++ Nat.repr Numeral.digitLimit ++
    " digits) for integer string conversion"

def limitAdvice : String :=
  "; use sys.set_int_max_str_digits() to increase the limit"

def message : Fault → String
  | .unknownStatement sort => "Unknown statement node: " ++ sort
  | .unknownExpression sort => "Unknown expression node: " ++ sort
  | .unknownType word => "Unknown type keyword: " ++ Text.quoted word
  | .noScope => ScopeStack.DeclareError.noScope.message
  | .unbound _ => "'NoneType' object has no attribute 'value'"
  | .badNumeral text =>
    "invalid literal for int() with base 10: " ++
      String.ofList ((Text.quoted text).toList.take quotationLimit)
  | .longNumeral digits =>
    limitText ++ ": value has " ++ Nat.repr digits ++ " digits" ++ limitAdvice
  | .longValue => limitText ++ limitAdvice

end Fault

end BlockLang

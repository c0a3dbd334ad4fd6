import BlockLang.Token
import BlockLang.Ty

/-!
# Scopes

A symbol is a declared variable, and a scope holds the symbols of one statement list.
Checking and execution each keep a stack of scopes. Both search it from the innermost
scope outwards; they differ in how they declare: checking refuses a name that the
innermost scope already has, and execution replaces its symbol.

Checking leaves the value of a symbol open, and execution always sets it.
-/

namespace BlockLang

/-- A declared variable: its name, its declared type, the token that declares it and its
current value, if it has one. -/
structure Symbol where
  name : String
  type : Ty
  token : Token
  value : Option Int
deriving DecidableEq, Repr

/-- The printed form of a symbol, without its value. -/
def Symbol.render (s : Symbol) : String :=
  "Symbol(name=" ++ Text.quoted s.name ++ ", type=" ++ s.type.render ++ ", defined at " ++
    Numeral.decimal s.token.line ++ ":" ++ Numeral.decimal s.token.column ++ ")"

/-- The symbols of one statement list, each under a name of its own. -/
structure Scope where
  symbols : List Symbol
deriving DecidableEq, Repr

namespace Scope

def empty : Scope := ⟨[]⟩

def find? (s : Scope) (name : String) : Option Symbol :=
  s.symbols.find? (·.name == name)

/-- The scope with a symbol in it, in place of any symbol of the same name. -/
def insert (s : Scope) (sym : Symbol) : Scope :=
  ⟨sym :: s.symbols.filter (·.name != sym.name)⟩

/-- The scope with a new value for the symbol of the given name. -/
def setValue (s : Scope) (name : String) (value : Option Int) : Scope :=
  ⟨s.symbols.map fun sym => if sym.name = name then { sym with value := value } else sym⟩

/-- The symbols in the order of their names. -/
def listing (s : Scope) : List Symbol :=
  s.symbols.mergeSort fun a b => decide (a.name ≤ b.name)

end Scope

end BlockLang

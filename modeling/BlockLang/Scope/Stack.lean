import BlockLang.Scope

/-!
# Scope stacks

The scopes that are open at a point of a program, innermost first. A stack may be empty,
in which case nothing can be declared; closing a scope of an empty stack does nothing.
-/

namespace BlockLang

/-- Open scopes, innermost first. -/
structure ScopeStack where
  scopes : List Scope
deriving DecidableEq, Repr

namespace ScopeStack

/-- Why a declaration is refused: no scope is open, or the innermost one has the name already.
The new token and the line of the earlier declaration are kept. -/
inductive DeclareError
  | noScope
  | redeclared (name : String) (token : Token) (line : Int)
deriving DecidableEq, Repr

namespace DeclareError

/-- The class under which the refusal is reported. -/
def label : DeclareError → String
  | .noScope => "IndexError"
  | .redeclared _ _ _ => "RedeclarationError"

/-- The message about a name that its scope declares already. -/
def redeclaredText (name : String) (line : Int) : String :=
  "Variable '" ++ name ++ "' was already declared in this scope at line " ++
    Numeral.decimal line ++ "."

def message : DeclareError → String
  | .noScope => "list index out of range"
  | .redeclared name _ line => redeclaredText name line

end DeclareError

/-- The stack with one open scope, which is the outermost of a program. -/
def initial : ScopeStack := ⟨[.empty]⟩

def depth (s : ScopeStack) : Nat :=
  s.scopes.length

/-- Whether at most the outermost scope is open. -/
def isGlobal (s : ScopeStack) : Bool :=
  s.depth ≤ 1

def openScope (s : ScopeStack) : ScopeStack :=
  ⟨.empty :: s.scopes⟩

/-- Closes the innermost scope, if there is one. -/
def closeScope (s : ScopeStack) : ScopeStack :=
  ⟨s.scopes.tail⟩

/-- Declares a name that the innermost scope does not have yet. The symbol has no value.
An earlier declaration is kept. -/
def declare (s : ScopeStack) (name : String) (type : Ty) (token : Token) :
    Except DeclareError ScopeStack :=
  match s.scopes with
  | [] => .error .noScope
  | innermost :: outer =>
    match innermost.find? name with
    | some earlier => .error (.redeclared name token earlier.token.line)
    | none => .ok ⟨innermost.insert ⟨name, type, token, none⟩ :: outer⟩

/-- Puts a symbol into the innermost scope, in place of any symbol of its name there. -/
def insert? (s : ScopeStack) (sym : Symbol) : Option ScopeStack :=
  match s.scopes with
  | [] => none
  | innermost :: outer => some ⟨innermost.insert sym :: outer⟩

/-- The symbol of a name in the first of the scopes that has it. -/
def findIn? (name : String) (scopes : List Scope) : Option Symbol :=
  scopes.findSome? (·.find? name)

def lookup? (s : ScopeStack) (name : String) : Option Symbol :=
  findIn? name s.scopes

/-- The scopes with a new value for the symbol of a name in the first of them that has
it. -/
def setIn? (name : String) (value : Option Int) : List Scope → Option (List Scope)
  | [] => none
  | scope :: outer =>
    if (scope.find? name).isSome then some (scope.setValue name value :: outer)
    else (setIn? name value outer).map (scope :: ·)

/-- Gives the innermost symbol of a name a new value, if there is such a symbol. -/
def setValue? (s : ScopeStack) (name : String) (value : Option Int) : Option ScopeStack :=
  (setIn? name value s.scopes).map ScopeStack.mk

/-- The open scopes from the outermost to the innermost. -/
def outermostFirst (s : ScopeStack) : List Scope :=
  s.scopes.reverse

@[simp] theorem depth_initial : initial.depth = 1 := rfl

@[simp] theorem depth_openScope (s : ScopeStack) : s.openScope.depth = s.depth + 1 := rfl

@[simp] theorem closeScope_openScope (s : ScopeStack) : s.openScope.closeScope = s := rfl

end ScopeStack

end BlockLang

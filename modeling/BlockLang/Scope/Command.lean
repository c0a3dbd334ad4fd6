import BlockLang.Fault

/-!
# Commands on a scope stack

A command is one use of a scope stack, with everything it needs. Declarations and
insertions are refused if no scope is open, declarations also if the innermost scope has
the name already, and new values if no scope has the name. A command that is refused
leaves the stack as it was, and is reported like the error behind it.
-/

namespace BlockLang.ScopeStack

/-- One use of a scope stack. A declaration brings in a new name without a value, while an
insertion takes the place of any symbol of the name in the innermost scope. -/
inductive Command
  | openScope
  | closeScope
  | declare (name : String) (type : Ty) (token : Token)
  | insert (sym : Symbol)
  | lookup (name : String)
  | setValue (name : String) (value : Option Int)
deriving DecidableEq, Repr

inductive Refusal
  | declaration (e : DeclareError)
  | unbound (name : String)
deriving DecidableEq, Repr

namespace Refusal

def label : Refusal → String
  | .declaration e => e.label
  | .unbound name => (Fault.unbound name).label

def message : Refusal → String
  | .declaration e => e.message
  | .unbound name => (Fault.unbound name).message

end Refusal

/-- Performs a command. The answer is the declared symbol or the symbol asked for. -/
def perform (s : ScopeStack) : Command → ScopeStack × Except Refusal (Option Symbol)
  | .openScope => (s.openScope, .ok none)
  | .closeScope => (s.closeScope, .ok none)
  | .declare name type token =>
    match s.declare name type token with
    | .ok t => (t, .ok (t.lookup? name))
    | .error e => (s, .error (.declaration e))
  | .insert sym =>
    match s.insert? sym with
    | some t => (t, .ok none)
    | none => (s, .error (.declaration .noScope))
  | .lookup name => (s, .ok (s.lookup? name))
  | .setValue name value =>
    match s.setValue? name value with
    | some t => (t, .ok none)
    | none => (s, .error (.unbound name))

end BlockLang.ScopeStack

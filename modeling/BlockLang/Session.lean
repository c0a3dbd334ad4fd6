import BlockLang.Check
import BlockLang.Exec

/-!
# Sessions

A session keeps one checker and one executor through any number of steps. A step that
ends with a fault leaves both in the state they were in at the fault.
-/

namespace BlockLang

/-- A checker and an executor that live through several steps. -/
structure Session where
  checker : Checker
  executor : Executor
deriving DecidableEq, Repr

namespace Session

def initial : Session := ⟨.initial, .initial⟩

inductive Pass
  | check
  | exec
deriving DecidableEq, Repr

/-- A step of a session: a pass over a program, a question for the type or the value of an
expression, or a change to the open scopes of one pass. -/
inductive Step
  | check (program : Program)
  | exec (program : Program)
  | typeOf (expr : Node)
  | valueOf (expr : Node)
  | openScope (pass : Pass)
  | closeScope (pass : Pass)

/-- What a step answers if it does not end with a fault. -/
inductive Answer
  | done
  | type (type : Ty)
  | value (value : Int)
deriving DecidableEq, Repr

/-- Performs a step of checking. The executor is left alone. -/
def performCheck (s : Session) (step : Check Answer) : Session × Except Fault Answer :=
  match step s.checker with
  | .ok answer checker => ({ s with checker := checker }, .ok answer)
  | .error fault checker => ({ s with checker := checker }, .error fault)

def performExec (s : Session) (step : Exec Answer) : Session × Except Fault Answer :=
  match step s.executor with
  | .ok answer executor => ({ s with executor := executor }, .ok answer)
  | .error fault executor => ({ s with executor := executor }, .error fault)

def perform (s : Session) : Step → Session × Except Fault Answer
  | .check program => s.performCheck do Check.program program; pure .done
  | .exec program => s.performExec do Exec.program program; pure .done
  | .typeOf expr => s.performCheck do return .type (← Check.typeOf expr)
  | .valueOf expr => s.performExec do return .value (← Exec.valueOf expr)
  | .openScope .check => s.performCheck do Check.openScope; pure .done
  | .openScope .exec => s.performExec do Exec.openScope; pure .done
  | .closeScope .check => s.performCheck do Check.closeScope; pure .done
  | .closeScope .exec => s.performExec do Exec.closeScope; pure .done

end Session

end BlockLang

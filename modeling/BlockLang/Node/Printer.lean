import BlockLang.Node

/-!
# Printed trees

A tree is printed as nested terms. Identifiers, literals, operators and type words are
printed by their bare text, places are left out, and a list stands between brackets.
-/

namespace BlockLang.Node

mutual

/-- The printed form of a tree. -/
def render : Node → String
  | .program stmts => "Program(" ++ renderList stmts ++ ")"
  | .block _ stmts => "Block(" ++ renderList stmts ++ ")"
  | .varDecl type name _ init =>
    "VarDecl(" ++ type.text ++ " " ++ name.text ++ " = " ++ init.render ++ ")"
  | .assign name _ value => "Assign(" ++ name.text ++ " = " ++ value.render ++ ")"
  | .conditional _ cond _ body =>
    "If(" ++ cond.render ++ ", then=Block(" ++ renderList body ++ "))"
  | .print _ value => "Print(" ++ value.render ++ ")"
  | .binary op left right =>
    "BinOp(" ++ left.render ++ " " ++ op.text ++ " " ++ right.render ++ ")"
  | .ident name => "Ident(" ++ name.text ++ ")"
  | .intLit literal => "Int(" ++ literal.text ++ ")"
  | .boolLit literal => "Bool(" ++ literal.text ++ ")"
  | .token t => t.render
  | .absent => "None"

def renderList : List Node → String
  | [] => "[]"
  | first :: rest => "[" ++ first.render ++ renderRest rest ++ "]"

/-- The printed form of the trees after the first of a list. -/
def renderRest : List Node → String
  | [] => ""
  | next :: rest => ", " ++ next.render ++ renderRest rest

end

end BlockLang.Node

import BlockLang.Token

/-!
# Program trees

Trees are loose: any node may stand where a statement or an expression is expected, and
it is up to checking and execution to refuse a node of the wrong sort. Only the body of
a conditional is always a block, so the conditional holds the block's brace and
statements itself. Two nodes never come from source text: a bare token and the absent
node.
-/

namespace BlockLang

/-- A node of a program tree, with the tokens that messages refer to: a program that stands
inside another tree, the five statements, the four expressions, a bare token, and no node at
all. -/
inductive Node
  | program (stmts : List Node)
  | block (brace : Token) (stmts : List Node)
  | varDecl (type name equals : Token) (init : Node)
  | assign (name equals : Token) (value : Node)
  | conditional (paren : Token) (cond : Node) (brace : Token) (body : List Node)
  | print (word : Token) (value : Node)
  | binary (op : Token) (left right : Node)
  | ident (name : Token)
  | intLit (literal : Token)
  | boolLit (literal : Token)
  | token (token : Token)
  | absent
deriving Repr

namespace Node

/-- The name of a node's sort in messages. -/
def sort : Node → String
  | .program _ => "Program"
  | .block _ _ => "Block"
  | .varDecl _ _ _ _ => "VarDecl"
  | .assign _ _ _ => "AssignStmt"
  | .conditional _ _ _ _ => "IfStmt"
  | .print _ _ => "PrintStmt"
  | .binary _ _ _ => "BinOp"
  | .ident _ => "Ident"
  | .intLit _ => "IntLiteral"
  | .boolLit _ => "BoolLiteral"
  | .token _ => "SourceToken"
  | .absent => "NoneType"

mutual

/-- Whether two trees are equal in every token. -/
def same : Node → Node → Bool
  | .program ss, .program ss' => sameAll ss ss'
  | .block b ss, .block b' ss' => b == b' && sameAll ss ss'
  | .varDecl t n e v, .varDecl t' n' e' v' => t == t' && n == n' && e == e' && v.same v'
  | .assign n e v, .assign n' e' v' => n == n' && e == e' && v.same v'
  | .conditional p c b ss, .conditional p' c' b' ss' =>
    p == p' && c.same c' && b == b' && sameAll ss ss'
  | .print w v, .print w' v' => w == w' && v.same v'
  | .binary o l r, .binary o' l' r' => o == o' && l.same l' && r.same r'
  | .ident t, .ident t' => t == t'
  | .intLit t, .intLit t' => t == t'
  | .boolLit t, .boolLit t' => t == t'
  | .token t, .token t' => t == t'
  | .absent, .absent => true
  | _, _ => false

def sameAll : List Node → List Node → Bool
  | [], [] => true
  | n :: ns, n' :: ns' => n.same n' && sameAll ns ns'
  | _, _ => false

end

mutual

theorem same_iff : ∀ (a b : Node), a.same b = true ↔ a = b
  | .program ss, b => by cases b <;> simp [same, sameAll_iff ss]
  | .block _ ss, b => by cases b <;> simp [same, sameAll_iff ss]
  | .varDecl _ _ _ v, b => by cases b <;> simp [same, same_iff v, and_assoc]
  | .assign _ _ v, b => by cases b <;> simp [same, same_iff v, and_assoc]
  | .conditional _ c _ ss, b => by
    cases b <;> simp [same, same_iff c, sameAll_iff ss, and_assoc]
  | .print _ v, b => by cases b <;> simp [same, same_iff v]
  | .binary _ l r, b => by cases b <;> simp [same, same_iff l, same_iff r, and_assoc]
  | .ident _, b => by cases b <;> simp [same]
  | .intLit _, b => by cases b <;> simp [same]
  | .boolLit _, b => by cases b <;> simp [same]
  | .token _, b => by cases b <;> simp [same]
  | .absent, b => by cases b <;> simp [same]

theorem sameAll_iff : ∀ (as bs : List Node), sameAll as bs = true ↔ as = bs
  | [], bs => by cases bs <;> simp [sameAll]
  | a :: as, bs => by cases bs <;> simp [sameAll, same_iff a, sameAll_iff as]

end

instance : DecidableEq Node := fun a b =>
  decidable_of_iff (a.same b = true) (same_iff a b)

end Node

structure Program where
  stmts : List Node
deriving DecidableEq, Repr

namespace Program

/-- The program as a node of a tree. -/
def toNode (p : Program) : Node := .program p.stmts

end Program

end BlockLang

import BlockLang.Token

/-!
# Lexemes

A lexeme is a token together with its kind. The kinds are numbers, identifiers, the six
reserved words and the punctuation of the language.
-/

namespace BlockLang

namespace Lexeme

inductive Kind
  | identifier
  | number
  | plus
  | minus
  | intWord
  | booleanWord
  | ifWord
  | printWord
  | trueWord
  | falseWord
  | equals
  | semicolon
  | leftParen
  | rightParen
  | leftBrace
  | rightBrace
deriving DecidableEq, Repr

namespace Kind

/-- The name of a kind in messages. Punctuation other than the operators names itself. -/
def label : Kind → String
  | .identifier => "IDENT"
  | .number => "INT"
  | .plus => "PLUS"
  | .minus => "MINUS"
  | .intWord => "INT_TYPE"
  | .booleanWord => "BOOLEAN_TYPE"
  | .ifWord => "IF"
  | .printWord => "PRINT"
  | .trueWord => "TRUE"
  | .falseWord => "FALSE"
  | .equals => "="
  | .semicolon => ";"
  | .leftParen => "("
  | .rightParen => ")"
  | .leftBrace => "\x7b"
  | .rightBrace => "\x7d"

/-- The kind of a word: reserved words have kinds of their own, and every other word is
an identifier. -/
def ofWord (word : String) : Kind :=
  if word = "int" then .intWord
  else if word = "boolean" then .booleanWord
  else if word = "if" then .ifWord
  else if word = "print" then .printWord
  else if word = "true" then .trueWord
  else if word = "false" then .falseWord
  else .identifier

def ofChar? : Char → Option Kind
  | '+' => some .plus
  | '-' => some .minus
  | '=' => some .equals
  | ';' => some .semicolon
  | '(' => some .leftParen
  | ')' => some .rightParen
  | '\x7b' => some .leftBrace
  | '\x7d' => some .rightBrace
  | _ => none

end Kind

end Lexeme

/-- A token of a known kind. -/
structure Lexeme where
  kind : Lexeme.Kind
  token : Token
deriving DecidableEq, Repr

end BlockLang

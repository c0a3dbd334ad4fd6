import BlockLang.Text.Quoted

/-!
# Types

The language has two types, written `int` and `boolean`. A type description also covers
the type of an expression whose type is lost to an earlier error; that one matches
nothing, itself included, so that an error is not reported twice.
-/

namespace BlockLang

namespace Ty

/-- The kind of a type description: a type of the language, no type because of an error, or
any other kind, which is known by its label. -/
inductive Kind
  | prim
  | error
  | other (label : String)
deriving DecidableEq, Repr

def Kind.ofLabel (label : String) : Kind :=
  if label = "prim" then .prim else if label = "error" then .error else .other label

end Ty

/-- A type description: its kind and, for a type of the language, its name. -/
structure Ty where
  kind : Ty.Kind
  name : Option String
deriving DecidableEq, Repr

namespace Ty

def int : Ty := ⟨.prim, some "int"⟩

def boolean : Ty := ⟨.prim, some "boolean"⟩

/-- The type of an expression that has an error in it. -/
def error : Ty := ⟨.error, none⟩

def isError (t : Ty) : Bool :=
  t.kind == .error

/-- Whether a value of one type may stand where the other is expected. -/
def isMatch (t u : Ty) : Bool :=
  !t.isError && !u.isError && t == u

def render (t : Ty) : String :=
  match t.kind with
  | .prim =>
    match t.name with
    | none => "unknown"
    | some name => if name = "" then "unknown" else name
  | .error => "<error>"
  | .other label => label

/-- The type that a type word denotes. -/
def ofWord? (word : String) : Option Ty :=
  if word = "int" then some .int
  else if word = "boolean" then some .boolean
  else none

@[simp] theorem isError_error : error.isError = true := rfl

@[simp] theorem isError_int : int.isError = false := rfl

@[simp] theorem isError_boolean : boolean.isError = false := rfl

end Ty

end BlockLang

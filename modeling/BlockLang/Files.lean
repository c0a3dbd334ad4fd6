import BlockLang.Text.Quoted

/-!
# Files

What the library needs to know of files: which paths lead to a file, which to a
directory, and why the others lead nowhere. Paths are texts with slashes between their
segments. `Path.tidy` drops segments that change nothing, and two slashes at the front
are kept apart from one.
-/

namespace BlockLang

inductive Entry
  | file (bytes : List UInt8)
  | directory
deriving DecidableEq, Repr

/-- Why a path cannot be followed or opened: nothing is there, a segment before the end leads to
a file, the whole path leads to a directory, the path or a segment of it is too long, or there is
a null character in it. -/
inductive PathError
  | missing
  | notDirectory
  | isDirectory
  | tooLong
  | nullCharacter
deriving DecidableEq, Repr

namespace PathError

/-- The class under which the failure is reported. -/
def label : PathError → String
  | .missing => "FileNotFoundError"
  | .notDirectory => "NotADirectoryError"
  | .isDirectory => "IsADirectoryError"
  | .tooLong => "OSError"
  | .nullCharacter => "ValueError"

def message (path : String) : PathError → String
  | .missing => "[Errno 2] No such file or directory: " ++ Text.quoted path
  | .notDirectory => "[Errno 20] Not a directory: " ++ Text.quoted path
  | .isDirectory => "[Errno 21] Is a directory: " ++ Text.quoted path
  | .tooLong => "[Errno 36] File name too long: " ++ Text.quoted path
  | .nullCharacter => "embedded null byte"

end PathError

/-- The files that can be reached: what each path leads to. -/
structure Files where
  find : String → Except PathError Entry

namespace Path

/-- The texts between the slashes of a path, which may be empty. -/
def segments : List Char → List (List Char)
  | [] => [[]]
  | c :: rest =>
    if c = '/' then [] :: segments rest
    else match segments rest with
      | [] => [[c]]
      | first :: others => (c :: first) :: others

/-- Whether a segment leads elsewhere than to the directory it stands in. -/
def isProper (segment : List Char) : Bool :=
  segment != [] && segment != ['.']

/-- The slashes that stand before a path without superfluous segments. -/
def root : List Char → String
  | '/' :: '/' :: '/' :: _ => "/"
  | '/' :: '/' :: _ => "//"
  | '/' :: _ => "/"
  | _ => ""

/-- The path without superfluous segments and slashes. The path to the current directory
is a dot. -/
def tidy (path : String) : String :=
  let text := path.toList
  let proper := (segments text).filter isProper
  let tidied := root text ++ String.intercalate "/" (proper.map String.ofList)
  if tidied = "" then "." else tidied

end Path

end BlockLang

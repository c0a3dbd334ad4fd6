import BlockLang.Run

/-!
# The command line

The arguments that do not start with two hyphens are source files, which are run one
after another; `--echo` shows each source before it runs. A file that cannot be run does
not keep the others from running, but decides the exit status.
-/

namespace BlockLang.CommandLine

/-- Whether an argument is an option and no file. -/
def isOption (argument : String) : Bool :=
  match argument.toList with
  | '-' :: '-' :: _ => true
  | _ => false

def usageText : String :=
  "\nminilang 命令行解释器\n" ++
  "用法: minilang <源文件路径> [<源文件路径> ...] [--echo]\n" ++
  "\n" ++
  "示例:\n" ++
  "    minilang programs/scoping.lang\n" ++
  "    minilang programs/*.lang --echo\n" ++
  "    python3 minilang.py programs/arithmetic.lang\n" ++
  "\n" ++
  "\nArguments:\n" ++
  "  source   - program file(s) to check and run (.lang)\n" ++
  "  --echo   - print each program before running it\n"

/-- Runs a source file that exists. The finishing line is written whatever happens, and
a source that is no program is reported before it. The answer is whether checking found
no problem. -/
def runExisting (files : Files) (echo : Bool) (path : String) : Run Bool := fun console =>
  let started := { console with stdout := console.stdout ++ "START: " ++ path ++ "\n" }
  let finish (c : Console) : Console :=
    { c with stdout := c.stdout ++ "FINISH: " ++ path ++ "\n" }
  match Run.source files ⟨echo, .stdout⟩ (.file path) started with
  | .ok result c => .ok result.ok (finish c)
  | .error (.malformed e) c =>
    .ok false (finish { c with stdout := c.stdout ++ "✗ Syntax error: " ++ e.message ++ "\n" })
  | .error e c => .error e (finish c)

/-- Runs a source file, if there is one. -/
def runFile (files : Files) (echo : Bool) (path : String) : Run Bool :=
  match files.find (Path.tidy path) with
  | .ok (.file _) => runExisting files echo path
  | .ok .directory => do
    Run.writeOut ("✗ Error: source path is not a file: " ++ path ++ "\n")
    pure false
  | .error .tooLong => throw (.path .tooLong (Path.tidy path))
  | .error _ => do
    Run.writeOut ("✗ Error: source file does not exist: " ++ path ++ "\n")
    pure false

def failureText (path : String) (e : RunError) : String :=
  "\n✗ Failed to run " ++ path ++ "!\n  Error: " ++ e.message ++ "\n"

/-- What is written to the error output about a failed run in debug mode: the first and the last
line of a traceback. The lines between them, which name the frames of the running command line
itself, are left out. -/
def debugText (e : RunError) : String :=
  "Traceback (most recent call last):\n" ++ e.label ++ ": " ++ e.message ++ "\n"

/-- Runs a source file and reports a failure of the run. The answer is whether the file
was found and run without any problem, together with what is on the console then. -/
def attempt (files : Files) (debug echo : Bool) (console : Console) (path : String) :
    Bool × Console :=
  match runFile files echo path console with
  | .ok passed c => (passed, c)
  | .error e c =>
    (false,
      { c with
        stdout := c.stdout ++ failureText path e
        stderr := if debug then c.stderr ++ debugText e else c.stderr })

def attemptAll (files : Files) (debug echo : Bool) (console : Console) :
    List String → Bool × Console
  | [] => (true, console)
  | path :: rest =>
    let (passed, console) := attempt files debug echo console path
    let (restPassed, console) := attemptAll files debug echo console rest
    (passed && restPassed, console)

/-- Runs the command line with the given arguments. The exit status is zero if every
file was found and run without any problem. Without a file there is only the usage text.
-/
def run (files : Files) (debug : Bool) (arguments : List String) : UInt32 × Console :=
  let paths := arguments.filter (!isOption ·)
  if paths.isEmpty then (1, { Console.empty with stdout := usageText })
  else
    let (passed, console) :=
      attemptAll files debug (arguments.contains "--echo") Console.empty paths
    (if passed then 0 else 1, console)

/-- Whether the value of the debug variable, if it is set, turns debug mode on. -/
def debugMode : Option String → Bool
  | none => false
  | some value => value != ""

end BlockLang.CommandLine

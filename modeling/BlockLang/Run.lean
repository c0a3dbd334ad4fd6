import BlockLang.Check
import BlockLang.Exec
import BlockLang.Files
import BlockLang.Program.Parse
import BlockLang.Text.Utf8

/-!
# Running sources

A run reads a source, parses it, checks the program and executes it if checking found no
problem. What it writes goes to a console of three texts: the output, the error output,
and a stream for printed lines when those are kept apart from the output. A run that
fails keeps what it wrote before.
-/

namespace BlockLang

/-- Why a run fails: the source is no program, a pass over the program ended early, or the
source file is not encoded as it should be or cannot be opened. -/
inductive RunError
  | malformed (e : SyntaxError)
  | fault (f : Fault)
  | encoding (flaw : Text.Utf8.Flaw)
  | path (e : PathError) (path : String)
deriving DecidableEq, Repr

namespace RunError

/-- The class under which the failure is reported. -/
def label : RunError → String
  | .malformed _ => "SyntaxError"
  | .fault f => f.label
  | .encoding _ => "UnicodeDecodeError"
  | .path e _ => e.label

def message : RunError → String
  | .malformed e => e.message
  | .fault f => f.message
  | .encoding flaw => flaw.message
  | .path e target => e.message target

end RunError

structure Console where
  stdout : String
  stderr : String
  stream : String
deriving DecidableEq, Repr

def Console.empty : Console := ⟨"", "", ""⟩

/-- Where printed lines go: to the output, or to a stream of their own. -/
inductive Sink
  | stdout
  | stream
deriving DecidableEq, Repr

structure Settings where
  echo : Bool
  sink : Sink
deriving DecidableEq, Repr

/-- What is run: a text that is the source unless it names a file, or a file. -/
inductive Source
  | text (text : String)
  | file (path : String)
deriving DecidableEq, Repr

/-- The outcome of a run that does not fail: the diagnostics, the printed lines, and
whether the program was executed. -/
structure RunResult where
  diagnostics : List Diagnostic
  output : List String
  executed : Bool
deriving DecidableEq, Repr

/-- Whether checking found no problem. -/
def RunResult.ok (r : RunResult) : Bool :=
  r.diagnostics.isEmpty

/-- A step of a run, which writes to the console and may fail. -/
abbrev Run := EStateM RunError Console

namespace Run

def writeOut (text : String) : Run Unit :=
  modify fun c => { c with stdout := c.stdout ++ text }

def writeErr (text : String) : Run Unit :=
  modify fun c => { c with stderr := c.stderr ++ text }

def writePrinted (sink : Sink) (text : String) : Run Unit :=
  match sink with
  | .stdout => writeOut text
  | .stream => modify fun c => { c with stream := c.stream ++ text }

/-- The source text in the bytes of a file. -/
def decodeFile (bytes : List UInt8) : Except RunError String :=
  match Text.Utf8.decode bytes with
  | .ok text => .ok (String.ofList (Text.unifyLineEnds text))
  | .error flaw => .error (.encoding flaw)

/-- The source text of what is run. -/
def read (files : Files) : Source → Except RunError String
  | .text text =>
    match files.find text with
    | .ok (.file bytes) => decodeFile bytes
    | _ => .ok text
  | .file path =>
    match files.find (Path.tidy path) with
    | .ok (.file bytes) => decodeFile bytes
    | .ok .directory => .error (.path .isDirectory (Path.tidy path))
    | .error e => .error (.path e (Path.tidy path))

/-- The source as it is shown before it runs. -/
def echoText (code : String) : String :=
  "\n--- CODE ---\n" ++ code ++ "\n------------\n\n"

/-- The status line of a program with problems. -/
def refusedText : String :=
  "[minilang] Semantic errors found; the program will not be executed.\n"

/-- The status line of a program without problems. -/
def acceptedText : String :=
  "[minilang] Semantic analysis succeeded. Running program...\n"

/-- The diagnostics as they are shown for a source. -/
def diagnosticsText (code : String) (diagnostics : List Diagnostic) : String :=
  String.join ((Diagnostic.renderAll code diagnostics).map (· ++ "\n"))

/-- Executes a checked program. Its printed lines are written also if it fails. -/
def execute (sink : Sink) (program : Program) : Run RunResult :=
  match Exec.program program .initial with
  | .ok _ executor => do
    writePrinted sink executor.stream
    pure ⟨[], executor.output.toList, true⟩
  | .error fault executor => do
    writePrinted sink executor.stream
    throw (.fault fault)

/-- Checks a program, and executes it if checking finds no problem. -/
def checkAndExecute (sink : Sink) (code : String) (program : Program) : Run RunResult :=
  match Check.program program .initial with
  | .error fault _ => throw (.fault fault)
  | .ok _ checker =>
    if checker.hasErrors then do
      writeOut refusedText
      writeErr (diagnosticsText code checker.diagnostics)
      pure ⟨checker.diagnostics, [], false⟩
    else do
      writeOut acceptedText
      execute sink program

def text (settings : Settings) (code : String) : Run RunResult := do
  if settings.echo then writeOut (echoText code)
  match Program.parse code with
  | .error e => throw (.malformed e)
  | .ok program => checkAndExecute settings.sink code program

def source (files : Files) (settings : Settings) (s : Source) : Run RunResult :=
  match read files s with
  | .error e => throw e
  | .ok code => text settings code

end Run

end BlockLang

import BlockLang.CommandLine
import BlockLang.Proofs.Stages

/-!
# Command lines

The files of a command line are run one after another on one console. A run adds to the
texts of the console and never looks at them: like execution on a stream, it commutes with
putting other texts before them. Hence the console of a command line is what its files
would have written one by one, and nothing of one run is left to the next.

What is written about one file has a frame. `CommandLine.stdout_of_file` gives it for the
files that exist, whatever their runs come to, and the other arguments leave no starting
line at all.
-/

namespace BlockLang

open Step (Commutes)

namespace Step

variable {ε σ α : Type}

/-- The end of a step with an answer or a failure, in the given state. -/
def ending (answer : Except ε α) (s : σ) : EStateM.Result ε σ α :=
  match answer with
  | .ok a => .ok a s
  | .error e => .error e s

@[simp] theorem endState_ending (answer : Except ε α) (s : σ) :
    endState (ending answer s) = s := by
  cases answer <;> rfl

@[simp] theorem onState_ending (g : σ → σ) (answer : Except ε α) (s : σ) :
    onState g (ending answer s) = ending answer (g s) := by
  cases answer <;> rfl

@[simp] theorem endState_onState (g : σ → σ) (result : EStateM.Result ε σ α) :
    endState (onState g result) = g (endState result) := by
  cases result <;> rfl

end Step

namespace Console

/-- The console on which the texts of one stand before those of the other. -/
def append (a b : Console) : Console :=
  ⟨a.stdout ++ b.stdout, a.stderr ++ b.stderr, a.stream ++ b.stream⟩

instance : Append Console := ⟨append⟩

@[simp] theorem stdout_append (a b : Console) : (a ++ b).stdout = a.stdout ++ b.stdout := rfl

@[simp] theorem stderr_append (a b : Console) : (a ++ b).stderr = a.stderr ++ b.stderr := rfl

@[simp] theorem stream_append (a b : Console) : (a ++ b).stream = a.stream ++ b.stream := rfl

theorem append_mk (a : Console) (stdout stderr stream : String) :
    a ++ ⟨stdout, stderr, stream⟩ =
      ⟨a.stdout ++ stdout, a.stderr ++ stderr, a.stream ++ stream⟩ := rfl

@[simp] theorem append_empty (a : Console) : a ++ empty = a := by
  simp [empty, append_mk]

theorem append_assoc (a b c : Console) : a ++ b ++ c = a ++ (b ++ c) := by
  obtain ⟨stdout, stderr, stream⟩ := c
  simp [append_mk, String.append_assoc]

/-- The console on which several stand one after another. -/
def join (consoles : List Console) : Console :=
  consoles.foldr (· ++ ·) empty

theorem stdout_join (consoles : List Console) :
    (join consoles).stdout = String.join (consoles.map stdout) := by
  induction consoles with
  | nil => rfl
  | cons first rest ih =>
      rw [List.map_cons, String.join_cons, ← ih]
      rfl

theorem stderr_join (consoles : List Console) :
    (join consoles).stderr = String.join (consoles.map stderr) := by
  induction consoles with
  | nil => rfl
  | cons first rest ih =>
      rw [List.map_cons, String.join_cons, ← ih]
      rfl

end Console

namespace Run

variable {old : Console}

theorem commutes_writeOut (text : String) : Commutes (old ++ ·) (writeOut text) := by
  apply Commutes.modify
  intro console
  simp [Console.append_mk, String.append_assoc]

theorem commutes_writeErr (text : String) : Commutes (old ++ ·) (writeErr text) := by
  apply Commutes.modify
  intro console
  simp [Console.append_mk, String.append_assoc]

theorem commutes_writePrinted (sink : Sink) (text : String) :
    Commutes (old ++ ·) (writePrinted sink text) := by
  cases sink with
  | stdout => exact commutes_writeOut text
  | stream =>
      apply Commutes.modify
      intro console
      simp [Console.append_mk, String.append_assoc]

theorem commutes_execute (sink : Sink) (p : Program) : Commutes (old ++ ·) (execute sink p) := by
  unfold execute
  split
  · exact (commutes_writePrinted sink _).bind fun _ => .pure _
  · exact (commutes_writePrinted sink _).bind fun _ => .throw _

theorem commutes_checkAndExecute (sink : Sink) (code : String) (p : Program) :
    Commutes (old ++ ·) (checkAndExecute sink code p) := by
  unfold checkAndExecute
  split
  · exact .throw _
  · split
    · apply (commutes_writeOut _).bind
      intro _
      exact (commutes_writeErr _).bind fun _ => .pure _
    · exact (commutes_writeOut _).bind fun _ => commutes_execute sink p

theorem commutes_text (settings : Settings) (code : String) :
    Commutes (old ++ ·) (text settings code) := by
  intro console
  have moved : shown settings.echo code (old ++ console) =
      old ++ shown settings.echo code console := by
    simp [shown, Console.append_mk, String.append_assoc]
  rw [text_eq, text_eq, moved]
  cases Program.parse code with
  | error e => rfl
  | ok p => exact commutes_checkAndExecute _ code p _

/-- A run does not depend on what is on the console before. -/
theorem commutes_source (files : Files) (settings : Settings) (s : Source) :
    Commutes (old ++ ·) (source files settings s) := by
  unfold source
  split
  · exact .throw _
  · exact commutes_text settings _

end Run

namespace CommandLine

variable {files : Files} {debug echo : Bool} {path : String} {old console : Console}

/-- The line that is written before a file is run. -/
def startLine (path : String) : String := "START: " ++ path ++ "\n"

/-- The line that is written after a file was run. -/
def finishLine (path : String) : String := "FINISH: " ++ path ++ "\n"

/-- What is written about the outcome of a run before the finishing line: the complaint about
a source that is no program. -/
def complaint : EStateM.Result RunError Console RunResult → String
  | .error (.malformed e) _ => "✗ Syntax error: " ++ e.message ++ "\n"
  | _ => ""

/-- The answer about a file, given the outcome of its run. -/
def answer : EStateM.Result RunError Console RunResult → Except RunError Bool
  | .ok result _ => .ok result.ok
  | .error (.malformed _) _ => .ok false
  | .error e _ => .error e

theorem complaint_onState (g : Console → Console)
    (outcome : EStateM.Result RunError Console RunResult) :
    complaint (Step.onState g outcome) = complaint outcome := by
  rcases outcome with ⟨result, c⟩ | ⟨_ | _ | _ | _, c⟩ <;> rfl

theorem answer_onState (g : Console → Console)
    (outcome : EStateM.Result RunError Console RunResult) :
    answer (Step.onState g outcome) = answer outcome := by
  rcases outcome with ⟨result, c⟩ | ⟨_ | _ | _ | _, c⟩ <;> rfl

/-- A file that exists is run between the starting line and the finishing line. -/
theorem runExisting_eq : runExisting files echo path console =
    let outcome := Run.source files ⟨echo, .stdout⟩ (.file path)
      (console ++ ⟨startLine path, "", ""⟩)
    Step.ending (answer outcome)
      (Step.endState outcome ++ ⟨complaint outcome ++ finishLine path, "", ""⟩) := by
  have started : { console with stdout := console.stdout ++ "START: " ++ path ++ "\n" } =
      console ++ ⟨startLine path, "", ""⟩ := by
    simp [Console.append_mk, startLine, String.append_assoc]
  have finished (c : Console) (text : String) :
      { c with stdout := c.stdout ++ text ++ "FINISH: " ++ path ++ "\n" } =
        c ++ ⟨text ++ finishLine path, "", ""⟩ := by
    simp only [Console.append_mk, finishLine, String.append_assoc, String.append_empty]
  have plain (c : Console) := finished c ""
  simp only [String.append_empty] at plain
  simp only [runExisting, started]
  generalize Run.source files ⟨echo, .stdout⟩ (.file path)
    (console ++ ⟨startLine path, "", ""⟩) = outcome
  rcases outcome with ⟨result, c⟩ | ⟨e | f | flaw | ⟨e, target⟩, c⟩
  · exact congrArg _ (plain c)
  · have complained := finished c ("✗ Syntax error: " ++ e.message ++ "\n")
    rw [← String.append_assoc, ← String.append_assoc] at complained
    exact congrArg _ complained
  · exact congrArg _ (plain c)
  · exact congrArg _ (plain c)
  · exact congrArg _ (plain c)

theorem commutes_runExisting : Commutes (old ++ ·) (runExisting files echo path) := by
  intro console
  have moved := @Run.commutes_source old files ⟨echo, .stdout⟩ (.file path)
    (console ++ ⟨startLine path, "", ""⟩)
  rw [runExisting_eq, runExisting_eq, Console.append_assoc, moved]
  simp only [answer_onState, complaint_onState, Step.endState_onState, Step.onState_ending,
    Console.append_assoc]

theorem commutes_runFile : Commutes (old ++ ·) (runFile files echo path) := by
  unfold runFile
  split
  · exact commutes_runExisting
  · exact (Run.commutes_writeOut _).bind fun _ => .pure _
  · exact .throw _
  · exact (Run.commutes_writeOut _).bind fun _ => .pure _

/-- What is written about a file goes to the end of the console, and does not depend on what
is on it before. -/
theorem attempt_append : attempt files debug echo (old ++ console) path =
    ((attempt files debug echo console path).1,
      old ++ (attempt files debug echo console path).2) := by
  unfold attempt
  rw [commutes_runFile]
  cases runFile files echo path console with
  | ok passed c => rfl
  | error e c => cases debug <;> simp [Step.onState, Console.append_mk, String.append_assoc]

theorem attempt_eq : attempt files debug echo console path =
    ((attempt files debug echo .empty path).1,
      console ++ (attempt files debug echo .empty path).2) := by
  rw [← attempt_append, Console.append_empty]

/-- Several files are run as each of them would be run alone. -/
theorem attemptAll_eq (paths : List String) : attemptAll files debug echo console paths =
    (paths.all fun path => (attempt files debug echo .empty path).1,
      console ++ .join (paths.map fun path => (attempt files debug echo .empty path).2)) := by
  induction paths generalizing console with
  | nil => simp [attemptAll, Console.join]
  | cons path rest ih =>
      simp only [attemptAll, ih, List.all_cons, List.map_cons]
      rw [attempt_eq, Console.append_assoc]
      rfl

section Alone

variable {arguments alone : List String}

/-- A command line with one file runs that file. -/
theorem run_alone (isFile : isOption path = false)
    (placed : alone.Perm (path :: arguments.filter isOption)) :
    run files debug alone =
      (if (attempt files debug (arguments.contains "--echo") .empty path).1 then 0 else 1,
        (attempt files debug (arguments.contains "--echo") .empty path).2) := by
  have onlyPath : alone.filter (!isOption ·) = [path] := by
    have filtered := placed.filter (!isOption ·)
    simpa [isFile, List.filter_filter] using filtered
  have sameEcho : alone.contains "--echo" = arguments.contains "--echo" := by
    have isEcho : isOption "--echo" = true := by cbv
    have different : "--echo" ≠ path := by
      rintro rfl
      rw [isEcho] at isFile
      cases isFile
    rw [Bool.eq_iff_iff, List.contains_iff_mem, List.contains_iff_mem, placed.mem_iff]
    simp [different, isEcho]
  simp only [run, onlyPath, sameEcho, attemptAll]
  simp

end Alone

section Frame

/-- What a run of the file by itself writes to the output, and the complaint about a source
that is no program. -/
def printed (files : Files) (echo : Bool) (path : String) : String :=
  let outcome := Run.source files ⟨echo, .stdout⟩ (.file path) .empty
  (Step.endState outcome).stdout ++ complaint outcome

/-- What is written about a file that exists begins with the starting line and ends with the
finishing line, whatever the run comes to. -/
theorem stdout_of_file (stored : ∃ bytes, files.find (Path.tidy path) = .ok (.file bytes)) :
    (Step.endState (runFile files echo path console)).stdout =
      console.stdout ++ (startLine path ++ printed files echo path ++ finishLine path) := by
  obtain ⟨bytes, stored⟩ := stored
  have alone := @Run.commutes_source (console ++ ⟨startLine path, "", ""⟩) files
    ⟨echo, .stdout⟩ (.file path) .empty
  simp only [Console.append_empty] at alone
  simp only [runFile, stored, runExisting_eq, alone, printed, complaint_onState,
    Step.endState_onState, Step.endState_ending, Console.stdout_append, String.append_assoc]

/-- A line that ends with a path holds no starting line of the path, if the starting line
cannot begin before the path. -/
theorem not_startLine_infix {lead : String} (plain : 'S' ∉ lead.toList) :
    ¬ (startLine path).toList <:+: (lead ++ path ++ "\n").toList := by
  rintro ⟨before, after, same⟩
  have opening : "START: ".toList = 'S' :: "TART: ".toList := by decide
  simp only [startLine, String.toList_append, List.append_assoc, opening] at same
  rcases List.append_eq_append_iff.mp same with ⟨between, parts, rest⟩ | ⟨between, rfl, rest⟩
  · cases between with
    | nil =>
        have lengths := congrArg List.length rest
        simp at lengths
        omega
    | cons c between =>
        obtain ⟨rfl, _⟩ := List.cons.inj rest
        exact plain (by simp [parts])
  · have lengths := congrArg List.length rest
    simp at lengths
    omega

/-- What is written about an argument that is no file holds no starting line. -/
theorem stdout_of_no_file (none : ¬ ∃ bytes, files.find (Path.tidy path) = .ok (.file bytes)) :
    ∃ written, (Step.endState (runFile files echo path console)).stdout =
        console.stdout ++ written ∧ ¬ (startLine path).toList <:+: written.toList := by
  have notEmpty : ¬ (startLine path).toList <:+: "".toList := by
    simp [startLine]
  have missing : 'S' ∉ "✗ Error: source file does not exist: ".toList := by decide
  have noFile : 'S' ∉ "✗ Error: source path is not a file: ".toList := by decide
  cases found : files.find (Path.tidy path) with
  | ok entry =>
      simp only [runFile, found]
      cases entry with
      | file bytes => exact absurd ⟨bytes, found⟩ none
      | directory => exact ⟨_, rfl, not_startLine_infix noFile⟩
  | error e =>
      simp only [runFile, found]
      cases e with
      | tooLong => exact ⟨"", String.append_empty.symm, notEmpty⟩
      | _ => exact ⟨_, rfl, not_startLine_infix missing⟩

end Frame

/-- The files of a command line, and what comes of running them. -/
theorem run_eq {arguments : List String}
    (given : ∃ argument ∈ arguments, isOption argument = false) :
    run files debug arguments =
      let (passed, console) := attemptAll files debug (arguments.contains "--echo") .empty
        (arguments.filter (!isOption ·))
      (if passed then 0 else 1, console) := by
  have some : (arguments.filter (!isOption ·)).isEmpty = false := by
    obtain ⟨argument, member, isFile⟩ := given
    rw [List.isEmpty_eq_false_iff_exists_mem]
    exact ⟨argument, List.mem_filter.mpr ⟨member, by simp [isFile]⟩⟩
  simp only [run, some, Bool.false_eq_true, if_false]

end CommandLine

/-- Files are run independently. Let a command line have at least one file. What it writes to
the output is what the command lines write that have one of its files each and all of its
options, in any order, and so is what it writes to the error output. It exits with zero if and
only if they all do. For each file the starting line is written if and only if the file
exists; then all that its run writes comes after this line, and after all of it comes the
finishing line, whatever the run comes to. -/
theorem files_run_independently {arguments : List String}
    (given : ∃ argument ∈ arguments, CommandLine.isOption argument = false)
    (alone : String → List String)
    (placed : ∀ path ∈ arguments, CommandLine.isOption path = false →
      (alone path).Perm (path :: arguments.filter CommandLine.isOption))
    (files : Files) (debug : Bool) :
    let paths := arguments.filter (!CommandLine.isOption ·)
    let singles := paths.map fun path => CommandLine.run files debug (alone path)
    let all := CommandLine.run files debug arguments
    all.2.stdout = String.join (singles.map fun single => single.2.stdout) ∧
    all.2.stderr = String.join (singles.map fun single => single.2.stderr) ∧
    (all.1 = 0 ↔ ∀ single ∈ singles, single.1 = 0) ∧
    ∀ path echo console, ∃ written,
      (Step.endState (CommandLine.runFile files echo path console)).stdout =
        console.stdout ++ written ∧
      ((CommandLine.startLine path).toList <:+: written.toList ↔
        ∃ bytes, files.find (Path.tidy path) = .ok (.file bytes)) ∧
      ((∃ bytes, files.find (Path.tidy path) = .ok (.file bytes)) →
        written = CommandLine.startLine path ++ CommandLine.printed files echo path ++
          CommandLine.finishLine path) := by
  intro paths singles all
  let attempted := fun path =>
    CommandLine.attempt files debug (arguments.contains "--echo") .empty path
  have each : singles = paths.map fun path =>
      (if (attempted path).1 then 0 else 1, (attempted path).2) := by
    apply List.map_congr_left
    intro path member
    obtain ⟨within, isFile⟩ := List.mem_filter.mp member
    rw [Bool.not_eq_true'] at isFile
    exact CommandLine.run_alone isFile (placed path within isFile)
  have whole : all = (if paths.all fun path => (attempted path).1 then 0 else 1,
      Console.empty ++ .join (paths.map fun path => (attempted path).2)) := by
    simp only [all, CommandLine.run_eq given, CommandLine.attemptAll_eq]
    rfl
  refine ⟨?_, ?_, ?_, ?_⟩
  · rw [whole, each, Console.stdout_append, Console.stdout_join]
    simp [Console.empty, Function.comp_def]
  · rw [whole, each, Console.stderr_append, Console.stderr_join]
    simp [Console.empty, Function.comp_def]
  · rw [whole, each]
    simp
  · intro path echo console
    by_cases stored : ∃ bytes, files.find (Path.tidy path) = .ok (.file bytes)
    · refine ⟨_, CommandLine.stdout_of_file stored, ⟨fun _ => stored, fun _ => ?_⟩, fun _ => rfl⟩
      rw [String.append_assoc, String.toList_append]
      exact (List.prefix_append _ _).isInfix
    · obtain ⟨written, appended, none⟩ := CommandLine.stdout_of_no_file stored
      exact ⟨written, appended, ⟨fun shown => absurd shown none, fun h => absurd h stored⟩,
        fun h => absurd h stored⟩

theorem files_run_independently_mixed :
    let all := CommandLine.run .mixed true ["src/a", "--echo", "b", "src/a"]
    let first := CommandLine.run .mixed true ["--echo", "src/a"]
    let second := CommandLine.run .mixed true ["--echo", "b"]
    all.2.stdout = first.2.stdout ++ second.2.stdout ++ first.2.stdout ∧
    (all.1 = 0 ↔ first.1 = 0 ∧ second.1 = 0) ∧
    ∃ written, (CommandLine.startLine "b").toList <:+: written.toList ∧
      (Step.endState (CommandLine.runFile .mixed true "b" .empty)).stdout = "" ++ written ∧
      written = CommandLine.startLine "b" ++ CommandLine.printed .mixed true "b" ++
        CommandLine.finishLine "b" := by
  intro all first second
  have options :
      ["src/a", "--echo", "b", "src/a"].filter CommandLine.isOption = ["--echo"] := by cbv
  have paths : ["src/a", "--echo", "b", "src/a"].filter (!CommandLine.isOption ·) =
      ["src/a", "b", "src/a"] := by cbv
  have isFile : CommandLine.isOption "b" = false := by cbv
  have stored : ∃ bytes, Files.mixed.find (Path.tidy "b") = .ok (.file bytes) := by
    have tidied : Path.tidy "b" = "b" := by cbv
    exact ⟨[0xed, 0xa0, 0x80], by simp [tidied, Files.mixed]⟩
  have given : ∃ argument ∈ ["src/a", "--echo", "b", "src/a"],
      CommandLine.isOption argument = false := ⟨"b", by simp, isFile⟩
  obtain ⟨output, _, status, lines⟩ := files_run_independently given (fun path => ["--echo", path])
    (fun path _ _ => options ▸ .swap _ _ []) .mixed true
  obtain ⟨written, appended, started, framed⟩ := lines "b" true .empty
  rw [paths] at output status
  refine ⟨?_, ?_, written, started.mpr stored, appended, framed stored⟩
  · simpa [String.append_assoc] using output
  · simp only [List.map_cons, List.map_nil, List.forall_mem_cons, List.not_mem_nil] at status
    exact status.trans ⟨fun h => ⟨h.1, h.2.1⟩, fun h => ⟨h.1, h.2, h.1, fun _ none => none.elim⟩⟩

end BlockLang

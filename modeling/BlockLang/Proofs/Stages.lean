import BlockLang.Run
import BlockLang.Proofs.Completion
import BlockLang.Proofs.FileSources
import BlockLang.Proofs.Sessions

/-!
# The stages of a run

A run of a source text reads a program, checks it and executes it, and each stage decides
whether there is a next one. `source_runs_in_stages` says for every text at which stage its
run ends and what the console holds then.

The printed lines of a program go to a stream that may hold other text already. Execution
does not look at that text: it commutes with putting a text before all that is on the
stream. So the stages can be described by an execution on a stream of its own, and what that
one has printed when it ends, also if it fails, is what the run has added to the stream.
-/

namespace BlockLang

namespace Step

variable {ε σ α β : Type} {g : σ → σ}

/-- The outcome of a step with a change made to the state it ends in. -/
def onState (g : σ → σ) : EStateM.Result ε σ α → EStateM.Result ε σ α
  | .ok a s => .ok a (g s)
  | .error e s => .error e (g s)

/-- The step does the same whether a change of the state is made before it or after it. -/
def Commutes (g : σ → σ) (step : EStateM ε σ α) : Prop :=
  ∀ s, step (g s) = onState g (step s)

namespace Commutes

theorem pure (a : α) : Commutes g (pure a : EStateM ε σ α) := fun _ => rfl

theorem throw (e : ε) : Commutes g (throw e : EStateM ε σ α) := fun _ => rfl

theorem modify {h : σ → σ} (same : ∀ s, h (g s) = g (h s)) :
    Commutes g (modify h : EStateM ε σ PUnit) := by
  intro s
  simp only [modify_apply, same, onState]

theorem bind {x : EStateM ε σ α} {f : α → EStateM ε σ β} (first : Commutes g x)
    (second : ∀ a, Commutes g (f a)) : Commutes g (x >>= f) := by
  intro s
  change EStateM.bind x f (g s) = onState g (EStateM.bind x f s)
  unfold EStateM.bind
  rw [first s]
  cases x s with
  | ok a t => exact second a t
  | error e t => rfl

end Commutes

end Step

open Step (Commutes)

/-- The executor whose stream held a text before all that is on it. -/
def Executor.after (e : Executor) (text : String) : Executor :=
  { e with stream := text ++ e.stream }

namespace Exec

variable {text : String}

theorem commutes_openScope : Commutes (·.after text) openScope := .modify fun _ => rfl

theorem commutes_closeScope : Commutes (·.after text) closeScope := .modify fun _ => rfl

theorem commutes_valueOf (node : Node) : Commutes (·.after text) (valueOf node) := by
  intro e
  simp only [valueOf, Step.get_bind_apply, Executor.after]
  cases evaluate e.scopes node with
  | ok value => rfl
  | error f => rfl

theorem commutes_declare (word name : Token) (value : Int) :
    Commutes (·.after text) (declare word name value) := by
  unfold declare
  cases Ty.ofWord? word.text with
  | none => exact .throw _
  | some type =>
      intro e
      simp only [Step.get_bind_apply, Executor.after]
      cases e.scopes.insert? ⟨name.text, type, name, some value⟩ with
      | none => rfl
      | some scopes => rfl

theorem commutes_assign (name : Token) (value : Int) :
    Commutes (·.after text) (assign name value) := by
  intro e
  simp only [assign, Step.get_bind_apply, Executor.after]
  cases e.scopes.setValue? name.text (some value) with
  | none => rfl
  | some scopes => rfl

/-- A line is added at the end of the stream. -/
theorem commutes_print (value : Int) : Commutes (·.after text) (print value) := by
  unfold print
  cases Numeral.write? value with
  | none => exact .throw _
  | some line =>
      apply Commutes.modify
      intro e
      simp only [Executor.after, Executor.printLine, String.append_assoc]

theorem commutes_braces {step : Exec Unit} (h : Commutes (·.after text) step) :
    Commutes (·.after text) (do openScope; step; closeScope) :=
  commutes_openScope.bind fun _ => h.bind fun _ => commutes_closeScope

theorem commutes_statement {stmt : Node}
    (body : Commutes (·.after text) (statements stmt.body)) :
    Commutes (·.after text) (statement stmt) := by
  cases stmt with
  | varDecl word name equals init =>
      simp only [statement]
      exact (commutes_valueOf init).bind fun value => commutes_declare word name value
  | assign name equals node =>
      simp only [statement]
      exact (commutes_valueOf node).bind fun value => commutes_assign name value
  | print word node =>
      simp only [statement]
      exact (commutes_valueOf node).bind fun value => commutes_print value
  | conditional paren cond brace stmts =>
      simp only [statement]
      apply (commutes_valueOf cond).bind
      intro value
      split
      · exact commutes_braces body
      · exact .pure ()
  | block brace stmts =>
      simp only [statement]
      exact commutes_braces body
  | _ =>
      simp only [statement]
      exact .throw _

/-- Execution does not depend on what the stream holds before. -/
theorem commutes_statements (stmts : List Node) :
    Commutes (·.after text) (statements stmts) := by
  induction stmts using Node.list_induction with
  | nil =>
      simp only [statements]
      exact .pure _
  | cons stmt rest body_ih rest_ih =>
      simp only [statements]
      exact (commutes_statement body_ih).bind fun _ => rest_ih

/-- Execution on a stream that holds a text already. -/
theorem program_on_stream (p : Program) (text : String) :
    Exec.program p { Executor.initial with stream := text } =
      Step.onState (·.after text) (Exec.program p .initial) := by
  have start : { Executor.initial with stream := text } = Executor.initial.after text := by
    simp [Executor.after, Executor.initial]
  rw [start]
  exact commutes_statements p.stmts .initial

/-- The stream of an execution shows the lines it has printed, wherever it ends. -/
theorem program_streamed (p : Program) :
    (Step.endState (Exec.program p .initial)).Streamed :=
  keeps_of_changes Change.streamed (makes_statements p.stmts .initial) rfl

end Exec

/-- There are diagnostics if a problem was reported. -/
theorem Checker.hasErrors_iff {c : Checker} : c.hasErrors = true ↔ c.diagnostics ≠ [] := by
  simp [Checker.hasErrors, Checker.diagnostics]

namespace Run

variable {echo : Bool} {sink : Sink} {code : String} {console : Console} {p : Program}
  {c : Checker}

/-- The console after the source was shown on it, if it is to be shown. -/
def shown (echo : Bool) (code : String) (console : Console) : Console :=
  { console with stdout := console.stdout ++ if echo then echoText code else "" }

/-- The console after diagnostics were shown on it. -/
def refused (code : String) (diagnostics : List Diagnostic) (console : Console) : Console :=
  { console with
    stdout := console.stdout ++ refusedText
    stderr := console.stderr ++ String.join (diagnostics.map fun d => d.render code ++ "\n") }

/-- The console after an execution that ended with some printed lines, which go to the
stream. -/
def accepted (output : List String) (console : Console) : Console :=
  { console with
    stdout := console.stdout ++ acceptedText
    stream := console.stream ++ String.join (output.map (· ++ "\n")) }

/-- The source is shown before it is read. -/
theorem text_eq : text ⟨echo, sink⟩ code console =
    (match Program.parse code with
    | .error e => throw (.malformed e)
    | .ok p => checkAndExecute sink code p : Run RunResult) (shown echo code console) := by
  unfold text
  cases echo with
  | true => rfl
  | false =>
      have same : shown false code console = console := by simp [shown]
      rw [same]
      rfl

theorem text_of_malformed {e : SyntaxError} (parsed : Program.parse code = .error e) :
    text ⟨echo, sink⟩ code console = .error (.malformed e) (shown echo code console) := by
  rw [text_eq, parsed]
  rfl

theorem text_of_parse (parsed : Program.parse code = .ok p) :
    text ⟨echo, sink⟩ code console = checkAndExecute sink code p (shown echo code console) := by
  rw [text_eq, parsed]

theorem checkAndExecute_of_diagnostics (checked : Check.program p .initial = .ok () c)
    (problems : c.diagnostics ≠ []) :
    checkAndExecute sink code p console =
      .ok ⟨c.diagnostics, [], false⟩ (refused code c.diagnostics console) := by
  have shownText : diagnosticsText code c.diagnostics =
      String.join (c.diagnostics.map fun d => d.render code ++ "\n") := by
    rw [diagnosticsText, Diagnostic.renderAll_eq_map, List.map_map]
    rfl
  simp only [checkAndExecute, checked, Checker.hasErrors_iff.mpr problems, if_true, refused,
    ← shownText]
  rfl

theorem accepted_eq {e : Executor} (streamed : e.Streamed) :
    accepted e.output.toList console =
      { console with
        stdout := console.stdout ++ acceptedText
        stream := console.stream ++ e.stream } := by
  rw [accepted, show e.stream = _ from streamed]

theorem checkAndExecute_of_clean (checked : Check.program p .initial = .ok () c)
    (clean : c.diagnostics = []) :
    checkAndExecute sink code p console =
      execute sink p { console with stdout := console.stdout ++ acceptedText } := by
  have noErrors : ¬ c.hasErrors = true := fun h => Checker.hasErrors_iff.mp h clean
  simp only [checkAndExecute, checked, if_neg noErrors]
  rfl

theorem checkAndExecute_of_ok {e : Executor} (checked : Check.program p .initial = .ok () c)
    (clean : c.diagnostics = []) (ran : Exec.program p .initial = .ok () e) :
    checkAndExecute .stream code p console =
      .ok ⟨[], e.output.toList, true⟩ (accepted e.output.toList console) := by
  have streamed : e.Streamed := by
    simpa only [ran, Step.endState] using Exec.program_streamed p
  simp only [checkAndExecute_of_clean checked clean, execute, ran, accepted_eq streamed]
  rfl

theorem checkAndExecute_of_error {f : Fault} {e : Executor}
    (checked : Check.program p .initial = .ok () c) (clean : c.diagnostics = [])
    (ran : Exec.program p .initial = .error f e) :
    checkAndExecute .stream code p console =
      .error (.fault f) (accepted e.output.toList console) := by
  have streamed : e.Streamed := by
    simpa only [ran, Step.endState] using Exec.program_streamed p
  simp only [checkAndExecute_of_clean checked clean, execute, ran, accepted_eq streamed]
  rfl

/-- What a run without a failure has come to: diagnostics, or an execution. -/
theorem ok_iff_executed {result : RunResult} {console' : Console}
    (checked : Check.program p .initial = .ok () c)
    (returned : checkAndExecute .stream code p console = .ok result console') :
    result.ok = true ↔ result.executed = true := by
  by_cases clean : c.diagnostics = []
  · cases ran : Exec.program p .initial with
    | ok _ e =>
        cases (checkAndExecute_of_ok checked clean ran).symm.trans returned
        exact ⟨fun _ => rfl, fun _ => rfl⟩
    | error f e => cases (checkAndExecute_of_error checked clean ran).symm.trans returned
  · cases (checkAndExecute_of_diagnostics checked clean).symm.trans returned
    simpa [RunResult.ok] using clean

end Run

/-- The stages of a run. Let a text that is not the name of a file be run, with a stream for
the printed lines. If it is no program, the run fails with the syntax error, and at most the
source was shown. A program is always checked to its end. If there are diagnostics, they are
the result and are shown one after another on the error output, each with a line feed after
it; nothing is executed and the stream is as it was. Otherwise the run ends as the execution
of the program does, the lines printed until then are added to the stream, each with a line
feed after it, and nothing is added to the error output. Execution is the same whatever the
stream holds. So a run without a failure is without problems if and only if the program was
executed. -/
theorem source_runs_in_stages {files : Files} {code : String}
    (notFile : ∀ bytes, files.find code ≠ .ok (.file bytes)) (echo : Bool) (console : Console) :
    let run := Run.source files ⟨echo, .stream⟩ (.text code) console
    let shown := console.stdout ++ if echo then Run.echoText code else ""
    (∀ e, Program.parse code = .error e →
      run = .error (.malformed e) { console with stdout := shown }) ∧
    (∀ p, Program.parse code = .ok p → ∃ c, Check.program p .initial = .ok () c ∧
      (c.diagnostics ≠ [] →
        run = .ok ⟨c.diagnostics, [], false⟩
          ⟨shown ++ Run.refusedText,
            console.stderr ++ String.join (c.diagnostics.map fun d => d.render code ++ "\n"),
            console.stream⟩) ∧
      (c.diagnostics = [] →
        let after (e : Executor) : Console :=
          ⟨shown ++ Run.acceptedText, console.stderr,
            console.stream ++ String.join (e.output.toList.map (· ++ "\n"))⟩
        (∀ e, Exec.program p .initial = .ok () e →
          run = .ok ⟨[], e.output.toList, true⟩ (after e)) ∧
        ∀ f e, Exec.program p .initial = .error f e → run = .error (.fault f) (after e)) ∧
      ∀ text, Exec.program p { Executor.initial with stream := text } =
        Step.onState (fun e => { e with stream := text ++ e.stream })
          (Exec.program p .initial)) ∧
    ∀ result console', run = .ok result console' →
      (result.ok = true ↔ result.executed = true) := by
  intro run shown
  have asText : run = Run.text ⟨echo, .stream⟩ code console :=
    congrFun (Run.source_text notFile) console
  cases parsed : Program.parse code with
  | error e =>
      have failed := asText.trans (Run.text_of_malformed parsed)
      refine ⟨?_, nofun, ?_⟩
      · rintro _ ⟨⟩
        exact failed
      · intro result console' returned
        cases failed.symm.trans returned
  | ok p =>
      have goesOn := asText.trans (Run.text_of_parse parsed)
      obtain ⟨c, checked, _⟩ := Check.completes_of_parse parsed
      refine ⟨nofun, ?_, ?_⟩
      · rintro _ ⟨⟩
        refine ⟨c, checked, ?_, ?_, Exec.program_on_stream p⟩
        · intro problems
          exact goesOn.trans (Run.checkAndExecute_of_diagnostics checked problems)
        · intro clean
          refine ⟨?_, ?_⟩
          · intro e ran
            exact goesOn.trans (Run.checkAndExecute_of_ok checked clean ran)
          · intro f e ran
            exact goesOn.trans (Run.checkAndExecute_of_error checked clean ran)
      · intro result console' returned
        exact Run.ok_iff_executed checked (goesOn.symm.trans returned)

/-- No files at all. -/
def Files.none : Files := ⟨fun _ => .error .missing⟩

/-- The source text of a program that checking has no objection to and that fails after it
has printed a line. -/
def haltingSource : String :=
  "print(7);\n\x7b int x = x; \x7d\nprint(8);"

/-- The program of `haltingSource`. -/
def Program.halting : Program where
  stmts := [
    .print ⟨"print", 1, 0⟩ (.intLit ⟨"7", 1, 6⟩),
    .block ⟨"\x7b", 2, 0⟩
      [.varDecl ⟨"int", 2, 2⟩ ⟨"x", 2, 6⟩ ⟨"=", 2, 8⟩ (.ident ⟨"x", 2, 10⟩)],
    .print ⟨"print", 3, 0⟩ (.intLit ⟨"8", 3, 6⟩)]

theorem parse_haltingSource : Program.parse haltingSource = .ok .halting := by
  cbv

theorem source_runs_in_stages_halting :
    (∀ bytes, Files.none.find haltingSource ≠ .ok (.file bytes)) ∧
    Run.source .none ⟨false, .stream⟩ (.text haltingSource) ⟨"old", "", "old\n"⟩ =
      .error (.fault (.unbound "x")) ⟨"old" ++ Run.acceptedText, "", "old\n7\n"⟩ := by
  have notFile : ∀ bytes, Files.none.find haltingSource ≠ .ok (.file bytes) := nofun
  obtain ⟨_, ofProgram, _⟩ := source_runs_in_stages notFile false ⟨"old", "", "old\n"⟩
  obtain ⟨c, checked, _, ofClean, _⟩ := ofProgram _ parse_haltingSource
  cases checked
  obtain ⟨_, failed⟩ := ofClean rfl
  exact ⟨notFile, failed _ _ rfl⟩

end BlockLang

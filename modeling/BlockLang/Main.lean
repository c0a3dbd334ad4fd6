import BlockLang.CommandLine

/-!
# The program

The outer layer: it looks up the files that the arguments name, runs the command line on
what it found, writes the console and gives the exit status.
-/

namespace BlockLang.CommandLine

/-- Looks up what a path leads to. -/
def lookUp (path : String) : IO (Except PathError Entry) := do
  try
    let bytes ← IO.FS.readBinFile path
    return .ok (.file bytes.data.toList)
  catch
    | .inappropriateType none _ _ => return .ok .directory
    | .inappropriateType (some _) _ _ => return .error .notDirectory
    | .invalidArgument _ _ _ =>
      return .error (if path.toList.contains '\x00' then .nullCharacter else .tooLong)
    | _ => return .error .missing

/-- Looks up every file among the arguments. -/
def lookUpAll (arguments : List String) : IO Files := do
  let paths := (arguments.filter (!isOption ·)).map Path.tidy
  let found ← paths.mapM fun path => return (path, ← lookUp path)
  return ⟨fun path => (found.lookup path).getD (.error .missing)⟩

end BlockLang.CommandLine

open BlockLang in
/-- Runs the command line. -/
def main (arguments : List String) : IO UInt32 := do
  let files ← CommandLine.lookUpAll arguments
  let debug := CommandLine.debugMode (← IO.getEnv "MINILANG_DEBUG")
  let (status, console) := CommandLine.run files debug arguments
  IO.print console.stdout
  IO.eprint console.stderr
  return status

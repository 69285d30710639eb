import TaskShell.App.Home

/-!
# The command line

Runs the shell on the terminal. Files that the command line names are read
before, and files that the session made are written after it.
-/

namespace TaskShell

def knownVariables : List String :=
  ["HOME", "PATH", "USER", "USERNAME", "LOGNAME", "COLUMNS", "TIMESTAMP",
    "UNICODE_VERSION"]

def readVariables : IO Env := do
  let found ← knownVariables.mapM fun name => do
    return (← IO.getEnv name).map fun value => (name, value)
  return found.filterMap id

def readGiven (p : String) : IO (Option (String × List UInt8)) := do
  try
    return some (p, (← IO.FS.readBinFile p).toList)
  catch _ => return none

def flushOutput (w : World) : IO World := do
  (← IO.getStdout).putStr w.out
  (← IO.getStdout).flush
  (← IO.getStderr).putStr w.err
  return { w with out := "", err := "" }

/-- Reads lines and runs them until one asks to leave. As in `App.converse`, a
failure ends the session, be it that of a line or that of looking up the working
directory for the prompt; gives the exit code. -/
partial def talk (w : World) : IO (Nat × World) := do
  match (Files.workingDir w).1 with
  | .error f =>
    IO.eprintln f.message
    return (1, w)
  | .ok cwd =>
    (← IO.getStdout).putStr (App.promptIn cwd)
    (← IO.getStdout).flush
    let line ← (← IO.getStdin).getLine
    let text := line.dropEndWhile (· == '\n') |>.toString
    if line.isEmpty || App.leavingWords.contains (Text.lower text)
      then return (0, w)
    let (outcome, w) := Shell.dispatch text w
    let w ← flushOutput w
    match outcome with
    | .ok _ => talk w
    | .error f =>
      IO.eprintln f.message
      return (1, w)

end TaskShell

open TaskShell in
def main (args : List String) : IO UInt32 := do
  let cwd := (← IO.currentDir).toString
  let env ← readVariables
  let files := (← args.mapM readGiven).filterMap id
  let clock := (← IO.monoMsNow).toFloat / 1000.0
  let now : Calendar.Stamp := ⟨1970, 1, 1, 0, 0, 0, 0⟩
  let start :=
    App.homeWorld env cwd files (App.quietHost clock now (env.get? "USER") cwd)
  let (course, w) := App.startPlain false args [] start
  let w ← flushOutput w
  let (code, w) ← match course with
    | .ok ⟨_, .exit code, _⟩ => pure (code, w)
    | .ok _ => talk w
    | .error f => do
      IO.eprintln f.message
      pure (1, w)
  for (p, data) in App.changedFiles start.disk w.disk do
    IO.FS.writeBinFile p ⟨data.toArray⟩
  return code.toUInt32

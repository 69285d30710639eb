import TaskShell.Shell.Command

/-!
# Workers

Tasks wait in a queue. A worker takes them one after the other and puts the
result of each, with its own number, into a queue of results. A task that fails
has the message of its failure as its result.
-/

namespace TaskShell.Shell

def addTask (command : String) (args : Args) : Act Unit :=
  modify fun w => { w with tasks := w.tasks ++ [⟨command, .record args⟩] }

def runTask (worker : Nat) (task : Task) : Act Value := do
  match Command.ofName? task.command with
  | some c =>
    Act.orElse (runCommand task.command c task.args) fun f =>
      pure (.text s!"Fehler bei {task.command}: {f.message}")
  | none =>
    logDebug s!"Worker {worker} kennt Command '{task.command}' nicht"
    pure (.text s!"Unbekanntes Kommando: {task.command}")

/-- Runs tasks one after the other with `runTask`; each leaves a result. -/
def runTasks (worker : Nat) : List Task → Act Unit
  | [] => pure ()
  | task :: rest => do
    let v ← runTask worker task
    modify fun w => { w with results := w.results ++ [(worker, v)] }
    runTasks worker rest

def runWaiting : Act Unit := do
  let tasks := (← get).tasks
  modify fun w => { w with tasks := [] }
  runTasks 0 tasks

/-- Lets the worker run what it runs beside the shell after a part of a line, by
the `Pace`. -/
def runBeside : Act Unit := do
  let w ← get
  let n := w.pace.beside w.parts
  modify fun w => { w with tasks := w.tasks.drop n, parts := w.parts + 1 }
  runTasks 0 (w.tasks.take n)

/-- Waits for a result (`runWaiting`) and takes it from the queue; nothing if
none is to come. -/
def takeResult : Act (Option (Nat × Value)) := do
  runWaiting
  match (← get).results with
  | [] => pure none
  | r :: rest =>
    modify fun w => { w with results := rest }
    pure (some r)

/-- `takeResult`, but not beyond the time limit. -/
def takeInTime : Act (Option (Nat × Value)) := do
  let w ← get
  modify fun w => { w with waits := w.waits + 1 }
  if w.results.isEmpty && w.pace.late w.waits then pure none else takeResult

def waitForAll : Act Unit := do
  runWaiting
  logDebug "Alle Aufgaben erledigt"

def takeResults : Act (List (Nat × Value)) := do
  let results := (← get).results
  modify fun w => { w with results := [] }
  pure results

/-- Stops the worker. On its way out it puts its last result into the queue once
more; one that never had a result puts none. -/
def stopWorker (last : Option (Nat × Value)) : Act Unit :=
  modify fun w => { w with results := w.results ++ last.toList }

/-- Runs tasks, waits for them and takes their results; then `stopWorker` and
takes what that leaves. -/
def runAll (tasks : List Task) :
    Act (List (Nat × Value) × List (Nat × Value)) := do
  modify fun w => { w with tasks := w.tasks ++ tasks }
  waitForAll
  let results ← takeResults
  stopWorker results.getLast?
  let left ← takeResults
  pure (results, left)

end TaskShell.Shell

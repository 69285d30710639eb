import TaskShell.Shell.Alias
import TaskShell.Shell.Chain
import TaskShell.Shell.Worker

/-!
# Lines of input

A line is expanded by aliases and then does one of these: it switches debug
messages, starts a program, splits into several commands for the workers, runs a
chain, runs a builtin, or becomes a task for a worker. Whatever it gives to
workers it asks back at its end: a line has a first half, which says how many
results it asks for, and a second half, which fetches them.
-/

namespace TaskShell.Shell

open Text

/-! ## Showing results -/

def workerTag (label : String) : String := s!"[Worker {label}]"

/-- Shows the text of a value; on demand under a heading of its own. -/
def showResult (v : Value) (label : String) (heading : Bool) : Act Unit := do
  match v with
  | .null => pure ()
  | v =>
    let s := v.display
    let tag := workerTag label
    if (← get).quiet then Act.printLine s
    else if heading then do
      log s!"{tag} Ergebnis:"
      log s
    else
      for l in lines s do log s!"{tag} {l}"

def showLines (v : Value) (label : String) : Act Unit := do
  if v.isTruthy then
    let tag := workerTag label
    let quiet := (← get).quiet
    for l in lines v.display do
      if quiet then Act.printLine l else log s!"{tag} {l}"

/-- Shows what a program wrote, after what went wrong with it. -/
def showOutput (out err fault : Value) (label : String) : Act Unit := do
  showLines fault label
  showLines out label
  showLines err label

/-! ## Lines -/

def quietLines : List String := ["!suppressdebug", "!suppress-debug"]

/-- Lines that let debug messages pass again. -/
def loudLines : List String :=
  ["!resumedebug", "!enabledebug", "!unsuppressdebug"]

/-- What follows the first `n` characters of a line, without blanks around
it. -/
def remainder (line : String) (n : Nat) : String :=
  trim (String.ofList (line.toList.drop n))

def noteTask (line : String) : Act Unit :=
  logDebug s!"Enqueue: {Paint.paintLine line}"

/-- Runs a line in the other shell (`runOtherShell`), and tells how it ended. -/
def dispatchOther (line : String) : Act Unit := do
  if line.isEmpty then logDebug "Keine pwsh Anweisung angegeben."
  else
    let outcome ← runOtherShell line otherShellLimit
    match outcome with
    | .ok code => logDebug s!"pwsh exited: {code}"
    | .error f => showResult (.text s!"pwsh failed: {f.message}") "shell" false

/-- Refuses a line for the system's shell, which cannot be run. -/
def dispatchSystem (line : String) : Act Unit := do
  if line.isEmpty then
    showResult (.text "Keine cmd-Anweisung angegeben.") "shell" false
  else Act.fail (.missingOperation "modules.shell_executor" "run_cmd")

def shellWords : List String := ["!pwsh", "!cmd"]

def runShellPart (shell line : String) : Act Unit := do
  if line.isEmpty then
    showResult (.text s!"Keine {shell} Anweisung angegeben.") "shell" false
  else
    let outcome ← if shell == "!pwsh" then runOtherShell line otherShellLimit
      else runProgramLine line none
    match outcome with
    | .ok code => logDebug s!"{shell} exited: {code}"
    | .error f => showResult (.text s!"shell failed: {f.message}") "shell" false

/-- Runs one part of a line with several commands; gives the number of tasks it
added. -/
def dispatchPart (shell : Option String) (part : String) : Act Nat := do
  let words := Words.splitOrBlanks part
  match words with
  | [] => pure 0
  | first :: rest =>
    match shell with
    | some shell =>
      runShellPart shell (trim (" ".intercalate words))
      pure 0
    | none =>
      if shellWords.contains first then
        runShellPart first (trim (" ".intercalate rest))
        pure 0
      else
        let inner ← runInner words (some part)
        match inner with
        | some value =>
          noteTask (first ++ " " ++ value)
          addTask first [("str", .text value)]
          pure 1
        | none =>
          let args := argsOf words
          let handled ← callBuiltin first args
          match handled with
          | some out =>
            if out.isTruthy then showResult out "sync" false
            pure 0
          | none =>
            let env := (← get).env
            noteTask part
            addTask first (expandArgs env args)
            pure 1

/-- Runs the parts of a line one after the other with `dispatchPart`, and the
worker beside them; gives the number of tasks they added. -/
def dispatchParts (shell : Option String) : List String → Act Nat
  | [] => pure 0
  | part :: rest => do
    let n ← dispatchPart shell part
    runBeside
    let m ← dispatchParts shell rest
    pure (n + m)

def partsOf (line : String) : List String :=
  ((pieces '&' line).map trim).filter (!·.isEmpty)

/-- The results that a line asks for once it has done all else. -/
inductive Demand where
  | nothing
  /-- The results of the parts of a line, as many as they added tasks. -/
  | several (n : Nat)
  | single
  deriving DecidableEq, Repr

/-- Runs the parts of a line with several commands (`partsOf`,
`dispatchParts`). -/
def postMany (line : String) : Act Demand := do
  if line.isEmpty then
    logDebug "Keine Unterbefehle angegeben."
    pure .nothing
  else
    let shell := (Words.splitOrBlanks line).head?.filter shellWords.contains
    let rest := match shell with
      | some s => remainder line s.length
      | none => line
    match partsOf rest with
    | [] =>
      logDebug "Keine Unterbefehle angegeben."
      pure .nothing
    | parts =>
      let n ← dispatchParts shell parts
      logDebug s!"Added {n} tasks (multithread)"
      pure (.several n)

def postTask (line command : String) (args : Args) : Act Demand := do
  let env := (← get).env
  noteTask line
  addTask command (expandArgs env args)
  pure .single

/-- Runs a line with one command, or gives it to a worker. -/
def postOne (line command : String) (words : List String) : Act Demand := do
  let composed ← runComposed command words (some line)
  match composed with
  | some s =>
    showResult (.text s) "sync" true
    pure .nothing
  | none =>
    let args := argsOf words
    let handled ← callBuiltin command args
    match handled with
    | some out =>
      if out.isTruthy then showResult out "sync" false
      pure .nothing
    | none => postTask line command args

def switchDebug (quiet : Bool) : Act Demand := do
  modify fun w => { w with quiet := quiet }
  Act.printLine (if quiet then "Debug suppressed for this session."
    else "Debug resumed for this session.")
  pure .nothing

/-- Runs a line whose aliases are expanded, up to the point where it waits for
workers: `postMany` or `postOne`. -/
def postExpanded (line : String) : Act Demand := do
  let plain := lower (trim line)
  if quietLines.contains plain then switchDebug true
  else if loudLines.contains plain then switchDebug false
  else
    match Words.splitOrBlanks line with
    | [] => pure .nothing
    | command :: rest =>
      let after := remainder line command.length
      if command == "!pwsh" then
        dispatchOther after
        pure .nothing
      else if command == "!cmd" then
        dispatchSystem after
        pure .nothing
      else if command == "!multithread" || command == "!mt" then postMany after
      else postOne line command (command :: rest)

/-- Runs a line of input with `postExpanded`, up to the point where it waits for
workers. -/
def post (line : String) : Act Demand := do
  if line.toList.all isBlank then pure .nothing
  else
    let expanded := expandAliases (← get).aliases aliasDepth line
    if expanded != line then logDebug s!"Alias expanded: {line} -> {expanded}"
    postExpanded expanded

/-- Fetches the results of the parts of a line with `takeInTime`, and shows
them. -/
def showResults : Nat → Act Unit
  | 0 => pure ()
  | n + 1 => do
    let result ← takeInTime
    match result with
    | some (worker, v) => showResult v (toString worker) true
    | none => logDebug "Keine Antwort vom Worker erhalten (Timeout)."
    showResults n

/-- Fetches the result of the one task of a line with `takeResult` and shows
it. -/
def showOnly : Act Unit := do
  let result ← takeResult
  match result with
  | none => log "Keine Antwort vom Worker erhalten (Timeout). Fehler: "
  | some (worker, v) =>
    if (← get).quiet then Act.printLine v.display
    else do
      log s!"{workerTag (toString worker)} Ergebnis:"
      log v.display

/-- Fetches the results that a `Demand` asks for and shows them. -/
def collectResults : Demand → Act Unit
  | .nothing => pure ()
  | .several n => showResults n
  | .single => showOnly

def dispatch (line : String) : Act Unit := do
  let demand ← post line
  collectResults demand

end TaskShell.Shell

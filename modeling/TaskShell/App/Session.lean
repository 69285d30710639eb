import TaskShell.App.Binary
import TaskShell.App.CommandLine
import TaskShell.App.History

/-!
# Sessions

A session runs a script, bundles one, runs a bundle, or reads line after line
from a line editor until one of them asks to leave.
-/

namespace TaskShell.App

open Text

inductive Entry where
  | line (text : String)
  | nothing
  | interrupted
  | ended
  deriving DecidableEq, Repr

inductive Ending where
  | exit (code : Nat)
  | left
  | endOfInput
  deriving DecidableEq, Repr

def leavingWords : List String := ["exit", "quit"]

/-- The course of a session: the prompts that were shown, how it ended, and what
the editor has kept. -/
structure Course (σ : Type) where
  prompts : List String
  ending : Ending
  editor : σ

def Course.after {σ : Type} (prompt : String) (c : Course σ) : Course σ :=
  { c with prompts := prompt :: c.prompts }

def promptIn (cwd : String) : String := s!"LUW {cwd}: "

/-- Reads lines with an editor and runs them with `Shell.dispatch`, one for each
input. -/
def converse {σ α : Type} (read : α → σ → Act (Entry × σ)) :
    List α → σ → Act (Course σ)
  | [], s => do
    return ⟨[promptIn (← Files.workingDir)], .endOfInput, s⟩
  | a :: rest, s => do
    let prompt := promptIn (← Files.workingDir)
    let (entry, s) ← read a s
    match entry with
    | .ended => return ⟨[prompt], .endOfInput, s⟩
    | .nothing => return (← converse read rest s).after prompt
    | .interrupted =>
      Act.printLine ""
      return (← converse read rest s).after prompt
    | .line text =>
      if leavingWords.contains (lower text) then return ⟨[prompt], .left, s⟩
      else
        Shell.dispatch text
        return (← converse read rest s).after prompt

/-- Writes down where the program is, once. -/
def writeConfig : Act Unit := do
  let w ← get
  let config := Shell.configPath w.toSite
  let program ← absolutePath programName
  if !Files.exist w config then
    Files.writeText config (program ++ "\n")
    Act.printLine s!"Pfad gespeichert: {program}"

def greet : Act Unit := do
  log "LUW Shell"
  log "NOT AN OFFICIAL MICROSOFT PRODUCT"

def compileReported (p : String) : Act Unit :=
  Act.orElse
    (do
      let out ← compile p none
      log s!"Compiled {p} -> {out}"
      Act.printLine out)
    fun f => do
      log s!"Compilation failed: {f.message}"
      Act.printLine s!"Compilation failed: {f.message}"

def runBundleReported (p : String) : Act Unit :=
  Act.orElse (do let _ ← runBundle p; pure ()) fun f => do
    log s!"Failed to run binary {p}: {f.message}"
    Act.printLine s!"Failed to run binary {p}: {f.message}"

/-- Does what the `Orders` ask for; without an order to run something holds a
conversation. -/
def serve {σ : Type} (orders : Orders) (s : σ) (talk : Act (Course σ)) :
    Act (Course σ) := do
  match orders.script, orders.compile, orders.binary with
  | some p, _, _ =>
    log s!"Running script: {p}"
    greet
    runScriptLogged p
    return ⟨[], .exit 0, s⟩
  | none, some p, _ =>
    greet
    compileReported p
    return ⟨[], .exit 0, s⟩
  | none, none, some p =>
    greet
    runBundleReported p
    return ⟨[], .exit 0, s⟩
  | none, none, none =>
    greet
    talk

/-- Starts the shell with the words of a command line. `editor` sets a line
editor up and `finish` is done with it at the end, if the session does not
fail. -/
def start {σ α : Type} (first : Bool) (words : List String) (idle : σ)
    (editor : Act σ)
    (read : α → σ → Act (Entry × σ)) (finish : σ → Act Unit) (inputs : List α) :
    Act (Course σ) := do
  if first then writeConfig
  let columns := Options.terminalColumns (← get).env
  let outcome := readOrders columns words
  modify fun w => { w with
    out := w.out ++ outcome.console.out, err := w.err ++ outcome.console.err }
  match outcome.orders with
  | .error code => return ⟨[], .exit code, idle⟩
  | .ok orders =>
    if orders.script.isSome then serve orders idle (pure ⟨[], .left, idle⟩)
    else
      let s ← editor
      let course ← serve orders s (converse read inputs s)
      finish course.editor
      return course

def readPlain (entry : Entry) (_ : Unit) : Act (Entry × Unit) :=
  pure (entry, ())

/-- `start` with a line editor that keeps no history. -/
def startPlain (first : Bool) (words : List String) (inputs : List Entry) :
    Act (Course Unit) :=
  start first words () (pure ()) readPlain pure inputs

/-- Reads a line and keeps it in the history with `remember`. -/
def readKept (entry : Entry) (entered : List String) :
    Act (Entry × List String) :=
  match entry with
  | .line text => pure (entry, remember entered text)
  | _ => pure (entry, entered)

/-- `start` with a line editor that keeps its history in a file. -/
def startKept (first : Bool) (words : List String) (inputs : List Entry) :
    Act (Course (List String)) := do
  let path := historyPath (← get).toSite
  start first words [] (loadHistory path) readKept (fun entered =>
    saveHistory path entered) inputs

end TaskShell.App

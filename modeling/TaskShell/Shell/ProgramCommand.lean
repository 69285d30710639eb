import TaskShell.Calc.CommandLine
import TaskShell.Shell.TextCommand
import TaskShell.Words.Split

/-!
# Commands that start programs

Helper programs, installers and updates, and what the network gives.
-/

namespace TaskShell.Shell

open Text

/-! ## Programs that print as they run -/

def outputText (bytes : List UInt8) : String :=
  String.ofList (unifyNewlines (decodeReplacing bytes))

def outputLines (bytes : List UInt8) : List String :=
  (fileLines (outputText bytes).toList).map fun l =>
    String.ofList (trimEnd (· == '\n') l)

/-- A time limit in seconds, and as it is written in messages. -/
structure Limit where
  seconds : Float
  shown : String

def limitOf : Value → Option Limit
  | .int i => some ⟨Number.ofInt i, toString i⟩
  | .float x => some ⟨x, Number.floatText x⟩
  | _ => none

/-- Starts a program with its words and a time limit, and waits for it. -/
def startProgram (command : List String) (limit : Option Float) :
    Job ChildOutcome := do
  match command with
  | [] => Act.fail (.unsupported "list index out of range")
  | name :: _ =>
    if command.any (·.contains '\x00') then Act.fail (.value .nullByte)
    let s ← get
    let (outcome, disk) := s.host.spawn command limit s.disk s.seat s.env
    set { s with disk := disk }
    match outcome with
    | .ok outcome => pure outcome
    | .error code => Act.fail (.system code [.text name])

/-- Runs a program with `startProgram` and prints what it writes. -/
def runStream (command : List String) (limit : Option Limit) :
    Act (Except Fault Int) := do
  let started ← Act.attempt (startProgram command (limit.map Limit.seconds))
  match started with
  | .error f => pure (.error f)
  | .ok outcome =>
    for l in outputLines outcome.out do Act.printLine l
    for l in outputLines outcome.err do Act.printError l
    match outcome.code with
    | some code => pure (.ok code)
    | none => pure (.error (.timeout command ((limit.map Limit.shown).getD "")))

def otherShell (w : Site) : Option String :=
  (Files.which w "pwsh").or (Files.which w "powershell")

def runOtherShell (line : String) (limit : Option Limit) :
    Act (Except Fault Int) := do
  match otherShell (← get) with
  | none => pure (.error (.runtime "pwsh/powershell not found"))
  | some exe => runStream [exe, "-NoProfile", "-Command", line] limit

def otherShellLimit : Option Limit := some ⟨300, "300"⟩

def runProgramLine (line : String) (limit : Option Limit) :
    Act (Except Fault Int) :=
  match Words.split line with
  | .ok words => runStream words limit
  | .error _ => runStream [line] limit

/-! ## Commands -/

/-- What a helper program of the shell prints, with its exit code. -/
def helperPrintout (w : Site) (name : String) (args : List String) :
    Option (String × Int) :=
  match name with
  | "calc.exe" =>
    let printout :=
      Calc.run w.host.manner "calc.exe" (Options.terminalColumns w.env) args
    some (printout.out, printout.code)
  | "time.exe" => some (w.host.timeText ++ "\n", 0)
  | _ => none

def runHelper (name : String) (args : List String) : Job String := do
  let w ← get
  let path := Path.join w.host.helperDir name
  let command := path :: args
  if command.any (·.contains '\x00') then Act.fail (.value .nullByte)
  let inside :=
    if Path.isAbsolute name then none else helperPrintout w name args
  let (out, code) ← match inside with
    | some found => pure found
    | none => do
      let outcome ← startProgram command none
      pure (outputText outcome.out, outcome.code.getD 0)
  if code == 0 then pure out else Act.fail (.exitCode command code)

def helperCommand (v : Value) : Job String := do
  match v with
  | .text name => runHelper name []
  | v =>
    let kind := v.kind
    Act.fail (.kind (.other s!"join() argument must be str, bytes, or os.PathLike object, not '{kind}'"))

def calcCommand (args : Args) : Job Value := do
  match args.get? "str" with
  | none => Act.fail (.missingField "str")
  | some v =>
    let s ← pathOf v
    let out ← runHelper "calc.exe" ["--input", s]
    pure (.text out)

def timeCommand : Job Value := do
  let out ← runHelper "time.exe" []
  pure (.text out)

def splitValue : Value → Job (List String)
  | .text s =>
    match Words.split s with
    | .ok words => pure words
    | .error .openQuote => Act.fail (.value .openQuote)
    | .error .openEscape => Act.fail (.value .openEscape)
  | v => Act.fail (.kind (.noOperation v.kind "read"))

def firstText (texts : List String) : String :=
  (texts.find? (!·.isEmpty)).getD ""

def aptCommand (args : Args) : Job Value := do
  let words ← splitValue (args.givenOr "str" (.text ""))
  match words with
  | "install" :: pkg :: _ =>
    let s ← orMessage "apt failed: " do
      match otherShell (← get) with
      | none => pure "pwsh/powershell not found"
      | some exe =>
        let command := [exe, "-NoProfile", "-Command",
          s!"Install-Module -Name {pkg} -Force -Scope CurrentUser"]
        let outcome ← startProgram command (some 300)
        match outcome.code with
        | none => Act.fail (.timeout command "300")
        | some 0 => pure s!"Installed {pkg}"
        | some code =>
          pure (firstText [outputText outcome.err, outputText outcome.out,
            s!"apt failed (code {code})"])
    pure (.text s)
  | _ => pure (.text "usage: apt install <PowerShellModule>")

def sudoCommand (args : Args) : Job Value := do
  let v := textArg args
  if !v.isTruthy then return .text "usage: sudo <command>"
  let s ← orMessage "sudo failed: " do
    let words ← splitValue v
    let outcome ← startProgram ("sudo" :: words) none
    match outcome.code.getD 0 with
    | 0 => pure (trim (outputText outcome.out))
    | code =>
      pure (firstText [outputText outcome.err, outputText outcome.out,
        s!"sudo failed (code {code})"])
  pure (.text s)

/-- Runs a line in the system's shell and drops what it prints. -/
def runQuietly (line : String) : Job Unit := do
  let _ ← Act.attempt (startProgram ["/bin/sh", "-c", line] none)

def configPath (s : Site) : String :=
  Path.join (s.expandHome "~") ".luw-config-path"

def updateCommand : Job Value := do
  let cs ← Files.readTextStrict (configPath (← get))
  let dir := Path.dirName (trim (String.ofList cs))
  runQuietly s!"\"{dir}/LUW-Shell-Update.exe\""
  pure (.text "Launched Update process. A new window should open.")

def clearCommand : Job Value := do
  runQuietly "clear"
  pure (.text "")

/-- Headers of which a later one replaces an earlier one of its name. -/
def lastHeaders (headers : List (String × String)) : List (String × Value) :=
  headers.foldl (fun (found : Args) (name, value) =>
    found.set name (.text value)) []

def httpCommand (args : Args) : Job Value := do
  let url := args.givenOr "str" (args.getD "url" (.text ""))
  if !url.isTruthy then return .text "usage: http_get <url>"
  let s ← orMessage "http_get failed: " do
    let (status, headers, body) ← fetch url
    let shown := (Value.record (lastHeaders headers)).shown
    let text := String.ofList (decodeReplacing (body.take pageLimit))
    pure s!"Status: {status}\nHeaders: {shown}\n\n{text}"
  pure (.text s)

end TaskShell.Shell

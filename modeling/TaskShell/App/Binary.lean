import TaskShell.App.Lookup
import TaskShell.Bundle
import TaskShell.Shell.Dispatch

/-!
# Running and bundling scripts

A script is a text of lines. Empty lines and comments are passed over, and every
other line is run as if it had been typed. A script is bundled next to itself
unless another path is given. Running a bundle runs its lines in this shell, or
writes the script next to the bundle and hands it to the installed interpreter.
-/

namespace TaskShell.App

open Text

/-! ## Scripts -/

def isPassedOver (line : List Char) : Bool :=
  line.isEmpty || (trimStart isBlank line).head? == some '#'

def scriptLines (text : List Char) : List String :=
  ((fileLines text).map (trimEnd (· == '\n'))).filterMap fun line =>
    if isPassedOver line then none else some (String.ofList line)

def bundledLines (text : List Char) : List String :=
  (breakLines text).filterMap fun line =>
    let line := trimEnd (· == '\n') line
    if isPassedOver line then none else some (String.ofList line)

/-- Runs the lines of a script and shows each unless debug messages are held
back. -/
def runShown : List String → Act Unit
  | [] => pure ()
  | line :: rest => do
    if !(← get).quiet then Act.printLine line
    Shell.dispatch line
    runShown rest

def runSilently : List String → Act Unit
  | [] => pure ()
  | line :: rest => do
    Shell.dispatch line
    runSilently rest

/-- Runs the `scriptLines` of a file with `runShown`. The file is read once,
before its first line is run: a script is taken not to rewrite its own file. -/
def runScript (p : String) : Act Unit := do
  let text ← Files.readTextIgnoring p
  runShown (scriptLines text)
  Shell.waitForAll

def isMissing : Fault → Bool
  | .system .noEntry _ | .noDirectory _ | .noFile _ => true
  | _ => false

def runScriptLogged (p : String) : Act Unit :=
  Act.orElse (runScript p) fun f =>
    if isMissing f then log s!"Script not found: {p}"
    else log s!"Error running script: {f.message}"

/-! ## Bundles -/

def absolutePath (p : String) : Act String := do
  if Path.isAbsolute p then return Path.normalize p
  return Path.absoluteIn (← Files.workingDir) p

def versionText (version : UInt8 × UInt8) : String :=
  s!"{version.1}.{version.2}"

def bundlePath (script : String) : String := (Path.splitExt script).1 ++ ".le"

/-- Bundles a script with the `Packer` of the host; gives the path of the
bundle. -/
def compile (p : String) (out : Option String) : Act String := do
  let script ← resolve p
  let data ← Files.readBytes script
  let w ← get
  let manifest :=
    Bundle.Manifest.ofPath script w.host.clock (versionText w.host.version)
  let out := match out with
    | some out => if out.isEmpty then bundlePath script else out
    | none => bundlePath script
  let target ← absolutePath out
  Files.writeBytes target (Bundle.pack w.host.packer manifest data)
  return target

def manifestField (manifest : Value) (name : String) : Act Value :=
  match manifest with
  | .record fields => pure ((fields.lookup name).getD .null)
  | v => Act.fail (.kind (.noOperation v.kind "get"))

/-- The name under which the script of a bundle is written: that of its entry,
or else its name with an ending. -/
def entryName (manifest : Value) : Act Value := do
  let entry ← manifestField manifest "entry"
  if entry.isTruthy then return entry
  match ← manifestField manifest "name" with
  | .text name => return .text (name ++ ".py")
  | .list _ => Act.fail (.kind (.notConcatenable "list" "str"))
  | v =>
    let kind := v.kind
    Act.fail
      (.kind (.other s!"unsupported operand type(s) for +: '{kind}' and 'str'"))

/-- The name that a script gets instead of one that is taken. -/
def spareName (clock : Float) (name : String) : String :=
  let (base, ending) := Path.splitExt name
  let seconds := Number.truncate clock
  s!"{base}_le_run_{seconds}" ++ if ending.isEmpty then ".py" else ending

/-- The path at which the script of a bundle is written: next to the bundle,
under its `spareName` if that of its entry is taken. -/
def scriptTarget (w : World) (dir name : String) : String :=
  let first := Path.join dir name
  if Files.exist w first then
    Path.join dir (spareName w.host.clock name)
  else first

/-- Writes a script and hands it to the installed interpreter; gives whether
that ended well. -/
def launch (dir target : String) (script : List UInt8) : Act Bool := do
  Act.orElse (Files.writeBytes target script) fun f =>
    Act.fail (.runtime s!"Failed to write/run python payload: {f.message}")
  modify fun w => { w with launched := w.launched ++
    [⟨target, dir, String.ofList (decodeReplacing script)⟩] }
  return (← get).host.launchCode == 0

def runBundled (script : List UInt8) : Act Unit := do
  runSilently (bundledLines (decodeReplacing script))
  Shell.waitForAll

/-- Runs a bundle, by `runSilently` or by `launch`; gives whether it ended
well. -/
def runBundle (p : String) : Act Bool := do
  if !Files.isFile (← get) p then Act.fail (.noFile p)
  let bytes ← Files.readBytes p
  match Bundle.unpack bytes with
  | .error f => Act.fail (f.toFault p)
  | .ok (manifest, script) =>
    let kind ← manifestField manifest "type"
    if kind.text? == some Bundle.Interpreter.installed.name then
      let dir := Path.dirName (← absolutePath p)
      match ← entryName manifest with
      | .text name => launch dir (scriptTarget (← get) dir name) script
      | v =>
        let kind := v.kind
        Act.fail (.kind (.other s!"join() argument must be str, bytes, or os.PathLike object, not '{kind}'"))
    else
      runBundled script
      return true

end TaskShell.App

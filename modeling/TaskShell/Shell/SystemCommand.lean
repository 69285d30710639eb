import TaskShell.Paint
import TaskShell.Shell.TextCommand

/-!
# Commands on the system

What the machine, the clock and the user are, and small commands without effect.
-/

namespace TaskShell.Shell

open Text

/-- A name of the machine that may be missing. -/
def known (key : String) (v : Option String) : Job String :=
  match v with
  | some s => pure s
  | none => Act.fail (.noInformation key)

def sysinfoCommand : Job Value := do
  let m := (← get).host.machine
  let system ← known "system" m.system
  let release ← known "release" m.release
  let version ← known "version" m.version
  pure (.text s!"{system} {release} ({version})")

def diskCommand (args : Args) : Job Value := do
  let s ← orMessage "disk_usage failed: " do
    let p ← pathFor "statvfs" (args.getD "str" (.text "."))
    let _ ← Files.find p
    let (total, used, free) := (← get).host.usage
    pure s!"Total: {total} | Used: {used} | Free: {free}"
  pure (.text s)

/-- A number between two bounds, of which both may be met. -/
def randCommand (args : Args) : Job Value := do
  let first ← integerOf (args.getD "start" (.int 0))
  let last ← integerOf (args.getD "end" (.int 100))
  if last < first then Act.fail (.value (.emptyRange first last))
  let s ← get
  set { s with drawn := s.drawn + 1 }
  pure (.text (toString (first + s.host.dice s.drawn % (last - first + 1))))

def loginName : Job String := do
  match (← get).host.login with
  | some name => pure name
  | none => Act.fail (.system .noDevice [])

def loginCommand : Job Value := do
  let name ← loginName
  pure (.text name)

def firstSet (env : Env) : List String → String
  | [] => ""
  | name :: rest =>
    let value := env.get name
    if value.isEmpty then firstSet env rest else value

/-- The login name, or else the one in the environment. -/
def whoamiCommand : Job Value := do
  let env := (← get).env
  let name ← Act.orElse loginName fun _ =>
    pure (firstSet env ["USERNAME", "USER"])
  pure (.text name)

def dateCommand : Job Value := do
  let host := (← get).host
  pure (.text (host.now.iso " " .auto))

/-- The names of the machine, in the order in which they are asked for. -/
def machineNames : Job (List String) := do
  let m := (← get).host.machine
  [("system", m.system), ("node", m.node), ("release", m.release),
    ("version", m.version), ("machine", m.machine),
    ("processor", m.processor)].mapM fun (key, v) => known key v

def unameCommand : Job Value := do
  let names ← machineNames
  pure (.text (" ".intercalate names))

def hostnameCommand : Job Value := do
  let w ← get
  let name ← Act.orElse (known "node" w.host.machine.node) fun _ =>
    pure (firstSet w.env ["HOSTNAME", "COMPUTERNAME"])
  pure (.text name)

def spanText (seconds : Int) : String :=
  let minutes := seconds.fdiv 60
  let hours := minutes.fdiv 60
  s!"{hours.fdiv 24}d {hours.fmod 24}h {minutes.fmod 60}m {seconds.fmod 60}s"

/-- The time since the start that a system file gives. -/
def uptimeText? (text : String) : Option String := do
  let line := String.ofList (text.toList.takeWhile (· != '\n'))
  let word ← (words line).head?
  let x ← Number.readFloat word
  if Number.isFinite x then some (spanText (Number.truncate x)) else none

def uptimeCommand : Job Value := do
  let w ← get
  pure (.text ((w.host.uptime.bind uptimeText?).getD "uptime not available"))

def sleepSeconds (v : Value) : Float :=
  let n : Float := match v with
    | .text s => (Number.readFloat s).getD 1
    | .int i => if Number.isFinite (Number.ofInt i) then Number.ofInt i else 1
    | .bool b => if b then 1 else 0
    | .float x => x
    | _ => 1
  if n > 0 then n else 0

/-- The longest sleep in seconds; one that is not below it is refused. -/
def sleepLimit : Float := 9223372036.854775808

def sleepCommand (args : Args) : Job Value := do
  let n := sleepSeconds (args.getD "str" (.text "1"))
  if n ≥ sleepLimit then
    Act.fail (.overflow "timestamp out of range for platform time_t")
  modify fun w => { w with slept := w.slept ++ [Number.floatText n] }
  pure (.text "")

def whichCommand (args : Args) : Job Value := do
  let v := textArg args
  if !v.isTruthy then return .text ""
  let name ← pathOf v
  let w ← get
  pure (.text ((Files.which w name).getD ""))

/-- The name and value of a line with an equals sign. -/
def setting? (line : String) : Option (String × String) :=
  (splitOnce? '=' line.toList).map fun (name, value) =>
    (trim (String.ofList name),
      trimOf ['\''] (trimOf ['"'] (trim (String.ofList value))))

def distribution (w : Site) : Option (String × String) :=
  w.host.osRelease.map fun text =>
    let settings : Env := ((lines text).filterMap setting?).foldl
      (fun env (name, value) => env.set name value) []
    (lower (settings.get "ID"), settings.get "NAME")

def logos : List (String × List String) := [
  ("windows", [" ███ ███      ", "              ", " ███ ███      "]),
  ("macos", ["   .:;:.", "  /  .  \\", " |  ( ) |", "  \\__|_/"]),
  ("ubuntu", ["   .----.", "  /  ()  \\", " |  (__) |", "  \\____/ "]),
  ("tux", ["   _==_", "  (o_o)", "  /( )\\", "   \" \" "]),
  ("chromium", ["   _____", "  / ___ \\", " | |   | |", "  \\_____/ "])]

def logoName (system distro : String) : String :=
  let system := lower system
  if startsWith system "win" then "windows"
  else if startsWith system "darwin" || startsWith system "mac" then "macos"
  else if system == "linux" && contains distro "ubuntu" then "ubuntu"
  else if system == "linux" && contains distro "chromium" then "chromium"
  else "tux"

def logoColour : String → String
  | "windows" => Paint.blue
  | "ubuntu" => Paint.yellow
  | "chromium" => Paint.grey
  | _ => Paint.lightGreen

/-- Puts the lines of a logo to the left of other lines. -/
def besideLogo (colour : String) : List String → List String → List String
  | [], [] => []
  | [], info :: rest => (copies 17 ' ' ++ info) :: besideLogo colour [] rest
  | l :: logo, infos =>
    let painted := if l.isEmpty then "" else Paint.paint colour l
    (padRight 14 painted ++ "   " ++ infos.headD "") ::
      besideLogo colour logo infos.tail

def osTypeCommand : Job Value := do
  let w ← get
  let m := w.host.machine
  let system := m.system.getD "Unknown"
  let (distro, fullName) :=
    if lower system == "linux" then (distribution w).getD ("", "") else ("", "")
  let names ← Act.attempt machineNames
  let version ← known "python" m.interpreter
  let (node, release, build, machine) := match names with
    | .ok [_, node, release, build, machine, _] =>
      (node, release, build, machine)
    | _ => ("", "", "", "")
  let full := if fullName.isEmpty then "" else s!" ({fullName})"
  let infos := [s!"OS:       {system}{full}", s!"Release:  {release}",
    s!"Version:  {build}", s!"Machine:  {machine}", s!"Python:   {version}"]
  let key := logoName system distro
  let ls := besideLogo (logoColour key) ((logos.lookup key).getD []) infos
  let host :=
    if node.isEmpty then [] else [copies 17 ' ' ++ s!"Host:     {node}"]
  pure (.text (joinLines (ls ++ host)))

end TaskShell.Shell

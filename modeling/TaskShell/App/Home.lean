import TaskShell.App.Session
import TaskShell.Program.Run

/-!
# A world to start in

A session of its own starts with a disk that holds the working directory and the
files that the command line names.
-/

namespace TaskShell.App

open Text

def placeOf (cwd p : String) : Place :=
  (Path.components (Path.normalize (Path.join cwd p))).filter (!·.isEmpty)

def freshDir (t : Instant) : Node := ⟨.dir, 0o755, t⟩

def freshFile (t : Instant) (data : List UInt8) : Node := ⟨.file data, 0o644, t⟩

/-- Facts about a machine of which little is known. -/
def quietHost (clock : Float) (now : Calendar.Stamp) (login : Option String)
    (cwd : String) : Host where
  now := now
  clock := clock
  login := login
  usage := (0, 0, 0)
  machine := ⟨some "Linux", none, none, none, none, none, none⟩
  osRelease := none
  uptime := none
  net := []
  launchCode := 0
  cowPackage := some Cow.catalogue
  appDir := cwd
  helperDir := Path.join cwd "helpers"
  version := (3, 11)
  homes := fun _ => none
  dice := fun _ => 0
  manner := .installed
  packer := .stored
  spawn := Program.spawn

/-- The world at the start of a session: some files, by their paths, in a
working directory. -/
def homeWorld (env : Env) (cwd : String) (files : List (String × List UInt8))
    (host : Host) : World :=
  let t : Instant := .ofSeconds host.clock
  let home := (env.get? "HOME").getD "/"
  let dirs : Disk := [home, cwd].foldl (fun d p =>
    d.plant (placeOf cwd p) (freshDir t) (freshDir t)) [([], freshDir t)]
  { disk := files.foldl (fun d (p, data) =>
      d.plant (placeOf cwd p) (freshDir t) (freshFile t data)) dirs
    seat := ⟨placeOf cwd "", false⟩
    env := env
    aliases := []
    quiet := false
    out := ""
    err := ""
    slept := []
    launched := []
    tasks := []
    results := []
    host := host }

/-- The files that a session has made or changed, by their paths. -/
def changedFiles (before after : Disk) : List (String × List UInt8) :=
  after.filterMap fun (p, n) =>
    if n.isFile && (before.get? p).map Node.data != some n.data then
      some ("/" ++ "/".intercalate p, n.data)
    else none

end TaskShell.App

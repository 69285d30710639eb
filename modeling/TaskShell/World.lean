import TaskShell.Calendar.Stamp
import TaskShell.Disk
import TaskShell.Options.Basic
import TaskShell.Path.Expand
import TaskShell.Proofs.Compression

/-!
# The world of a session

A command sees and changes its site: the disk, the working directory, the
environment, and facts about the machine that stay fixed. The world of a session
holds more: the aliases, the switch for debug messages, what has been printed,
and the queues of the workers. A job is an action on a site and may fail; an
action on the world may run jobs, which leave the rest of the world as it is.
What fails keeps the changes it has made.
-/

namespace TaskShell

open Text

inductive Reply where
  | page (status : Int) (headers : List (String × String)) (body : List UInt8)
  | refused (reason : String)
  deriving Repr

inductive Speech where
  /-- What it returned, or else what it printed. -/
  | said (text : String)
  | misfit
  | failed
  deriving Repr

/-- A package of speech bubbles: its functions by name, each of which is called
with a message and perhaps with an animal. -/
abbrev CowPackage := String → Option (String → Option String → Speech)

/-- What a child process did: what it wrote, and its exit code, which is missing
if it met its time limit. -/
structure ChildOutcome where
  out : List UInt8
  err : List UInt8
  code : Option Int
  deriving Repr

/-- Names of the machine; one that is missing cannot be asked for. -/
structure Machine where
  system : Option String
  node : Option String
  release : Option String
  version : Option String
  machine : Option String
  processor : Option String
  interpreter : Option String
  deriving Repr, Inhabited

/-- Facts about the machine that no command changes. -/
structure Host where
  now : Calendar.Stamp
  clock : Float
  login : Option String
  usage : Int × Int × Int
  machine : Machine
  osRelease : Option String
  uptime : Option String
  net : List (String × Reply)
  /-- The exit code of a started program of the other kind of script. -/
  launchCode : Int
  cowPackage : Option CowPackage
  appDir : String
  helperDir : String
  version : UInt8 × UInt8
  /-- The home directories of users; that of the current one has no name. -/
  homes : String → Option String
  /-- The numbers that are drawn at random, by their place in the row. -/
  dice : Nat → Nat
  manner : Options.Manner
  packer : Codec.Gzip.Packer
  /-- What a child process does with its words, its time limit and what it sees
  of the site; it may change the disk. -/
  spawn : List String → Option Float → Disk → Seat → Env →
    Except Errno ChildOutcome × Disk
  deriving Inhabited

structure Launch where
  script : String
  cwd : String
  source : String
  deriving Repr

/-- A task for a worker: the name of a `Command` and what it is given. -/
structure Task where
  command : String
  args : Value
  deriving Repr

/-- A command or a builtin that was run, by the name it was called by, with what
it was given. -/
structure Call where
  builtin : Bool
  name : String
  args : Value
  deriving Repr

structure Site where
  disk : Disk
  seat : Seat
  env : Env
  slept : List String
  host : Host
  drawn : Nat := 0
  /-- Whether a command gave a text with half of a surrogate pair in it. Texts
  have no such halves here, so that what follows is only near to what the shell
  does with them. -/
  strayed : Bool := false
  deriving Inhabited

/-- Puts a home directory of `Host.homes` in place of a leading tilde. -/
def Site.expandHome (s : Site) (p : String) : String :=
  Path.expandHome s.host.homes s.env p

/-- How the worker and the clock go on beside the shell (`runBeside`,
`takeInTime`). Nothing is assumed of either. -/
structure Pace where
  /-- How many waiting tasks the worker runs beside the shell after a part of a
  line with several commands, by the number of the part. -/
  beside : Nat → Nat := fun _ => 0
  /-- Whether a wait with a time limit is given up, by its number. -/
  late : Nat → Bool := fun _ => false
  deriving Inhabited

structure World extends Site where
  /-- Aliases in the order in which they were first defined. -/
  aliases : List (String × String)
  quiet : Bool
  out : String
  err : String
  launched : List Launch
  tasks : List Task
  /-- Results that nobody has fetched yet, with the number of the worker. -/
  results : List (Nat × Value)
  /-- The commands and builtins that were run, the first one first. -/
  calls : List Call := []
  pace : Pace := {}
  parts : Nat := 0
  waits : Nat := 0
  deriving Inhabited

instance : Coe World Site := ⟨World.toSite⟩

abbrev Doing (σ : Type) := ExceptT Fault (StateM σ)

abbrev Job := Doing Site

abbrev Act := Doing World

namespace Act

variable {σ α : Type}

def fail (f : Fault) : Doing σ α := throw f

def ofExcept : Except Fault α → Doing σ α
  | .ok a => pure a
  | .error f => throw f

/-- Runs an action and hands its failure to `handler`. -/
def orElse (act : Doing σ α) (handler : Fault → Doing σ α) : Doing σ α :=
  tryCatch act handler

/-- Runs an action and returns its outcome instead of failing. -/
def attempt (act : Doing σ α) : Doing σ (Except Fault α) :=
  fun s =>
    let (r, s') := act s
    (.ok r, s')

def ofJob (job : Job α) : Act α :=
  fun w =>
    let (r, s) := job w.toSite
    (r, { w with toSite := s })

instance : MonadLiftT Job Act := ⟨ofJob⟩

def print (s : String) : Act Unit :=
  modify fun w => { w with out := w.out ++ s }

def printLine (s : String) : Act Unit :=
  print (s ++ "\n")

def printError (s : String) : Act Unit :=
  modify fun w => { w with err := w.err ++ s ++ "\n" }

/-- Notes in `World.calls` that a command or a builtin is run. -/
def note (call : Call) : Act Unit :=
  modify fun w => { w with calls := w.calls ++ [call] }

end Act

def Env.wantsTime (env : Env) : Bool :=
  ["1", "true", "yes",
    "on"].contains (lower (trim ((env.get? "TIMESTAMP").getD "0")))

def Host.timeText (host : Host) : String :=
  host.now.iso "T" .auto

def World.logged (w : World) (message : String) : String :=
  if w.env.wantsTime then w.host.timeText ++ " " ++ message else message

def logEnding (message ending : String) : Act Unit := do
  Act.print ((← get).logged message ++ ending)

def log (message : String) : Act Unit :=
  logEnding message "\n"

/-- Logs a line with `log` unless debug messages are held back. -/
def logDebug (message : String) : Act Unit := do
  if !(← get).quiet then log message

end TaskShell

import TaskShell.Shell.CowCommand
import TaskShell.Shell.FileCommand
import TaskShell.Shell.ProgramCommand
import TaskShell.Shell.SystemCommand

/-!
# The commands

All commands that workers know, by name, with their help and what they do.
-/

namespace TaskShell.Shell

open Text

inductive Command where
  | reverse
  | upper
  | calculate
  | time
  | echo
  | ls
  | pwd
  | cd
  | whoami
  | sysinfo
  | disk
  | rand
  | grep
  | cat
  | head
  | tail
  | cp
  | mv
  | rm
  | mkdir
  | touch
  | stat
  | info
  | wc
  | json
  | httpGet
  | http
  | encode
  | decode
  | find
  | cowsay
  | osType
  | update
  | date
  | uname
  | hostname
  | uptime
  | sleep
  | basename
  | dirname
  | which
  | succeed
  | decline
  | yes
  | sort
  | uniq
  | clear
  | apt
  | elevate
  deriving DecidableEq, Repr

namespace Command

/-- All commands with their names, in the order in which they are registered. -/
def table : List (String × Command) := [
  ("reverse", reverse), ("upper", upper), ("calc", calculate), ("time", time),
  ("echo", echo), ("ls", ls),
  ("pwd", pwd), ("cd", cd), ("whoami", whoami), ("sysinfo", sysinfo),
  ("disk", disk), ("rand", rand),
  ("grep", grep), ("cat", cat), ("head", head), ("tail", tail), ("cp", cp),
  ("mv", mv), ("rm", rm),
  ("mkdir", mkdir), ("touch", touch), ("stat", stat), ("info", info),
  ("wc", wc), ("json", json),
  ("http_get", httpGet), ("http", http), ("b64e", encode), ("b64d", decode),
  ("find", find),
  ("cowsay", cowsay), ("os-type", osType), ("lupdate", update), ("date", date),
  ("uname", uname),
  ("hostname", hostname), ("uptime", uptime), ("sleep", sleep),
  ("basename", basename),
  ("dirname", dirname), ("which", which), ("true", succeed),
  ("false", decline), ("yes", yes),
  ("sort", sort), ("uniq", uniq), ("clear", clear), ("apt", apt),
  ("sudo", elevate)]

def ofName? (name : String) : Option Command := table.lookup name

def names : List String := table.map (·.1)

def help : Command → Option String
  | reverse => some ("\n    Reverse text. Supports:\n    - positional text: reverse Hello -> OLLEH\n" ++
    "    - --file <path>: reverse contents of file\n" ++
    "    - --url <url>: fetch URL (first 64KB) and reverse body text\n    ")
  | pwd => some "Gibt das aktuelle Arbeitsverzeichnis zurück."
  | cd => some ("Wechselt das Arbeitsverzeichnis. Unterstützt --mkdir/--create/--p zum Anlegen fehlender " ++
    "Verzeichnisse.")
  | whoami => some "Return current username."
  | sysinfo => some "Systeminformationen anzeigen."
  | disk => some "Zeigt freien und belegten Speicherplatz an."
  | rand => some "Zufallszahl generieren."
  | grep => some "Einfache Textsuche in einer Datei."
  | head => some "Head: first N lines from text or file."
  | tail => some "Tail: last N lines from text or file."
  | wc => some "wc: count lines, words, bytes for given text or file."
  | cowsay => some ("\n    cowsay --animal [ANIMAL] --colour [COLOUR] --rgb R G B --cowfile <file> <message>\n" ++
    "    Use cowsay package when available; capture printed output if it prints instead of returning;\n" ++
    "    fallback to internal ASCII art when necessary. Apply ANSI color or RGB color if requested.\n" ++
    "    If --cowfile <file> is given, use the .cow file as the cow template (if supported).\n    ")
  | osType => some "\n    os-type\n    Shows OS/specs with a platform-specific colorful ASCII logo at left.\n    "
  | date => some "Print the current date/time."
  | uname => some "Show system information (like uname -a)."
  | hostname => some "Return hostname."
  | uptime => some "Approximate uptime (Linux via /proc/uptime, fallback N/A)."
  | sleep => some "Sleep N seconds (blocking)."
  | basename => some "Return basename of path."
  | dirname => some "Return dirname of path."
  | which => some "Return full path of executable (shutil.which)."
  | succeed => some "Do nothing, succeed."
  | decline => some "Always 'fail' — but do not exit shell. Return non-empty string to indicate false."
  | yes => some "Repeat a string (default 'y') many times (limited)."
  | sort => some "Sort lines from input or a file."
  | uniq => some "uniq: remove consecutive duplicate lines by default; --all removes all duplicates."
  | clear => some "Clear terminal screen."
  | apt => some ("\n    Simple apt wrapper: `apt install <ModuleName>` installs a PowerShell module via pwsh." ++
    "\n    ")
  | elevate => some ("\n    Run command elevated. On Windows attempt Start-Process -Verb RunAs (pwsh/powershell).\n" ++
    "    On Unix use sudo.\n    ")
  | _ => none

def run : Command → Args → Job Value
  | reverse => reverseCommand
  | upper => upperCommand
  | calculate => calcCommand
  | time => fun _ => timeCommand
  | echo => echoCommand
  | ls => lsCommand
  | pwd => fun _ => pwdCommand
  | cd => cdCommand
  | whoami => fun _ => whoamiCommand
  | sysinfo => fun _ => sysinfoCommand
  | disk => diskCommand
  | rand => randCommand
  | grep => grepCommand
  | cat => catCommand
  | head => headCommand
  | tail => tailCommand
  | cp => cpCommand
  | mv => mvCommand
  | rm => rmCommand
  | mkdir => mkdirCommand
  | touch => touchCommand
  | stat | info => statCommand
  | wc => wcCommand
  | json => jsonCommand
  | httpGet | http => httpCommand
  | encode => encodeCommand
  | decode => decodeCommand
  | find => findCommand
  | cowsay => cowsayCommand
  | osType => fun _ => osTypeCommand
  | update => fun _ => updateCommand
  | date => fun _ => dateCommand
  | uname => fun _ => unameCommand
  | hostname => fun _ => hostnameCommand
  | uptime => fun _ => uptimeCommand
  | sleep => sleepCommand
  | basename => basenameCommand
  | dirname => dirnameCommand
  | which => whichCommand
  | succeed => fun _ => pure (.text "")
  | decline => fun _ => pure (.text "false")
  | yes => yesCommand
  | sort => sortCommand
  | uniq => uniqCommand
  | clear => fun _ => clearCommand
  | apt => aptCommand
  | elevate => sudoCommand

def takesArgs : Command → Bool
  | time | pwd | whoami | sysinfo | osType | update | date | uname | hostname |
      uptime | succeed | decline | clear =>
    false
  | _ => true

/-- The fault of a command that is given something else than named arguments. -/
def argsFault (c : Command) (v : Value) : Fault :=
  let kind := v.kind
  match c, v with
  | calculate, .list _ =>
    .kind (.other "list indices must be integers or slices, not str")
  | calculate, .text _ =>
    .kind (.other "string indices must be integers, not 'str'")
  | calculate, _ => .kind (.other s!"'{kind}' object is not subscriptable")
  | _, _ => .kind (.noOperation kind "get")

/-- Runs a command on a value, which has to be named arguments if the command
looks at them: else `argsFault`. -/
def call (c : Command) (v : Value) : Job Value :=
  match v with
  | .record args => c.run args
  | v => if c.takesArgs then Act.fail (c.argsFault v) else c.run []

def summary (c : Command) : String :=
  match c.help with
  | some s => (lines (trim s)).headD ""
  | none => ""

end Command

def runCommand (name : String) (c : Command) (v : Value) : Act Value := do
  Act.note ⟨false, name, v⟩
  c.call v

end TaskShell.Shell

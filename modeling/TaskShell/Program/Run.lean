import TaskShell.Files.Basic
import TaskShell.Number.Reading
import TaskShell.Program.Output
import TaskShell.Program.Script

/-!
# Running programs

Runs the scripts that stand for installed programs, and the few programs that
every machine has. Time passes only while a program sleeps, so a time limit is
met exactly when the program would sleep past it.
-/

namespace TaskShell.Program

open Text

inductive Ending where
  | exit (code : Int)
  /-- A time limit was met. -/
  | late
  deriving DecidableEq, Repr

structure State where
  world : Site
  shellVars : List (String × String)
  name : String
  args : List String
  out : List UInt8
  err : List UInt8
  status : Int
  elapsed : Float
  limit : Option Float
  ended : Option Ending

abbrev Step := StateM State

def emit (stream : Nat) (bytes : List UInt8) : Step Unit :=
  modify fun s => if stream == 2 then { s with err := s.err ++ bytes }
    else { s with out := s.out ++ bytes }

def setStatus (code : Int) : Step Unit :=
  modify fun s => { s with status := code }

def complain (line : Nat) (message : String) : Step Unit := do
  emit 2 (utf8 s!"{(← get).name}: {line}: {message}\n")

/-! ## Expansion -/

def valueOf (s : State) (name : String) : String :=
  match name with
  | "#" => toString s.args.length
  | "?" => toString s.status
  | "$" => "4242"
  | "0" => s.name
  | "@" | "*" => " ".intercalate s.args
  | _ =>
    match name.toNat? with
    | some n => s.args.getD (n - 1) ""
    | none => ((s.shellVars.lookup name) <|> (s.world.env.get? name)).getD ""

/-- The number at the start of an arithmetic text, with what follows it. -/
def readOperand (s : State) (cs : List Char) : Int × List Char :=
  let cs := cs.dropWhile fun c => c == ' ' || c == '$'
  match cs with
  | '-' :: rest =>
    let digits := rest.takeWhile Char.isDigit
    (-((String.ofList digits).toNat?.getD 0 : Nat), rest.drop digits.length)
  | _ =>
    let word := cs.takeWhile fun c => c.isAlphanum || c == '_'
    let text := String.ofList word
    let value := match text.toNat? with
      | some n => (n : Int)
      | none => ((valueOf s text).toInt?).getD 0
    (value, cs.drop word.length)

/-- The value of a sum or difference of operands (`readOperand`), from the
left. -/
def arithmeticFrom (s : State) (sum : Int) : List Char → Nat → Int
  | _, 0 => sum
  | cs, fuel + 1 =>
    match cs.dropWhile (· == ' ') with
    | '+' :: rest =>
      let (n, after) := readOperand s rest
      arithmeticFrom s (sum + n) after fuel
    | '-' :: rest =>
      let (n, after) := readOperand s rest
      arithmeticFrom s (sum - n) after fuel
    | '*' :: rest =>
      let (n, after) := readOperand s rest
      arithmeticFrom s (sum * n) after fuel
    | _ => sum

def arithmetic (s : State) (cs : List Char) : Int :=
  let (first, after) := readOperand s cs
  arithmeticFrom s first after cs.length

/-- Adds text to the last field; a field is known to exist if any part of it was
quoted. -/
def glue (fields : List String) (text : String) : List String :=
  match fields.getLast? with
  | some last => fields.dropLast ++ [last ++ text]
  | none => [text]

/-- The fields that a word expands to. `fields` are those so far, and `isOpen`
tells whether the last one may go on. -/
def expandFrom (s : State) (fields : List String) (isOpen : Bool) :
    Word → List String
  | [] => fields
  | part :: rest =>
    let addTo := fun (text : String) => if isOpen then glue fields text
      else fields ++ [text]
    match part with
    | .text cs _ => expandFrom s (addTo (String.ofList cs)) true rest
    | .arithmetic cs _ =>
      expandFrom s (addTo (toString (arithmetic s cs))) true rest
    | .variable "@" true =>
      match s.args with
      | [] => expandFrom s fields isOpen rest
      | first :: more => expandFrom s (addTo first ++ more) true rest
    | .variable name true => expandFrom s (addTo (valueOf s name)) true rest
    | .variable name false =>
      let value := (valueOf s name).toList
      let isGap := fun (c : Char) => c == ' ' || c == '\t' || c == '\n'
      match words isGap value with
      | [] => expandFrom s fields (isOpen && value.isEmpty) rest
      | first :: more =>
        let fields :=
          if value.head?.any isGap then fields ++ [first] else addTo first
        expandFrom s (fields ++ more) (!(value.getLast?.any isGap)) rest
where
  words (isGap : Char → Bool) (cs : List Char) : List String :=
    (cs.splitBy fun a b => isGap a == isGap b).filterMap fun run =>
      if run.head?.any isGap then none else some (String.ofList run)

def expandWord (s : State) (w : Word) : List String :=
  -- an empty quoted text alone gives one empty field, unless it stands beside
  -- all arguments and there are none
  match w with
  | [.text [] true, .variable "@" true] => s.args
  | _ => expandFrom s [] false w

def expandText (s : State) (w : Word) : String :=
  " ".intercalate (expandWord s w)

/-! ## Tests -/

def numberOf (s : String) : Int := (s.toInt?).getD 0

def testHolds (w : Site) : List String → Bool
  | [] => false
  | ["!", a] => a.isEmpty
  | [a] => !a.isEmpty
  | ["-n", a] => !a.isEmpty
  | ["-z", a] => a.isEmpty
  | ["-f", a] => Files.isFile w a
  | ["-d", a] => Files.isDir w a
  | ["-e", a] => Files.exist w a
  | "!" :: rest => !testHolds w rest
  | [a, "=", b] => a == b
  | [a, "!=", b] => a != b
  | [a, "-eq", b] => numberOf a == numberOf b
  | [a, "-ne", b] => numberOf a != numberOf b
  | [a, "-lt", b] => numberOf a < numberOf b
  | [a, "-le", b] => numberOf a ≤ numberOf b
  | [a, "-gt", b] => numberOf a > numberOf b
  | [a, "-ge", b] => numberOf a ≥ numberOf b
  | _ => false

/-! ## Starting -/

inductive Image where
  | script (text : List Char)
  | echo
  | sleep
  | shell
  deriving Repr

def knownPrograms : List (String × Image) :=
  [("/bin/echo", .echo), ("/usr/bin/echo", .echo), ("/bin/sleep", .sleep),
    ("/usr/bin/sleep", .sleep), ("/bin/sh", .shell), ("/usr/bin/sh", .shell),
    ("/bin/dash", .shell)]

/-- The first line of a script names the program that runs it. -/
def interpreterOf? (text : List Char) : Option String :=
  match text with
  | '#' :: '!' :: rest =>
    ((String.ofList (rest.takeWhile (· != '\n'))).trimAscii.toString.splitOn
      " ").head?
  | _ => none

def image (w : Site) (p : String) : Except Errno Image :=
  match w.disk.find w.seat p with
  | .error code =>
    match knownPrograms.lookup p with
    | some known => .ok known
    | none => .error code
  | .ok (_, node) =>
    if node.isDir || !node.isExecutable then .error .denied
    else
      let text := decodeReplacing node.data
      match interpreterOf? text with
      | none =>
        match knownPrograms.lookup p with
        | some known => .ok known
        | none => .error .badFormat
      | some program =>
        if (knownPrograms.lookup program).isSome || Files.exist w program then
          .ok (.script text)
        else .error .noEntry

/-- The image of a program name: a path is taken as it is, a plain name is
looked for in the search path. A directory that has no such file is passed over;
any other refusal is kept and reported at the end. -/
def resolve (w : Site) (name : String) : Except Errno (String × Image) :=
  if name.contains '/' then (image w name).map fun i => (name, i)
  else search none (Files.pathDirs w)
where
  /-- Looks through directories, with the first refusal so far. -/
  search (kept : Option Errno) : List String → Except Errno (String × Image)
    | [] => .error (kept.getD .noEntry)
    | dir :: rest =>
      let p := Path.join dir name
      match image w p with
      | .ok i => .ok (p, i)
      | .error code =>
        if code == .noEntry || code == .notDirectory then search kept rest
        else search (kept <|> some code) rest

/-! ## Commands -/

def sleepFor (seconds : Float) : Step Unit := do
  let s ← get
  let elapsed := s.elapsed + seconds
  match s.limit with
  | some limit =>
    if elapsed > limit then set { s with elapsed := limit, ended := some .late }
    else set { s with elapsed := elapsed }
  | none => set { s with elapsed := elapsed }

def setVariable (name value : String) : Step Unit :=
  modify fun s => { s with
    shellVars := (name, value) :: s.shellVars.filter fun v => v.1 != name }

def finish (code : Int) : Step Unit :=
  modify fun s =>
    { s with ended := s.ended <|> some (.exit code), status := code }

/-- Runs an action on the files of the program; tells whether it succeeded. -/
def onFiles (act : Job Unit) : Step Bool := do
  let s ← get
  let (result, world) := act s.world
  set { s with world := world }
  match result with
  | .ok _ => return true
  | .error _ => return false

def inputOf (p : String) : Step (Option (List UInt8)) := do
  let s ← get
  match (Files.readBytes p) s.world with
  | (.ok bytes, _) => return some bytes
  | (.error _, _) => return none

/-- Where the two output streams of a command go: a stream of the program or a
file. -/
inductive Sink where
  | stream (number : Nat)
  | file (path : String)
  deriving DecidableEq, Repr

def send (sink : Sink) (bytes : List UInt8) : Step Unit :=
  match sink with
  | .stream n => emit n bytes
  | .file p => do
    let _ ← onFiles (Files.appendBytes p bytes)

/-- Prepares the redirections of a command; nothing if one fails. -/
def prepare (line : Nat) (sinks : Sink × Sink) (input : List UInt8) :
    List Redirect → Step (Option ((Sink × Sink) × List UInt8))
  | [] => return some (sinks, input)
  | .input w :: rest => do
    let p := expandText (← get) w
    match ← inputOf p with
    | some bytes => prepare line sinks bytes rest
    | none =>
      complain line s!"cannot open {p}: No such file"
      return none
  | .output stream append w :: rest => do
    let p := expandText (← get) w
    let done ← onFiles (if append then Files.appendBytes p []
      else Files.writeBytes p [])
    if done then
      prepare line (if stream == 2 then (sinks.1, .file p)
        else (.file p, sinks.2)) input rest
    else
      complain line s!"cannot create {p}: Directory nonexistent"
      return none
  | .duplicate stream target :: rest =>
    let sink := if target == 2 then sinks.2 else sinks.1
    prepare line (if stream == 2 then (sinks.1, sink)
      else (sink, sinks.2)) input rest

mutual

def runCommands : List Command → Nat → Step Unit
  | _, 0 => return
  | [], _ => return
  | command :: rest, fuel + 1 => do
    runCommand command fuel
    if (← get).ended.isNone then runCommands rest fuel

def runCommand (command : Command) : Nat → Step Unit
  | 0 => return
  | fuel + 1 => do
    match command with
    | .simple line assignments words redirects =>
      runSimple line assignments words redirects fuel
    | .choice clauses otherwise => runClauses clauses otherwise fuel
    | .loop while_ condition body => runLoop while_ condition body fuel
    | .each name words body =>
      let s ← get
      let values := match words with
        | some ws => ws.flatMap (expandWord s)
        | none => s.args
      runEach name body values fuel
    | .both left right =>
      runCommand left fuel
      let s ← get
      if s.ended.isNone && s.status == 0 then runCommand right fuel
    | .either left right =>
      runCommand left fuel
      let s ← get
      if s.ended.isNone && s.status != 0 then runCommand right fuel
    | .negated inner =>
      runCommand inner fuel
      modify fun s => { s with status := if s.status == 0 then 1 else 0 }

def runClauses (clauses : List (List Command × List Command))
    (otherwise : List Command) : Nat → Step Unit
  | 0 => return
  | fuel + 1 => do
    match clauses with
    | [] =>
      setStatus 0
      runCommands otherwise fuel
    | (condition, body) :: rest =>
      runCommands condition fuel
      let s ← get
      if s.ended.isNone then
        if s.status == 0 then runCommands body fuel
        else runClauses rest otherwise fuel

def runLoop (while_ : Bool) (condition body : List Command) : Nat → Step Unit
  | 0 => return
  | fuel + 1 => do
    runCommands condition fuel
    let s ← get
    if s.ended.isNone then
      if (s.status == 0) == while_ then
        runCommands body fuel
        if (← get).ended.isNone then runLoop while_ condition body fuel
      else setStatus 0

def runEach (name : String) (body : List Command) :
    List String → Nat → Step Unit
  | _, 0 => return
  | [], _ => return
  | value :: rest, fuel + 1 => do
    setVariable name value
    runCommands body fuel
    if (← get).ended.isNone then runEach name body rest fuel

def runSimple (line : Nat) (assignments : List (String × Word))
    (words : List Word) (redirects : List Redirect) :
    Nat → Step Unit
  | 0 => return
  | fuel + 1 => do
    let fields := words.flatMap (expandWord (← get))
    match ← prepare line (.stream 1, .stream 2) [] redirects with
    | none =>
      setStatus 2
      if fields.head? == some "exec" then finish 2
    | some (sinks, input) =>
      for (name, w) in assignments do
        setVariable name (expandText (← get) w)
      if fields.isEmpty then setStatus 0
      else
        let before ← get
        set { before with out := [], err := [] }
        runNamed line (fields.headD "") fields.tail input fuel
        let after ← get
        set { after with out := before.out, err := before.err }
        send sinks.1 after.out
        send sinks.2 after.err

def runNamed (line : Nat) (name : String) (args : List String)
    (input : List UInt8) : Nat → Step Unit
  | 0 => return
  | fuel + 1 => do
    let s ← get
    match name with
    | "echo" =>
      emit 1 (echoBytes args)
      setStatus 0
    | "printf" =>
      emit 1 (formatBytes (args.headD "") args.tail (args.length + 1))
      setStatus 0
    | ":" | "true" => setStatus 0
    | "false" => setStatus 1
    | "exit" =>
      finish (((args.head?.bind String.toInt?).getD s.status) % 256)
    | "test" => setStatus (if testHolds s.world args then 0 else 1)
    | "[" => setStatus (if testHolds s.world args.dropLast then 0 else 1)
    | "shift" => set { s with args := s.args.tail, status := 0 }
    | "pwd" =>
      emit 1 (utf8 (Disk.placeText s.world.seat.place ++ "\n"))
      setStatus 0
    | "cd" =>
      let done ← onFiles (Files.changeDir (args.headD (s.world.env.get "HOME")))
      setStatus (if done then 0 else 2)
    | "read" =>
      let text := decodeReplacing input
      setVariable (args.headD "REPLY")
        (String.ofList (text.takeWhile (· != '\n')))
      setStatus (if text.contains '\n' then 0 else 1)
    | "kill" =>
      let number := match args with
        | first :: _ :: _ => ((first.drop 1).toString.toInt?).getD 15
        | _ => 15
      finish (-number)
    | "exec" =>
      if !args.isEmpty then
        runExternal line (args.headD "") args.tail fuel
        finish (← get).status
    | _ => runExternal line name args fuel

def runExternal (line : Nat) (name : String) (args : List String) :
    Nat → Step Unit
  | 0 => return
  | fuel + 1 => do
    let s ← get
    match resolve s.world name with
    | .error code =>
      complain line (if code == .denied then s!"{name}: Permission denied"
        else s!"{name}: not found")
      setStatus (if code == .denied then 126 else 127)
    | .ok (path, found) =>
      runImage path found args fuel
      modify fun t =>
        { t with
          name := s.name, args := s.args, shellVars := s.shellVars
          world := { t.world with seat := s.world.seat }
          ended := if t.ended == some .late then t.ended else none }

def runImage (path : String) (found : Image) (args : List String) :
    Nat → Step Unit
  | 0 => return
  | fuel + 1 => do
    match found with
    | .script text =>
      modify fun s => { s with
        name := path, args := args, shellVars := [], status := 0, ended := none }
      runCommands (readScript text) fuel
    | .echo =>
      let (newline, words) := match args with
        | "-n" :: rest => (false, rest)
        | _ => (true, args)
      emit 1 (utf8 (" ".intercalate words ++ (if newline then "\n" else "")))
      setStatus 0
    | .sleep =>
      sleepFor ((args.head?.bind Number.readFloat).getD 0)
      setStatus 0
    | .shell =>
      match args with
      | "-c" :: script :: rest =>
        modify fun s =>
          { s with
            name := rest.headD path, args := rest.tail, shellVars := []
            status := 0, ended := none }
        runCommands (readScript script.toList) fuel
      | file :: rest =>
        match ← inputOf file with
        | some bytes =>
          modify fun s => { s with
            name := file, args := rest, shellVars := [], status := 0
            ended := none }
          runCommands (readScript (decodeReplacing bytes)) fuel
        | none =>
          emit 2 (utf8 s!"{path}: 0: cannot open {file}: No such file\n")
          setStatus 2
      | [] => setStatus 0

end

def maxSteps : Nat := 100000

/-- Runs a program to its end, as the child process of a machine that has these
programs. -/
def spawn (command : List String) (limit : Option Float) (disk : Disk)
    (seat : Seat) (env : Env) :
    Except Errno ChildOutcome × Disk :=
  let w : Site :=
    { (default : Site) with disk := disk, seat := seat, env := env }
  match resolve w (command.headD "") with
  | .error code => (.error code, disk)
  | .ok (path, found) =>
    let s : State := ⟨w, [], path, command.tail, [], [], 0, 0, limit, none⟩
    let (_, s) := (runImage path found command.tail maxSteps).run s
    let code := match s.ended with
      | some .late => none
      | some (.exit code) => some code
      | none => some s.status
    (.ok ⟨s.out, s.err, code⟩, s.world.disk)

end TaskShell.Program

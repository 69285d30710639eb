import TaskShell.Shell.Command

/-!
# Builtin commands

Commands that the shell itself runs, because they look at the session or change
it: the directory, the environment, the aliases and the help.
-/

namespace TaskShell.Shell

open Text

inductive Builtin where
  | cd
  | pwd
  | echo
  | print
  | ls
  | env
  | set
  | get
  | help
  | defineAlias
  | unalias
  | aliases
  deriving DecidableEq, Repr

/-- The names by which chains know builtin commands. They are set down apart
from the cascade of `Builtin.ofName?`. -/
def builtinNames : List String :=
  ["cd", "pwd", "echo", "print", "ls", "env", "set", "get", "help", "alias",
    "unalias", "aliases"]

/-- The `Builtin` that answers to a name, by one test after the other. -/
def Builtin.ofName? (name : String) : Option Builtin :=
  if name == "help" then some .help
  else if name == "alias" then some .defineAlias
  else if name == "unalias" then some .unalias
  else if name == "aliases" then some .aliases
  else if name == "cd" then some .cd
  else if name == "pwd" then some .pwd
  else if name == "echo" then some .echo
  else if name == "print" then some .print
  else if name == "ls" then some .ls
  else if name == "env" then some .env
  else if name == "set" then some .set
  else if name == "get" then some .get
  else none

def builtinHelp : List (String × String) := [
  ("alias", "alias name='expansion' - Define a session alias."),
  ("aliases", "aliases - List currently defined aliases."),
  ("cd", "cd <path> - Change directory (supports --mkdir/--create/--p)."),
  ("echo", "echo <text> - Print text (expands $env:VAR)."),
  ("env", "env - List environment variables."),
  ("get", "get VAR - Get environment variable."),
  ("help",
    "help [command] - Show available commands or details for a command."),
  ("ls", "ls [path] - List directory."),
  ("lupdate", "lupdate - Update the shell"),
  ("print", "print <text> - Same as echo."),
  ("pwd", "pwd - Print current directory."),
  ("set", "set VAR=VALUE - Set environment variable."),
  ("unalias", "unalias name - Remove an alias.")]

def overviewLine (name summary : String) : String :=
  padRight 15 name ++ " - " ++ summary

def overview : String :=
  let sorted := Command.table.mergeSort fun a b => a.1 ≤ b.1
  joinLines (sorted.map (fun (name, c) => overviewLine name c.summary) ++
    ["\nBuiltins:"] ++ builtinHelp.map fun (name, doc) => overviewLine name doc)

def helpOn (topic : String) : String :=
  match Command.ofName? topic with
  | some c => topic ++ "\n" ++ c.help.getD ""
  | none =>
    match builtinHelp.lookup topic with
    | some doc => topic ++ "\n" ++ doc
    | none => s!"No such command: {topic}"

/-- Shows the `overview`, or the help on a topic. -/
def helpBuiltin (args : Args) : Job Value := do
  let s ← needText "strip" (textArg args)
  let topic := trim s
  pure (.text (if topic.isEmpty then overview else helpOn topic))

/-- The name and the expansion that a text defines. -/
def aliasDefinition (v : Value) : Job (String × String) := do
  match v with
  | .text raw =>
    match splitOnce? '=' raw.toList with
    | some (name, rest) =>
      pure (trim (String.ofList name),
        trimOf ['\'', '"'] (trim (String.ofList rest)))
    | none =>
      let words ← splitValue v
      match words with
      | name :: rest => pure (name, " ".intercalate rest)
      | [] => Act.fail (.unsupported "list index out of range")
  | .list _ | .record _ => do
    let _ ← splitValue v
    pure ("", "")
  | v =>
    let kind := v.kind
    Act.fail (.kind (.other s!"argument of type '{kind}' is not iterable"))

/-- Sets an entry of a list; a name that is already there keeps its place. -/
def setAlias (aliases : List (String × String)) (name expansion : String) :
    List (String × String) :=
  Env.set aliases name expansion

def aliasBuiltin (args : Args) : Act Value := do
  let v := args.givenOr "str" (.text "")
  if !v.isTruthy then return .text "usage: alias name='expansion'"
  let s ← orMessage "alias failed: " do
    let (name, expansion) ← aliasDefinition v
    if name.isEmpty || expansion.isEmpty then pure "invalid alias"
    else
      modify fun w => { w with aliases := setAlias w.aliases name expansion }
      pure ""
  pure (.text s)

def unaliasBuiltin (args : Args) : Act Value := do
  let s ← needText "strip" (args.givenOr "str" (.text ""))
  let name := trim s
  if name.isEmpty then return .text "usage: unalias name"
  modify fun w => { w with aliases := Env.unset w.aliases name }
  pure (.text "")

def aliasesBuiltin : Act Value := do
  let aliases := (← get).aliases
  if aliases.isEmpty then return .text "no aliases"
  pure (.text (joinLines (aliases.map fun (name, expansion) =>
    s!"{name} -> {expansion}")))

def cdBuiltin (args : Args) : Job Value := do
  let given := args.givenOr "str" (args.getD "path" (.text ""))
  let home := (← get).expandHome "~"
  let v := if given.isTruthy then given else .text home
  let s ← orMessage "cd failed: " do
    let v ← expandValue v
    Files.changeDir v.display
    Files.workingDir
  pure (.text s)

def pwdBuiltin : Job Value := do
  let s ← orMessage "pwd failed: " Files.workingDir
  pure (.text s)

def lsBuiltin (args : Args) : Job Value := do
  let v := args.givenOr "str" (args.getD "path" (.text "."))
  let s ← orMessage "ls failed: " do
    let v ← expandValue v
    let p ← match v with
      | .null => pure "."
      | v => pathFor "listdir" v
    let names ← Files.listDir p
    pure (joinLines names)
  pure (.text s)

def envBuiltin : Job Value := do
  let env := (← get).env
  pure (.text (joinLines (env.map fun (name, value) => s!"{name}={value}")))

def dropReference (name : String) : String :=
  let cs := name.toList
  let cs := (afterStart? "$env:".toList cs).getD cs
  String.ofList ((afterStart? ['$'] cs).getD cs)

def dropQuotes (value : String) : String :=
  let cs := value.toList
  match cs.head?, cs.getLast? with
  | some a, some b =>
    if cs.length ≥ 2 && a == b && (a == '"' || a == '\'') then
      String.ofList (cs.drop 1).dropLast
    else value
  | _, _ => value

/-- The name and the value of an assignment, if it is one. -/
def assignment? (raw : String) : Option (String × String) :=
  let parts := match splitOnce? '=' raw.toList with
    | some (name, value) =>
      some (trim (String.ofList name), trim (String.ofList value))
    | none =>
      match Words.splitOrBlanks raw with
      | name :: value :: rest => some (name, " ".intercalate (value :: rest))
      | _ => none
  parts.map fun (name, value) => (dropReference name, dropQuotes value)

def setBuiltin (args : Args) : Job Value := do
  let s ← needText "strip" (args.givenOr "str" (.text ""))
  match assignment? (trim s) with
  | none => pure (.text "usage: set VAR=VALUE")
  | some (name, value) =>
    let s ← orMessage "set failed: " do
      let env ← Act.ofExcept ((← get).env.assign name value)
      modify fun w => { w with env := env }
      pure ""
    pure (.text s)

def getBuiltin (args : Args) : Job Value := do
  let v := textArg args
  if !v.isTruthy then return .text ""
  let name ← needText "startswith" v
  let env := (← get).env
  pure (.text (env.get (dropReference name)))

def Builtin.run (b : Builtin) (args : Args) : Act Value :=
  match b with
  | .cd => cdBuiltin args
  | .pwd => pwdBuiltin
  | .echo | .print => echoCommand args
  | .ls => lsBuiltin args
  | .env => envBuiltin
  | .set => setBuiltin args
  | .get => getBuiltin args
  | .help => helpBuiltin args
  | .defineAlias => aliasBuiltin args
  | .unalias => unaliasBuiltin args
  | .aliases => aliasesBuiltin

def runBuiltin (name : String) (b : Builtin) (args : Args) : Act Value := do
  Act.note ⟨true, name, .record args⟩
  b.run args

/-- Runs the `Builtin` of a name; nothing if the name is not handled. -/
def callBuiltin (name : String) (args : Args) : Act (Option Value) := do
  match Builtin.ofName? name with
  | some b =>
    let v ← runBuiltin name b args
    pure (some v)
  | none => pure none

end TaskShell.Shell

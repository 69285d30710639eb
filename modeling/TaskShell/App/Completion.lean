import TaskShell.Editor.Menu
import TaskShell.Path.Wildcard
import TaskShell.Shell.Command

/-!
# Completing words

What the word under the cursor may become: the name of a command, a flag of the
command that was typed, or a path. Two line editors ask in two ways; one knows
the word and the whole line, the other the text before the cursor.
-/

namespace TaskShell.App

open Text Shell
open TaskShell.Editor (Completion)

def knownFlags : List (String × List String) := [
  ("cd", ["--mkdir", "--create", "--p"]),
  ("cowsay", ["--animal", "--colour", "--color", "-a"]),
  ("apt", ["install", "remove", "search", "--force"]), ("head", ["--n"]),
  ("tail", ["--n"]),
  ("grep", ["--pattern", "--file", "-n", "-i"]), ("find", ["--name", "--path"]),
  ("json", ["--file"]),
  ("wc", ["--file", "--bytes"]), ("ls", ["--all", "--long", "--path"])]

/-- The flags that are offered for every command. -/
def commonFlags : List String :=
  ["--file", "--n", "--path", "--pattern", "--recursive", "--help",
    "--str", "--url"]

def isFlagChar (c : Char) : Bool :=
  c.isAlphanum || c == '_' || c == '-' || c == ':'

/-- The flags that a text mentions. `fuel` bounds the number of characters. -/
def flagsInFrom : Nat → List Char → List String
  | 0, _ => []
  | _, [] => []
  | fuel + 1, '-' :: '-' :: rest =>
    match rest.takeWhile isFlagChar with
    | [] => flagsInFrom fuel ('-' :: rest)
    | name =>
      String.ofList ('-' :: '-' :: name) ::
        flagsInFrom fuel (rest.dropWhile isFlagChar)
  | fuel + 1, _ :: rest => flagsInFrom fuel rest

def flagsIn (s : String) : List String := flagsInFrom (s.length + 1) s.toList

/-- The flags that are offered for a command: the known ones, those that its
help mentions, and `commonFlags`. -/
def flagsOf (command : String) : List String :=
  if command.isEmpty then []
  else
    let known := (knownFlags.lookup command).getD []
    let mentioned :=
      flagsIn (((Command.ofName? command).bind Command.help).getD "")
    known ++ dropSeen known (mentioned ++ commonFlags)

/-- Words at the start of a line that are no commands of workers. -/
def specialWords : List String :=
  ["!pwsh", "!cmd", "!multithread", "!mt", "exit", "quit", "cd", "pwd", "ls",
    "env", "set", "get", "alias", "unalias", "aliases", "help"]

def firstWords : List String :=
  sortLines (dropSeen [] (Command.names ++ specialWords))

def looksLikePath (s : String) : Bool :=
  match s.toList with
  | '.' :: _ | '/' :: _ | '\\' :: _ => true
  | _ :: ':' :: _ => true
  | _ => false

def isForeign (parts : List String) : Bool :=
  parts.head? == some "!pwsh" || parts.head? == some "!cmd"

/-- The words of a line that is being typed, by `Words.split`; a blank at its
end starts an empty word. -/
def typedWords (line : String) : List String :=
  match Words.split line with
  | .ok parts => if endsWith line " " then parts ++ [""] else parts
  | .error _ => words line

def isFirstWord (line : String) (parts : List String) : Bool :=
  parts.length == 1 && !endsWith line " "

def completeWord (w : Site) (line word : String) : List String :=
  let parts := typedWords line
  if isForeign parts then []
  else
    let current := parts.getLast?.getD word
    let found := match parts.head?.bind Command.ofName?, parts.head? with
      | some _, some command =>
        if isFirstWord line parts then
          (sortLines Command.names).filter (startsWith · current)
        else
          match (flagsOf command).filter (startsWith · current) with
          | [] =>
            if looksLikePath current then Path.glob w (current ++ "*") else []
          | flags => flags
      | _, _ =>
        match firstWords.filter (startsWith · word) with
        | [] => Path.glob w (word ++ "*")
        | names => names
    dropSeen [] found

def replacements (w : Site) (before : String) (parts : List String)
    (current : String) : List String :=
  if isForeign parts then []
  else if looksLikePath current then Path.glob w (current ++ "*")
  else
    match parts.head?.bind Command.ofName?, parts.head? with
    | some _, some command =>
      if isFirstWord before parts then firstWords.filter (startsWith · current)
      else (flagsOf command).filter (startsWith · current)
    | _, _ => firstWords.filter (startsWith · current)

def completions (w : Site) (before : String) : List Completion :=
  let parts := typedWords before
  let current := parts.getLast?.getD ""
  (replacements w before parts current).map fun text => ⟨text, current.length⟩

end TaskShell.App

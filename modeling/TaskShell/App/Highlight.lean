import TaskShell.App.Completion

/-!
# Highlighting

The words of a line are shown by what they are: the command, flags, numbers,
paths and other arguments. What stands between them is shown plainly.
-/

namespace TaskShell.App

open Text

/-- How a piece of a line is shown. -/
inductive Role where
  | plain
  | command
  | flag
  | number
  | path
  | arg
  deriving DecidableEq, Repr

def Role.style : Role → String
  | plain => ""
  | command => "class:command"
  | flag => "class:flag"
  | number => "class:number"
  | path => "class:path"
  | arg => "class:arg"

def lineStyle : List (String × String) :=
  [("command", "bold ansiblue"), ("flag", "ansiyellow"), ("path", "ansigreen"),
    ("number", "ansimagenta"), ("arg", "ansicyan"), ("", "")]

structure Fragment where
  role : Role
  text : List Char
  deriving DecidableEq, Repr

def isFlag : List Char → Bool
  | '-' :: _ :: _ => true
  | _ => false

def roleOf (word : List Char) : Role :=
  if isFlag word then .flag
  else if !word.isEmpty && word.all isDecimal then .number
  else if looksLikePath (String.ofList word) then .path
  else .arg

def plainPiece (text : List Char) : List Fragment :=
  if text.isEmpty then [] else [⟨.plain, text⟩]

/-- The pieces of a line from a place on, given the words that are still to be
found in it. A word that is not found ends the search. -/
def fragmentsFrom (first : Bool) : List (List Char) → List Char → List Fragment
  | [], rest => plainPiece rest
  | word :: more, rest =>
    match indexOf? word rest with
    | none => plainPiece rest
    | some i =>
      plainPiece (rest.take i) ++
        ⟨if first then .command else roleOf word, word⟩ ::
        fragmentsFrom false more (rest.drop (i + word.length))

def highlight (line : String) : List Fragment :=
  match fragmentsFrom true ((Words.splitOrBlanks line).map String.toList)
      line.toList with
  | [] => [⟨.plain, line.toList⟩]
  | found => found

end TaskShell.App

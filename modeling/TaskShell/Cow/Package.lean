import TaskShell.Cow.Template
import TaskShell.World

/-!
# The installed package

An installed package of speech bubbles takes precedence over the built-in
drawings. Nothing is known of it but its functions. The package `catalogue`
draws bubbles of its own style.
-/

namespace TaskShell.Cow

open Text

/-- Cuts a line into pieces of at most `width` characters; `fuel` bounds their
number. -/
def chop (width : Nat) : Nat → List Char → List (List Char)
  | 0, _ => []
  | _ + 1, [] => []
  | fuel + 1, cs => cs.take width :: chop width fuel (cs.drop width)

/-- Cuts every line into pieces of at most `width` characters. -/
def chopLines (ls : List String) (width : Nat) : List String :=
  ls.flatMap fun l => (chop width l.length l.toList).map String.ofList

def packageWidth : Nat := 49

/-- The lines of a package bubble; a message without visible characters has
none. -/
def packageBubble (text : String) : Option (List String) :=
  let ls := chopLines (((pieces '\n' text).map trim).filter fun l =>
    !l.isEmpty) packageWidth
  if ls.isEmpty then none
  else
    let width := longest ls
    let several := 1 < ls.length
    some (["  " ++ copies width '_'] ++
      (if several then [" /" ++ copies width ' ' ++ "\\"] else []) ++
      (ls.map fun l => "| " ++ l ++ copies (width - l.length + 1) ' ' ++ "|") ++
      (if several then [" \\" ++ copies width ' ' ++ "/"] else []) ++
        ["  " ++ copies width '='])

/-- The lines of a drawing, moved right by `width`; empty lines are dropped. -/
def shiftArt (art : String) (width : Nat) : List String :=
  ((pieces '\n' art).filter fun l => !l.isEmpty).map fun l =>
    copies width ' ' ++ l

/-- The lines of a bubble with a drawing below its right end; a blank message
has none. -/
def packageDraw (text art : String) : Option (List String) :=
  if text.toList.all isBlank then none
  else (packageBubble text).map fun ls => ls ++ shiftArt art (longest ls - 4)

def character? (name : String) : Option String :=
  characters.lookup name

def characterNames : List String := characters.map (·.1)

/-- Why a character of the catalogue says nothing. -/
inductive SpeechFault where
  | unknownCharacter
  | blankText
  deriving DecidableEq, Repr

def SpeechFault.message : SpeechFault → String
  | unknownCharacter =>
    "Available Characters: [" ++
      ", ".intercalate (characterNames.map quoted) ++ "]"
  | blankText => "Pass something meaningful to cowsay"

def say (name text : String) : Except SpeechFault String :=
  match character? name with
  | none => .error .unknownCharacter
  | some art =>
    match packageDraw text art with
    | none => .error .blankText
    | some ls => .ok (joinLines ls)

def said? : Speech → Option String
  | .said text => if text.isEmpty then none else some text
  | .misfit | .failed => none

/-- What a package makes of an animal: the function of that name draws it, or
else the one for all animals, with the name or without it. -/
def packageAnimal (p : CowPackage) (message animal : String) : Option String :=
  match p animal with
  | some draw => said? (draw message none)
  | none =>
    (p "cowsay").bind fun draw =>
      match draw message (some animal) with
      | .misfit => said? (draw message none)
      | speech => said? speech

/-- What a package makes of a template, which it may be able to read. -/
def packageTemplate (p : CowPackage) (message content : String) :
    Option String :=
  let read := (p "read_dot_cow").bind fun read => said? (read content none)
  (p "cowsay").bind fun draw =>
    match draw message (some (read.getD content)) with
    | .said text => said? (.said text)
    | _ => said? (draw message none)

/-- The package with the catalogue of `characters`: it has a function for each,
and none for all. The last character also answers to the name that the package
made it under. -/
def catalogue : CowPackage := fun name =>
  let art := if name == "func" then (characterNames.getLast?).bind character?
    else character? name
  art.map fun art message _ =>
    match packageDraw message art with
    | some ls => .said (String.join (ls.map (· ++ "\n")))
    | none => .failed

end TaskShell.Cow

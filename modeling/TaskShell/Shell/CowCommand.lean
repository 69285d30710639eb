import TaskShell.Cow.Package
import TaskShell.Paint
import TaskShell.Shell.Argument

/-!
# Speech bubbles with animals

The command that lets an animal say something: in a bubble above a drawing, and
perhaps in colour.
-/

namespace TaskShell.Shell

open Text Number

def wordNumber? (s : String) : Option Int :=
  match readInt s with
  | .ok i => some i
  | .error _ => none

def colourNumbers : Value → List Int
  | .text s => (words s).filterMap wordNumber?
  | .list items => items.filterMap fun v => wordNumber? v.display
  | .int i => [i]
  | .bool b => (wordNumber? (Value.bool b).display).toList
  | _ => []

/-- Takes numbers from the start of a message, at most so many. -/
def takeNumbers : Nat → List String → List Int × List String
  | 0, ws => ([], ws)
  | _, [] => ([], [])
  | n + 1, w :: ws =>
    match wordNumber? w with
    | some i =>
      let (numbers, rest) := takeNumbers n ws
      (i :: numbers, rest)
    | none => ([], w :: ws)

/-- The numbers of a colour and what is left of the message. Numbers that the
argument lacks are taken from the start of the message. -/
def colourAndMessage (v : Value) (message : String) : List Int × String :=
  let numbers := colourNumbers v
  if numbers.length < 3 && !message.isEmpty then
    let (taken, rest) := takeNumbers (3 - numbers.length) (words message)
    if taken.isEmpty then (numbers, message)
    else (numbers ++ taken, " ".intercalate rest)
  else (numbers, message)

def colourPart (i : Int) : Int := max 0 (min 255 i)

/-- The colour that the first three numbers give. -/
def colourOf? : List Int → Option String
  | r :: g :: b :: _ =>
    some (Paint.rgb (colourPart r) (colourPart g) (colourPart b))
  | _ => none

def drawing (message animal : String) (template : Option String) : String :=
  match template with
  | some content => Cow.drawTemplate message content
  | none => Cow.draw message animal

def paintLines (colour s : String) : String :=
  joinLines ((lines s).map (Paint.paint colour))

def animalOf (args : Args) : String :=
  lower (args.getD "animal" (args.givenOr "a" (.text "cow"))).display

def namedColour? (args : Args) : Option String :=
  match args.getD "colour" (args.getD "color" .null) with
  | .text s => Paint.named.lookup (lower s)
  | _ => none

def cowsayCommand (args : Args) : Job Value := do
  let message := trim (args.getD "str" (.text "")).display
  let animal := animalOf args
  let file := args.getD "cowfile" .null
  let template ←
    if file.isTruthy then
      Act.attempt do
        let p ← openable file
        let cs ← Files.readText p
        pure (some (String.ofList cs))
    else pure (.ok (Cow.templates.lookup animal))
  match template with
  | .error f => pure (.text s!"cowsay failed to read cowfile: {f.message}")
  | .ok template =>
    let (numbers, message) := match args.get? "rgb" with
      | some .null | none => ([], message)
      | some v => colourAndMessage v message
    let template := template.filter fun content => !content.isEmpty
    let w ← get
    let art := (w.host.cowPackage.bind fun p =>
      match template with
      | some content => Cow.packageTemplate p message content
      | none => Cow.packageAnimal p message animal).getD
        (drawing message animal template)
    match (colourOf? numbers).or (namedColour? args) with
    | some colour => pure (.text (paintLines colour art))
    | none => pure (.text art)

end TaskShell.Shell

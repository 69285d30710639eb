import TaskShell.Files.Basic
import TaskShell.Number.Reading

/-!
# Arguments of commands

Commands take dynamic values. Each way of using one has its own fault for a
value of the wrong kind.
-/

namespace TaskShell.Shell

open Text Number

/-! ## References to variables -/

def startsReference (c : Char) : Bool := c.isAlpha || c == '_'

/-- The name at the start of a text, if one starts there. -/
def nameAt? (cs : List Char) : Option (List Char) :=
  match cs with
  | c :: rest =>
    if startsReference c then some (c :: rest.takeWhile isWordChar) else none
  | [] => none

/-- The name that is referred to after a dollar sign, with the length of the
reference. -/
def referenceAt? (cs : List Char) : Option (String × Nat) :=
  let long := (afterStart? "env:".toList cs).bind fun rest =>
    (nameAt? rest).map fun name => (String.ofList name, name.length + 4)
  let braced := (afterStart? ['\x7b'] cs).bind fun rest =>
    (nameAt? rest).bind fun name =>
      if (rest.drop name.length).head? == some '\x7d' then
        some (String.ofList name, name.length + 2)
      else none
  let short := (nameAt? cs).map fun name => (String.ofList name, name.length)
  (long.or braced).or short

/-- Puts values in place of references; `fuel` bounds the number of
characters. -/
def expandFrom (env : Env) : List Char → Nat → List Char
  | cs, 0 => cs
  | [], _ => []
  | '$' :: rest, fuel + 1 =>
    match referenceAt? rest with
    | none => '$' :: expandFrom env rest fuel
    | some (name, size) =>
      (env.get name).toList ++ expandFrom env (rest.drop size) fuel
  | c :: rest, fuel + 1 => c :: expandFrom env rest fuel

/-- Puts the values of variables in place of references to them
(`referenceAt?`). -/
def expand (env : Env) (s : String) : String :=
  String.ofList (expandFrom env s.toList s.length)

/-- `expand` in all texts among arguments. -/
def expandArgs (env : Env) (args : Args) : Args :=
  args.map fun (name, v) =>
    match v with
    | .text s => (name, .text (expand env s))
    | v => (name, v)

/-! ## Arguments -/

def needText (operation : String) : Value → Job String
  | .text s => pure s
  | v => Act.fail (.kind (.noOperation v.kind operation))

def saysYes (v : Value) : Bool :=
  ["1", "true", "yes", "on"].contains (lower (trim v.display))

def integerOf : Value → Job Int
  | .int i => pure i
  | .bool b => pure (if b then 1 else 0)
  | .float x =>
    if isNaN x then
      Act.fail (.value (.other "cannot convert float NaN to integer"))
    else if isInfinite x then
      Act.fail (.overflow "cannot convert float infinity to integer")
    else pure (truncate x)
  | .text s =>
    match readInt s with
    | .ok i => pure i
    | .error (.malformed) => Act.fail (.value (.badInteger s))
    | .error (.tooLong digits) => Act.fail (.value (.longInteger digits))
  | v => Act.fail (.kind (.notInteger v.kind))

def openable : Value → Job String
  | .text s => pure s
  | .int _ | .bool _ => Act.fail (.system .badDescriptor [])
  | v => Act.fail (.kind (.notPath v.kind))

def pathOf : Value → Job String
  | .text s => pure s
  | v => Act.fail (.kind (.notPath v.kind))

/-- The path that a system call takes; a number stands for a file that is not
open. -/
def pathFor (call : String) : Value → Job String
  | .text s => pure s
  | .int i => Act.fail (.system .badDescriptor [.int i])
  | .bool b => Act.fail (.system .badDescriptor [.bool b])
  | v => Act.fail (.kind (.notPathOrNumberFor call v.kind))

/-- A text with references expanded; nothing and other empty values stay as they
are. -/
def expandValue (v : Value) : Job Value := do
  if !v.isTruthy then pure v
  else
    match v with
    | .text s =>
      let w ← get
      pure (.text (expand w.env s))
    | v => Act.fail (.kind (.notSearchable v.kind))

/-- The result of an action, or the message of its `Fault` after a lead. -/
def orMessage {σ : Type} (lead : String) (act : Doing σ String) :
    Doing σ String :=
  Act.orElse act fun f => pure (lead ++ f.message)

end TaskShell.Shell

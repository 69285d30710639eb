import TaskShell.Shell.Argument

/-!
# Commands on text

Commands that read a text, given as an argument or in a file, and return another
one.
-/

namespace TaskShell.Shell

open Text

/-- The text argument of a command; empty if it is not given. -/
def textArg (args : Args) : Value := args.getD "str" (.text "")

def pageLimit : Nat := 65536

def fetch (url : Value) : Job (Int × List (String × String) × List UInt8) := do
  let w ← get
  match url.text?.bind fun u => w.host.net.lookup u with
  | some (.page status headers body) => pure (status, headers, body)
  | some (.refused reason) => Act.fail (.network reason)
  | none => Act.fail (.network "unreachable")

def reversed (s : String) : String := String.ofList s.toList.reverse

def reverseCommand (args : Args) : Job Value := do
  let file := args.givenOr "file" (args.getD "f" .null)
  if file.isTruthy then
    let s ← orMessageOr "reverse failed reading file: " do
      let p ← openable file
      let cs ← Files.readText p
      pure (String.ofList cs)
    pure (.text s)
  else
    let url := args.givenOr "url" (args.getD "u" .null)
    if url.isTruthy then
      let s ← orMessageOr "reverse failed fetching url: " do
        let (_, _, body) ← fetch url
        pure (String.ofList (decodeReplacing (body.take pageLimit)))
      pure (.text s)
    else
      let v := args.givenOr "str" (.text "")
      pure (.text (reversed v.display))
where
  /-- The reversed text that an action gives, or the message of its failure. -/
  orMessageOr (lead : String) (act : Job String) : Job String :=
    orMessage lead (do
      let s ← act
      pure (reversed s))

def upperCommand (args : Args) : Job Value := do
  let s ← needText "upper" (textArg args)
  pure (.text (upper s))

def echoCommand (args : Args) : Job Value :=
  expandValue (textArg args)

/-- The text of the file argument, or else the text argument. A failure to read
the file is a result. -/
def withText (name operation : String) (args : Args) (use : String → Value) :
    Job Value := do
  let file := args.getD "file" .null
  if file.isTruthy then
    Act.orElse (do
      let p ← openable file
      let cs ← Files.readText p
      pure (use (String.ofList cs))) fun f =>
        pure (.text s!"{name} failed: {f.message}")
  else
    let s ← needText operation (textArg args)
    pure (use s)

def sortCommand (args : Args) : Job Value :=
  withText "sort" "splitlines" args fun s =>
    .text (joinLines (sortLines (lines s)))

/-- Drops repeated lines: those right after their like, or on demand all. -/
def uniqCommand (args : Args) : Job Value := do
  let everywhere := ["1", "true",
    "yes"].contains (lower (trim (args.getD "all" (.text "")).display))
  let s ← needText "splitlines" (textArg args)
  let ls := lines s
  pure (.text
    (joinLines (if everywhere then dropSeen [] ls else dropRepeats none ls)))

/-- The first lines of a file if it has that many, without their line feeds. -/
def fileHead? (n : Int) (cs : List Char) : Option (List String) :=
  let ls := fileLines cs
  if n.toNat ≤ ls.length then
    some ((ls.take n.toNat).map fun l => String.ofList (trimEnd (· == '\n') l))
  else none

def headCommand (args : Args) : Job Value := do
  let n ← integerOf (args.getD "n" (.int 10))
  let file := args.getD "file" .null
  if file.isTruthy then
    Act.orElse (do
      let p ← openable file
      let cs ← Files.readText p
      pure (.text (((fileHead? n cs).map joinLines).getD ""))) fun f =>
        pure (.text s!"head failed: {f.message}")
  else
    let s ← needText "splitlines" (textArg args)
    pure (.text (joinLines (firstItems n (lines s))))

def tailCommand (args : Args) : Job Value := do
  let n ← integerOf (args.getD "n" (.int 10))
  withText "tail" "splitlines" args fun s =>
    .text (joinLines (lastItems n (lines s)))

def counts (s : String) : Nat × Nat × Nat :=
  (s.toList.count '\n', (words s).length, (utf8 s).length)

def wcCommand (args : Args) : Job Value :=
  withText "wc" "count" args fun s =>
    let (lineCount, wordCount, byteCount) := counts s
    .text s!"{lineCount} {wordCount} {byteCount}"

/-- Repeats a text on lines of their own, within bounds. -/
def yesCommand (args : Args) : Job Value := do
  let v := args.getD "str" (.text "y")
  let n ← integerOf (args.getD "n" (.int 100))
  let size := (max 0 (min 10000 n)).toNat
  match v with
  | .text s => pure (.text (joinLines (List.replicate size s)))
  | v =>
    if size == 0 then pure (.text "")
    else Act.fail (.kind (.notJoinable 0 v.kind))

def basenameCommand (args : Args) : Job Value := do
  let p ← pathOf (args.givenOr "str" (.text ""))
  pure (.text (Path.baseName p))

def dirnameCommand (args : Args) : Job Value := do
  let p ← pathOf (args.givenOr "str" (.text ""))
  pure (.text (Path.dirName p))

end TaskShell.Shell

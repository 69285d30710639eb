import TaskShell.Codec.Base64
import TaskShell.Files.Mode
import TaskShell.Files.Transfer
import TaskShell.Json.Writer
import TaskShell.Pattern.Match
import TaskShell.Shell.TextCommand

/-!
# Commands on files

Commands that look at files and directories or change them. What goes wrong is
reported in the result.
-/

namespace TaskShell.Shell

open Text

def pwdCommand : Job Value := do
  let p ← Files.workingDir
  pure (.text p)

def cdCommand (args : Args) : Job Value := do
  let raw ← expandValue (args.givenOr "str" (.text ""))
  let w ← get
  let p := Path.expandVariables w.env (w.expandHome raw.display)
  if p.isEmpty then
    let s ← orMessage "cd failed: " do
      Files.changeDir (w.expandHome "~")
      Files.workingDir
    return .text s
  let target ←
    if Path.isAbsolute p then pure (Path.normalize p)
    else do
      let here ← Files.workingDir
      pure (Path.normalize (Path.join here p))
  let wanted :=
    ["mkdir", "create", "p"].any fun flag => saysYes (args.getD flag .null)
  let change : Job Value := do
    let s ← orMessage "cd failed: " do
      Files.changeDir target
      Files.workingDir
    pure (.text s)
  if Files.exist w target then change
  else if !wanted then pure (.text s!"cd failed: path not found: {target}")
  else
    let made ← Act.attempt (Files.makeDirs target)
    match made with
    | .ok _ => change
    | .error f => pure (.text s!"cd failed creating {target}: {f.message}")

def lsCommand (args : Args) : Job Value := do
  let given ← expandValue (textArg args)
  let v := if given.isTruthy then given else args.getD "path" (.text ".")
  let s ← orMessage "ls failed: " do
    let p ← match v with
      | .null => pure "."
      | v => pathFor "listdir" v
    let names ← Files.listDir p
    pure (joinLines names)
  pure (.text s)

def catCommand (args : Args) : Job Value := do
  let v := textArg args
  if !v.isTruthy then return .text "usage: cat <file>"
  let s ← needText "split" v
  let texts ← (words s).mapM fun p =>
    orMessage s!"cat failed ({p}): " do
      let cs ← Files.readText p
      pure (String.ofList cs)
  pure (.text (joinLines texts))

def fileHeadCommand (args : Args) : Job Value := do
  let v := textArg args
  let n ← integerOf (args.getD "n" (.int 10))
  if !v.isTruthy then return .text "usage: head <file> [--n N]"
  let s ← orMessage "head failed: " do
    let p ← openable v
    let cs ← Files.readText p
    let ls := (fileLines cs).take n.toNat
    pure (joinLines (ls.map fun l => String.ofList (trimEnd (· == '\n') l)))
  pure (.text s)

/-- The size of the pieces in which a file is read from its end. -/
def tailBlock : Nat := 1024

/-- How far `tailLines` has read a file from its end. -/
structure Backward where
  /-- The bytes before the ones read so far, last one first. -/
  unread : List UInt8
  data : List UInt8
  found : List (List UInt8)

namespace Backward

def start (bytes : List UInt8) : Backward := ⟨bytes.reverse, [], []⟩

/-- Reads the piece of `tailBlock` bytes before the bytes read so far. -/
def step (r : Backward) : Backward :=
  let data := (r.unread.take tailBlock).reverse ++ r.data
  ⟨r.unread.drop tailBlock, data, byteLines data⟩

/-- Whether nothing is left to read or more than `n` lines are there. -/
def isDone (n : Int) (r : Backward) : Bool :=
  r.unread.isEmpty || n < r.found.length

theorem length_step_lt {n : Int} {r : Backward} (h : ¬ r.isDone n) :
    r.step.unread.length < r.unread.length := by
  have hunread : 0 < r.unread.length := by
    refine List.length_pos_iff.2 fun hnil => h ?_
    rw [isDone, hnil]
    rfl
  simp only [step, tailBlock, List.length_drop]
  omega

/-- Reads pieces until nothing is left or more than `n` lines are there. -/
def run (n : Int) (r : Backward) : Backward :=
  if r.isDone n then r else run n r.step
termination_by r.unread.length
decreasing_by exact length_step_lt ‹_›

end Backward

/-- The last lines of the bytes of a file, read in pieces from the end. -/
def tailLines (n : Int) (bytes : List UInt8) : List (List UInt8) :=
  lastItems n ((Backward.start bytes).run n).found

def fileTailCommand (args : Args) : Job Value := do
  let v := textArg args
  let n ← integerOf (args.getD "n" (.int 10))
  if !v.isTruthy then return .text "usage: tail <file> [--n N]"
  let s ← orMessage "tail failed: " do
    let p ← openable v
    let bytes ← Files.readBytes p
    pure (joinLines ((tailLines n bytes).map fun l =>
      String.ofList (decodeReplacing l)))
  pure (.text s)

def fileCountCommand (args : Args) : Job Value := do
  let v := args.givenOr "str" (args.getD "path" (.text ""))
  if !v.isTruthy then return .text "usage: wc <file>"
  let s ← orMessage "wc failed: " do
    let p ← openable v
    let cs ← Files.readText p
    let (lineCount, wordCount, byteCount) := counts (String.ofList cs)
    pure s!"{lineCount} {wordCount} {byteCount} {p}"
  pure (.text s)

def transferPair (args : Args) : Value × Value :=
  (args.givenOr "src" (args.getD "str" (.text "")),
    args.givenOr "dst" (args.getD "to" .null))

def transferCommand (name : String) (transfer : String → String → Job Unit)
    (args : Args) : Job Value := do
  let (source, target) := transferPair args
  if !source.isTruthy || !target.isTruthy then
    return .text
      s!"usage: {name} --src <source> --dst <dest>  OR  {name} <src> <dst>"
  let s ← orMessage s!"{name} failed: " do
    let target ← pathOf target
    let source ← openable source
    transfer source target
    pure ""
  pure (.text s)

def cpCommand : Args → Job Value :=
  transferCommand "cp" fun source target => do
    let _ ← Files.copyWithFacts source target

def mvCommand : Args → Job Value :=
  transferCommand "mv" fun source target => do
    let _ ← Files.move source target

def pathArg (args : Args) : Value :=
  args.givenOr "str" (args.getD "path" (.text ""))

def rmCommand (args : Args) : Job Value := do
  let v := pathArg args
  let whole := saysYes (args.getD "r" (args.getD "recursive" (.text "")))
  if !v.isTruthy then return .text "usage: rm <path> [--r 1]"
  let s ← orMessage "rm failed: " do
    match v with
    | .text p =>
      let w ← get
      if whole && Files.isDir w p then Files.removeTree p
      else Files.removeFile p
      pure ""
    | v => Act.fail (.kind (.notPathFor "remove" v.kind))
  pure (.text s)

def mkdirCommand (args : Args) : Job Value := do
  let v := pathArg args
  if !v.isTruthy then return .text "usage: mkdir <path>"
  let s ← orMessage "mkdir failed: " do
    let p ← pathOf v
    Files.makeDirs p
    pure ""
  pure (.text s)

def touchCommand (args : Args) : Job Value := do
  let v := pathArg args
  if !v.isTruthy then return .text "usage: touch <path>"
  let s ← orMessage "touch failed: " do
    let p ← openable v
    Files.touch p
    pure ""
  pure (.text s)

def secondsOf (t : Instant) : Float :=
  Number.ofInt t.seconds + 1e-9 * Number.ofInt t.nanos

def statCommand (args : Args) : Job Value := do
  let v := pathArg args
  if !v.isTruthy then return .text "usage: stat|info <path>"
  let s ← orMessage "stat failed: " do
    let p ← pathFor "stat" v
    let (_, node) ← Files.find p
    let mode := Files.modeText (Files.fullMode node)
    match Calendar.Stamp.ofSeconds (secondsOf node.changed) with
    | .ok t =>
      let time := t.iso "T" .auto
      pure s!"{p}\nsize={Files.sizeOf node} bytes\nmode={mode}\nmtime={time}"
    | .error f => Act.fail (.value (.other f.message))
  pure (.text s)

def grepCommand (args : Args) : Job Value := do
  let pattern := args.getD "pattern" (.text "")
  let file := args.getD "file" (.text "")
  if !pattern.isTruthy || !file.isTruthy then
    return .text "Fehler: grep benötigt --pattern und --file"
  let s ← orMessage "grep failed: " do
    let p ← openable file
    let ls ← Files.readLinesStrict p
    if ls.isEmpty then pure "Keine Treffer"
    else
      match pattern with
      | .text source =>
        match Pattern.compile source.toList with
        | .error f => Act.fail (.pattern (f.message source.toList))
        | .ok form =>
          let found := ls.filter form.occursIn
          let texts := found.map fun l => trim (String.ofList l)
          pure (if texts.isEmpty then "Keine Treffer" else joinLines texts)
      | .list _ | .record _ =>
        let kind := pattern.kind
        Act.fail (.kind (.other s!"unhashable type: '{kind}'"))
      | _ => Act.fail (.kind .notPattern)
  pure (.text s)

/-- The document in a text, in the layout `Json.Layout.pretty`. -/
def prettyDocument (cs : List Json.Sign) : Except Fault (List Json.Sign) :=
  match Json.readDocument ⟨.brief, true⟩ cs with
  | .error f => .error (.document (f.message cs))
  | .ok v =>
    match Json.writeDocument .pretty v with
    | .ok laid => .ok laid
    | .error _ =>
      .error
        (.value (.other "Out of range float values are not JSON compliant"))

/-- The text of some code points. A half of a pair has none, which is noted. -/
def renderSigns (cs : List Json.Sign) : Job String := do
  modify fun s => { s with strayed := s.strayed || cs.any Json.Sign.isHalf }
  pure (Json.textOf cs)

/-- Lays out a document with `prettyDocument` that is given or stands in a
file. -/
def jsonCommand (args : Args) : Job Value := do
  let v := args.givenOr "str" (.text "")
  if !v.isTruthy then return .text "usage: json '<json>' OR json --file <path>"
  let file := args.getD "file" .null
  let s ← orMessage "json failed: " do
    if file.isTruthy then
      let p ← openable file
      let cs ← Files.readTextStrict p
      renderSigns (← Act.ofExcept (prettyDocument (cs.map .scalar)))
    else
      match v with
      | .text s => renderSigns (← Act.ofExcept (prettyDocument (Json.signs s)))
      | v => Act.fail (.kind (.notDocument v.kind))
  pure (.text s)

def encodeCommand (args : Args) : Job Value := do
  let v := args.givenOr "str" (.text "")
  if !v.isTruthy then return .text "usage: b64_encode <text>"
  let s ← orMessage "b64_encode failed: " do
    let s ← needText "encode" v
    pure (String.ofList (decodeReplacing (Codec.Base64.encode (utf8 s))))
  pure (.text s)

/-- The run of characters beyond the small set at the start of a text. -/
def foreignRun (cs : List Char) : List Char :=
  cs.takeWhile fun c => c.toNat > 127

/-- The fault of a text that holds characters beyond the small set. -/
def asciiFault? (cs : List Char) : Option ValueFault :=
  let start := (cs.takeWhile fun c => c.toNat ≤ 127).length
  match foreignRun (cs.drop start) with
  | [] => none
  | [c] =>
    let shown := quotedChar c
    some (.unencodable s!"'ascii' codec can't encode character {shown} in position {start}: ordinal not in range(128)")
  | run =>
    let last := start + run.length - 1
    some (.unencodable s!"'ascii' codec can't encode characters in position {start}-{last}: ordinal not in range(128)")
where
  quotedChar (c : Char) : String :=
    let n := c.toNat
    let code :=
      if n < 256 then 'x' :: hex 2 n
      else if n < 65536 then 'u' :: hex 4 n else 'U' :: hex 8 n
    "'\\" ++ String.ofList code ++ "'"

def decodeCommand (args : Args) : Job Value := do
  let v := args.givenOr "str" (.text "")
  if !v.isTruthy then return .text "usage: b64_decode <b64>"
  let s ← orMessage "b64_decode failed: " do
    let s ← needText "encode" v
    match asciiFault? s.toList with
    | some f => Act.fail (.value f)
    | none =>
      match Codec.Base64.decode false (utf8 s) with
      | .ok bytes => pure (String.ofList (decodeReplacing bytes))
      | .error f => Act.fail (.encoding f.message)
  pure (.text s)

/-- The files below a directory, directory by directory from the top. -/
def filesBelow (w : Site) : Nat → String → List (String × List String)
  | 0, _ => []
  | fuel + 1, p =>
    match w.disk.locate w.seat p with
    | .ok (.at_ place) =>
      if w.disk.isDir place then
        let names := w.disk.names place
        let isDir (name : String) : Bool := w.disk.isDir (place ++ [name])
        (p, names.filter (!isDir ·)) ::
          (names.filter isDir).flatMap fun name =>
            filesBelow w fuel (Path.join p name)
      else []
    | .ok (.lost _) => [(p, [])]
    | .error _ => []

/-- The paths of `filesBelow` a directory whose names hold a text. -/
def findMatches (w : Site) (p name : String) : List String :=
  (filesBelow w (w.disk.length + 1) p).flatMap fun (dir, files) =>
    (files.filter fun f => contains f name).map (Path.join dir)

def findCommand (args : Args) : Job Value := do
  let v := args.givenOr "str" (args.getD "path" (.text "."))
  let name := args.getD "name" .null
  if !name.isTruthy then return .text "usage: find <path> --name <pattern>"
  let s ← orMessage "find failed: " do
    let p ← pathOf v
    Files.checkPath p
    let w ← get
    match name with
    | .text name =>
      let found := findMatches w p name
      pure (if found.isEmpty then "No matches" else joinLines found)
    | name =>
      if (filesBelow w (w.disk.length + 1) p).all fun d => d.2.isEmpty then
        pure "No matches"
      else
        let kind := name.kind
        Act.fail (.kind (.other
          s!"'in <string>' requires string as left operand, not {kind}"))
  pure (.text s)

end TaskShell.Shell

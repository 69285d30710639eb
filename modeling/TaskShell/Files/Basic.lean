import TaskShell.World
import TaskShell.Text.Lines

/-!
# File operations

The requests a command can make of the disk: finding, reading, writing, listing,
making and removing. Each fails with the condition under which the system
refuses it and the path as it was given.
-/

namespace TaskShell.Files

open Text

def refuse (code : Errno) (p : String) : Fault :=
  .system code [.text p]

def checkPath (p : String) : Job Unit :=
  if p.contains '\x00' then Act.fail (.value .nullByte) else pure ()

def workingDir : Job String := do
  let w ← get
  if w.seat.removed then Act.fail (.system .noEntry [])
  else return Disk.placeText w.seat.place

def locate (p : String) : Job Cursor := do
  checkPath p
  let w ← get
  match w.disk.locate w.seat p with
  | .ok cursor => return cursor
  | .error code => Act.fail (refuse code p)

def find (p : String) : Job (Place × Node) := do
  checkPath p
  let w ← get
  match w.disk.find w.seat p with
  | .ok found => return found
  | .error code => Act.fail (refuse code p)

def node? (w : Site) (p : String) : Option Node :=
  if p.contains '\x00' then none
  else
    match w.disk.find w.seat p with
    | .ok (_, node) => some node
    | .error _ => none

def exist (w : Site) (p : String) : Bool := (node? w p).isSome

def isFile (w : Site) (p : String) : Bool := (node? w p).any Node.isFile

def isDir (w : Site) (p : String) : Bool := (node? w p).any Node.isDir

def readBytes (p : String) : Job (List UInt8) := do
  let (_, node) ← find p
  if node.isDir then Act.fail (refuse .isDirectory p) else return node.data

/-- The text of a file with replacement characters for bad bytes and unified
newlines. -/
def readText (p : String) : Job (List Char) := do
  return unifyNewlines (decodeReplacing (← readBytes p))

/-- The text of a file without its bad bytes and with unified newlines. -/
def readTextIgnoring (p : String) : Job (List Char) := do
  return unifyNewlines (decodeIgnoring (← readBytes p))

/-- The text of a file of valid bytes, with unified newlines. -/
def readTextStrict (p : String) : Job (List Char) := do
  match decodeStrict (← readBytes p) with
  | .ok cs => return unifyNewlines cs
  | .error f => Act.fail (.value (.undecodable f))

def chunkSize : Nat := 8192

/-- Reads bytes piece by piece, as long as they are valid. `held` are the bytes
of a character that a piece cut off; a fault is placed from the start of the
piece with them. -/
def decodeChunks (held : List UInt8) :
    List UInt8 → Nat → Except Utf8Fault (List Char)
  | _, 0 => .ok []
  | [], _ => decodeStrict held
  | bytes, fuel + 1 =>
    let piece := held ++ bytes.take chunkSize
    let rest := bytes.drop chunkSize
    match decodeStrict piece with
    | .ok cs => (decodeChunks [] rest fuel).map (cs ++ ·)
    | .error f =>
      if f.reason == .truncated && f.offset + f.size == piece.length then
        match decodeStrict (piece.take f.offset) with
        | .ok cs => (decodeChunks (piece.drop f.offset) rest fuel).map (cs ++ ·)
        | .error f => .error f
      else .error f

/-- The lines of a file of valid bytes, each with its line feed. -/
def readLinesStrict (p : String) : Job (List (List Char)) := do
  let bytes ← readBytes p
  match decodeChunks [] bytes (bytes.length + 1) with
  | .ok cs => return fileLines (unifyNewlines cs)
  | .error f => Act.fail (.value (.undecodable f))

/-- The time that a change now leaves on a file. -/
def Host.instant (host : Host) : Instant :=
  let whole := Number.truncate host.clock
  ⟨whole, Calendar.roundEven ((host.clock - Number.ofInt whole) * 1000000000.0)⟩

def asksDir (p : String) : Bool := endsWith p "/"

/-- The place at which a file of the path would be written. -/
def target (p : String) : Job Place := do
  checkPath p
  let w ← get
  -- the last component may be missing, so trailing slashes are looked at apart
  let stem := String.ofList (Path.trimSlashes p.toList)
  match w.disk.locate w.seat stem with
  | .error code => Act.fail (refuse code p)
  | .ok (.lost _) => Act.fail (refuse .isDirectory p)
  | .ok (.at_ place) =>
    match w.disk.get? place with
    | some node =>
      if node.isDir then Act.fail (refuse .isDirectory p)
      else if asksDir p then Act.fail (refuse .notDirectory p)
      else return place
    | none =>
      if place.isEmpty || !w.disk.isDir place.dropLast then
        Act.fail (refuse .noEntry p)
      else if asksDir p then Act.fail (refuse .isDirectory p)
      else return place

def put (place : Place) (node : Node) : Job Unit :=
  modify fun w => { w with disk := w.disk.put place node }

/-- Writes bytes to a file, which keeps its permissions if it is already
there. -/
def writeBytes (p : String) (data : List UInt8) : Job Unit := do
  let place ← target p
  let w ← get
  let mode := ((w.disk.get? place).map Node.mode).getD 0o644
  put place ⟨.file data, mode, Host.instant w.host⟩

def appendBytes (p : String) (data : List UInt8) : Job Unit := do
  let place ← target p
  let old := (((← get).disk.get? place).map Node.data).getD []
  writeBytes p (old ++ data)

def writeText (p : String) (s : String) : Job Unit :=
  writeBytes p (utf8 s)

def changeDir (p : String) : Job Unit := do
  match ← locate p with
  | .lost _ => return ()
  | .at_ place =>
    match (← get).disk.get? place with
    | none => Act.fail (refuse .noEntry p)
    | some node =>
      if node.isDir then modify fun w => { w with seat := ⟨place, false⟩ }
      else Act.fail (refuse .notDirectory p)

def listDir (p : String) : Job (List String) := do
  match ← locate p with
  | .lost _ => return []
  | .at_ place =>
    let w ← get
    match w.disk.get? place with
    | none => Act.fail (refuse .noEntry p)
    | some node =>
      if node.isDir then return w.disk.names place
      else Act.fail (refuse .notDirectory p)

def makeDir (p : String) : Job Unit := do
  checkPath p
  let w ← get
  let stem := String.ofList (Path.trimSlashes p.toList)
  match w.disk.locate w.seat stem with
  | .error code => Act.fail (refuse code p)
  | .ok (.lost _) => Act.fail (refuse .fileExists p)
  | .ok (.at_ place) =>
    if (w.disk.get? place).isSome then Act.fail (refuse .fileExists p)
    else if !w.disk.isDir place.dropLast then Act.fail (refuse .noEntry p)
    else put place ⟨.dir, 0o755, Host.instant w.host⟩

/-- The directory part and the last component of a path, trailing slashes
apart. -/
def splitLast (p : String) : String × String :=
  let head := Path.dirName p
  let tail := Path.baseName p
  if tail.isEmpty then (Path.dirName head, Path.baseName head) else (head, tail)

/-- Makes a directory and the missing ones above it, at most `fuel` levels up.
One that is already there is no fault if `lenient`. -/
def makeDirsWith (lenient : Bool) : Nat → String → Job Unit
  | 0, p => makeDir p
  | fuel + 1, p => do
    let (head, tail) := splitLast p
    let upper := !head.isEmpty && !tail.isEmpty && !exist (← get) head
    if upper then
      Act.orElse (makeDirsWith lenient fuel head) fun
        | .system .fileExists _ => pure ()
        | f => Act.fail f
    -- a path that ends with a dot names the directory that was just made
    if upper && tail == "." then return ()
    Act.orElse (makeDir p) fun
      | .system code files => do
        if lenient && isDir (← get) p then pure ()
        else Act.fail (.system code files)
      | f => Act.fail f

/-- Makes a directory and the missing ones above it; one that is already there
is no fault. -/
def makeDirs (p : String) : Job Unit :=
  makeDirsWith true p.length p

def erase (place : Place) : Job Unit :=
  modify fun w =>
    { w with
      disk := w.disk.erase place
      seat :=
        if place.isPrefixOf w.seat.place then { w.seat with removed := true }
        else w.seat }

def removeFile (p : String) : Job Unit := do
  let (place, node) ← find p
  if node.isDir then Act.fail (refuse .isDirectory p) else erase place

def removeDir (p : String) : Job Unit := do
  let (place, node) ← find p
  let last := Path.baseName (String.ofList (Path.trimSlashes p.toList))
  if !node.isDir then Act.fail (refuse .notDirectory p)
  else if last == "." then Act.fail (refuse .invalid p)
  else if last == ".." || !((← get).disk.names place).isEmpty then
    Act.fail (refuse .notEmpty p)
  else erase place

def removeTree (p : String) : Job Unit := do
  let (place, node) ← find p
  if !node.isDir then Act.fail (refuse .notDirectory p)
  else
    for name in (← get).disk.names place do
      erase (place ++ [name])
    removeDir p

/-- Marks a file as changed now, and makes it if it is missing. -/
def touch (p : String) : Job Unit :=
  appendBytes p []

def rename (source dest : String) : Job Unit := do
  let both (code : Errno) : Fault := .system code [.text source, .text dest]
  checkPath source
  checkPath dest
  let w ← get
  match w.disk.find w.seat source with
  | .error code => Act.fail (both code)
  | .ok (from_, node) =>
    let stem := String.ofList (Path.trimSlashes dest.toList)
    match w.disk.locate w.seat stem with
    | .error code => Act.fail (both code)
    | .ok (.lost _) => Act.fail (both .invalid)
    | .ok (.at_ to_) =>
      let lastOf (p : String) :=
        Path.baseName (String.ofList (Path.trimSlashes p.toList))
      let dots := [".", ".."]
      if dots.contains (lastOf source) || dots.contains (lastOf dest) then
        Act.fail (.system .invalid [.text source, .text dest])
      else if !w.disk.isDir to_.dropLast then Act.fail (both .noEntry)
      else if from_ == to_ then return ()
      else if node.isDir && from_.isPrefixOf to_ then Act.fail (both .invalid)
      else if !node.isDir && asksDir dest then Act.fail (both .notDirectory)
      else
        match w.disk.get? to_ with
        | some old =>
          if node.isDir && !old.isDir then Act.fail (both .notDirectory)
          else if !node.isDir && old.isDir then Act.fail (both .isDirectory)
          else if old.isDir && !(w.disk.names to_).isEmpty then
            Act.fail (both .notEmpty)
          else move from_ to_
        | none => move from_ to_
where
  /-- Moves a place; the working directory goes along, and one that is
  overwritten is lost. -/
  move (from_ to_ : Place) : Job Unit :=
    modify fun w =>
      let seat :=
        if to_.isPrefixOf w.seat.place then { w.seat with removed := true }
        else if from_.isPrefixOf w.seat.place && !w.seat.removed then
          { w.seat with place := to_ ++ w.seat.place.drop from_.length }
        else w.seat
      { w with disk := w.disk.rename from_ to_, seat := seat }

/-- The first executable file of a name in the search path `dirs`. -/
def searchPath (w : Site) (name : String) : List String → Option String
  | [] => none
  | dir :: rest =>
    let p := Path.join dir name
    if (node? w p).any fun n => n.isFile && n.isExecutable then some p
    else searchPath w name rest

def pathDirs (w : Site) : List String :=
  match w.env.get? "PATH" with
  | none => ["/bin", "/usr/bin"]
  | some path => if path.isEmpty then [] else pieces ':' path

/-- The path of a name in the directory it gives, or else in those of a search
path; `run` asks for a program. -/
def searchFor (w : Site) (run : Bool) (path : Option String) (name : String) :
    Option String :=
  let dir := Path.dirName name
  let base := Path.baseName name
  let dirs :=
    if !dir.isEmpty then [dir]
    else
      match path with
      | none => pathDirs w
      | some path => if path.isEmpty then [] else pieces ':' path
  (dirs.map (Path.join · base)).find? fun p => (node? w p).any fun n =>
    n.isFile && (!run || n.isExecutable)

/-- The path of the program that a command name runs. -/
def which (w : Site) (name : String) : Option String :=
  if (Path.dirName name).isEmpty then searchPath w name (pathDirs w)
  else if (node? w name).any fun n => n.isFile && n.isExecutable then some name
  else none

end TaskShell.Files

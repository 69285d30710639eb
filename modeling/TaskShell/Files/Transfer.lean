import TaskShell.Files.Basic

/-!
# Copying and moving

Copies of files and trees with their permissions and times, and moves that fall
back to copying.
-/

namespace TaskShell.Files

open Text

def samePlace (w : Site) (a b : String) : Bool :=
  if a.contains '\x00' || b.contains '\x00' then false
  else
    match w.disk.find w.seat a, w.disk.find w.seat b with
    | .ok (p, _), .ok (q, _) => p == q
    | _, _ => false

def copyData (source dest : String) : Job Unit := do
  if samePlace (← get) source dest then Act.fail (.sameFile source dest)
  let data ← readBytes source
  Act.orElse (writeBytes dest data) fun f => do
    match f with
    | .system .isDirectory _ =>
      if exist (← get) dest then Act.fail f else Act.fail (.noDirectory dest)
    | _ => Act.fail f

def copyMode (source dest : String) : Job Unit := do
  let (_, node) ← find source
  let (place, old) ← find dest
  put place { old with mode := node.mode }

/-- Gives a file the permissions and the time of another. -/
def copyFacts (source dest : String) : Job Unit := do
  let (_, node) ← find source
  let (place, old) ← find dest
  put place { old with mode := node.mode, changed := node.changed }

/-- The path that a copy to `dest` gets: inside it, if it is a directory. -/
def copyTarget (w : Site) (source dest : String) : String :=
  if isDir w dest then Path.join dest (Path.baseName source) else dest

/-- Copies a file with its permissions; returns the path of the copy. -/
def copy (source dest : String) : Job String := do
  let dest := copyTarget (← get) source dest
  copyData source dest
  copyMode source dest
  return dest

/-- Copies a file with its permissions and time; returns the path of the
copy. -/
def copyWithFacts (source dest : String) : Job String := do
  let dest := copyTarget (← get) source dest
  copyData source dest
  copyFacts source dest
  return dest

/-- One file of a tree that could not be copied: the two paths and the
reason. -/
abbrev CopyFault := String × String × String

/-- The wording of the files that could not be copied. -/
def copyFaultText (fs : List CopyFault) : String :=
  "[" ++ ", ".intercalate (fs.map fun (a, b, why) =>
    "(" ++ quoted a ++ ", " ++ quoted b ++ ", " ++ quoted why ++ ")") ++ "]"

/-- Copies a directory, at most `fuel` levels deep, and returns the files that
could not be copied. -/
def copyTreeFrom (merge : Bool) : Nat → String → String → Job (List CopyFault)
  | 0, _, _ => return []
  | fuel + 1, source, dest => do
    let names ← listDir source
    makeDirsWith merge dest.length dest
    let mut faults : List CopyFault := []
    for name in names do
      let a := Path.join source name
      let b := Path.join dest name
      let act : Job (List CopyFault) := do
        if isDir (← get) a then copyTreeFrom merge fuel a b
        else
          let _ ← copyWithFacts a b
          return []
      match ← Act.attempt act with
      | .ok more => faults := faults ++ more
      | .error f => faults := faults ++ [(a, b, f.message)]
    copyFacts source dest
    return faults

def copyTree (merge : Bool) (source dest : String) : Job String := do
  let depth := (← get).disk.length + 1
  let faults ← copyTreeFrom merge depth source dest
  if faults.isEmpty then return dest
  else Act.fail (.transfer (copyFaultText faults))

/-- Whether `dest` lies in the directory `source`, both taken from `cwd`. -/
def liesIn (cwd source dest : String) : Bool :=
  let slashed (p : String) : String := if endsWith p "/" then p else p ++ "/"
  startsWith (slashed (Path.absoluteIn cwd dest))
    (slashed (Path.absoluteIn cwd source))

/-- Moves a file or directory, into `dest` if that is a directory; returns where
it went. -/
def move (source dest : String) : Job (Option String) := do
  let w ← get
  if isDir w dest && samePlace w source dest then
    rename source dest
    return none
  let real :=
    if isDir w dest then
      Path.join dest (Path.baseName
        (String.ofList ((source.toList.reverse.dropWhile (· == '/')).reverse)))
    else dest
  if isDir w dest && exist w real then
    Act.fail (.transfer s!"Destination path '{real}' already exists")
  match ← Act.attempt (rename source real) with
  | .ok () => return some real
  | .error (.system _ _) =>
    if isDir (← get) source then
      let cwd ← workingDir
      if liesIn cwd source dest then
        Act.fail (.transfer
          s!"Cannot move a directory '{source}' into itself '{dest}'.")
      let _ ← copyTree false source real
      removeTree source
    else
      let _ ← copyWithFacts source real
      removeFile source
    return some real
  | .error f => Act.fail f

end TaskShell.Files

import TaskShell.Env
import TaskShell.Path.Posix
import TaskShell.Text.Blank

/-!
# Windows paths

Paths with drives, in which both slashes separate. A path is its drive, a root
and a tail; everything else is said over these three parts.
-/

namespace TaskShell.Path.Windows

open Text

def isSlash (c : Char) : Bool := c == '\\' || c == '/'

def backslashed (cs : List Char) : List Char :=
  cs.map fun c => if c == '/' then '\\' else c

structure Parts where
  /-- A letter with a colon, or a host with a share. -/
  drive : List Char
  /-- The separator after the drive, if there is one. -/
  root : List Char
  tail : List Char
  deriving DecidableEq, Repr

def longShare : List Char := "\\\\?\\UNC\\".toList

/-- The place of the first separator from a place on. -/
def slashFrom? (cs : List Char) (start : Nat) : Option Nat :=
  ((cs.drop start).findIdx? isSlash).map (· + start)

def shareParts (cs : List Char) : Parts :=
  let lead := String.ofList (backslashed (cs.take 8))
  let start := if upper lead == String.ofList longShare then 8 else 2
  match (slashFrom? cs start).bind fun i => slashFrom? cs (i + 1) with
  | some i => ⟨cs.take i, (cs.drop i).take 1, cs.drop (i + 1)⟩
  | none => ⟨cs, [], []⟩

def partsOf (cs : List Char) : Parts :=
  match cs with
  | a :: b :: rest =>
    if isSlash a then
      (if isSlash b then shareParts cs else ⟨[], [a], b :: rest⟩)
    else if b == ':' then
      match rest with
      | c :: tail =>
        if isSlash c then ⟨[a, b], [c], tail⟩ else ⟨[a, b], [], rest⟩
      | [] => ⟨[a, b], [], []⟩
    else ⟨[], [], cs⟩
  | [a] => if isSlash a then ⟨[], [a], []⟩ else ⟨[], [], [a]⟩
  | [] => ⟨[], [], []⟩

def splitRoot (p : String) : String × String × String :=
  let parts := partsOf p.toList
  (String.ofList parts.drive, String.ofList parts.root,
    String.ofList parts.tail)

def splitDrive (p : String) : String × String :=
  let (drive, root, tail) := splitRoot p
  (drive, root ++ tail)

def split (p : String) : String × String :=
  let parts := partsOf p.toList
  let last := (parts.tail.reverse.takeWhile (!isSlash ·)).reverse
  let head :=
    trimEnd isSlash (parts.tail.take (parts.tail.length - last.length))
  (String.ofList (parts.drive ++ parts.root ++ head), String.ofList last)

def dirName (p : String) : String := (split p).1

def baseName (p : String) : String := (split p).2

def splitExt (p : String) : String × String :=
  let cs := p.toList
  let base := (cs.reverse.takeWhile (!isSlash ·)).reverse
  let (stem, ending) := splitBase base
  (String.ofList (cs.take (cs.length - base.length) ++ stem),
    String.ofList ending)

def isAbsolute (p : String) : Bool :=
  match backslashed (p.toList.take 3) with
  | '\\' :: '\\' :: _ => true
  | [_, ':', '\\'] => true
  | _ => false

def foldCase (p : String) : String :=
  lower (String.ofList (backslashed p.toList))

/-- The parts of a path after another, where a path with a root or another drive
starts anew. -/
def joinParts (done next : Parts) : Parts :=
  let follow (drive : List Char) : Parts :=
    let tail := match done.tail.getLast? with
      | some c => if isSlash c then done.tail else done.tail ++ ['\\']
      | none => []
    ⟨drive, done.root, tail ++ next.tail⟩
  if !next.root.isEmpty then
    ⟨if !next.drive.isEmpty || done.drive.isEmpty then next.drive
      else done.drive, next.root, next.tail⟩
  else if !next.drive.isEmpty && next.drive != done.drive then
    if lower (String.ofList next.drive) != lower (String.ofList done.drive) then
      next
    else follow next.drive
  else follow done.drive

def joinAll (p : String) (ps : List String) : String :=
  let whole := ps.foldl (fun done next => joinParts done (partsOf next.toList))
    (partsOf p.toList)
  let apart := !whole.tail.isEmpty && whole.root.isEmpty &&
    match whole.drive.getLast? with
    | some c => c != ':' && !isSlash c
    | none => false
  String.ofList (whole.drive ++
    (if apart then ['\\'] else whole.root) ++ whole.tail)

/-- A path without empty and dot components and with parents resolved by
name. -/
def normalize (p : String) : String :=
  let (drive, root, tail) := splitRoot (String.ofList (backslashed p.toList))
  let parts := (pieces '\\' tail).foldl (normalStep (!root.isEmpty)) []
  let path := drive ++ root ++ "\\".intercalate parts.reverse
  if path.isEmpty then "." else path

/-- The absolute form of a path in the working directory `cwd`. -/
def absoluteIn (cwd p : String) : String :=
  normalize (if isAbsolute p then p else joinAll cwd [p])

inductive CompareFault where
  | noPath
  | otherMount (path start : String)
  | nothing
  | otherDrive
  | mixedRelative
  | mixedRooted
  deriving DecidableEq, Repr

def CompareFault.message : CompareFault → String
  | noPath => "no path specified"
  | otherMount path start =>
    s!"path is on mount {quoted path}, start on mount {quoted start}"
  | nothing => "commonpath() arg is an empty iterable"
  | otherDrive => "Paths don't have the same drive"
  | mixedRelative => "Can't mix absolute and relative paths"
  | mixedRooted => "Can't mix rooted and not-rooted paths"

def tailPieces (tail : String) : List String :=
  if tail.isEmpty then [] else pieces '\\' tail

def sharedLength : List String → List String → Nat
  | a :: as, b :: bs =>
    if foldCase a == foldCase b then sharedLength as bs + 1 else 0
  | _, _ => 0

def relativeTo (cwd p start : String) : Except CompareFault String :=
  if p.isEmpty then .error .noPath
  else
    let (startDrive, _, startTail) := splitRoot (absoluteIn cwd start)
    let (drive, _, tail) := splitRoot (absoluteIn cwd p)
    if foldCase startDrive != foldCase drive then
      .error (.otherMount drive startDrive)
    else
      let from_ := tailPieces startTail
      let target := tailPieces tail
      let n := sharedLength from_ target
      let parts := List.replicate (from_.length - n) ".." ++ target.drop n
      .ok (if parts.isEmpty then "." else "\\".intercalate parts)

def sharedStart (first : List String) (others : List (List String)) : Nat :=
  others.foldl (fun n other => min n (go first other)) first.length
where
  go : List String → List String → Nat
    | a :: as, b :: bs => if a == b then go as bs + 1 else 0
    | _, _ => 0

/-- The components of a tail that say something. -/
def realPieces (tail : String) : List String :=
  (pieces '\\' tail).filter fun part => !part.isEmpty && part != "."

/-- The longest path that all paths start with; letters in both cases are the
same. -/
def common (ps : List String) : Except CompareFault String :=
  match ps with
  | [] => .error .nothing
  | first :: others =>
    let folded :=
      ps.map fun p => splitRoot (lower (String.ofList (backslashed p.toList)))
    let (drive, root, tail) :=
      splitRoot (String.ofList (backslashed first.toList))
    let same (part : String × String × String → String) : Bool :=
      folded.all fun a => folded.all fun b => part a == part b
    if !same (·.1) then .error .otherDrive
    else if !same (·.2.1) then
      .error (if drive.isEmpty then .mixedRooted else .mixedRelative)
    else
      let lists := folded.map fun a => realPieces a.2.2
      let n := if others.isEmpty then (realPieces tail).length
        else sharedStart (lists.headD []) lists
      .ok (drive ++ root ++ "\\".intercalate ((realPieces tail).take n))

def isReservedChar (c : Char) : Bool :=
  c.toNat < 32 || "\"*:<>?|/\\".toList.contains c

def deviceNames : List String :=
  let numbers := "123456789¹²³".toList.map toString
  ["CON", "PRN", "AUX", "NUL", "CONIN$", "CONOUT$"] ++
    numbers.map ("COM" ++ ·) ++ numbers.map ("LPT" ++ ·)

def isReservedName (name : String) : Bool :=
  match name.toList.getLast? with
  | some '.' | some ' ' => name != "." && name != ".."
  | _ =>
    name.any isReservedChar ||
      deviceNames.contains (upper
        (trimEndOf [' '] (String.ofList (name.toList.takeWhile (· != '.')))))

/-- Whether a path has a component that is reserved by the system. -/
def isReserved (p : String) : Bool :=
  let (_, _, tail) := splitRoot p
  (pieces '\\' (String.ofList (backslashed tail.toList))).any isReservedName

def home? (env : Env) : Option String :=
  match env.get? "USERPROFILE", env.get? "HOMEPATH" with
  | some home, _ => some home
  | none, some path => some (joinAll ((env.get? "HOMEDRIVE").getD "") [path])
  | none, none => none

/-- Puts a home directory in place of a leading tilde. The home of another user
is guessed from that of the current one. -/
def expandHome (env : Env) (p : String) : String :=
  match p.toList with
  | '~' :: rest =>
    let user := String.ofList (rest.takeWhile (!isSlash ·))
    let after := String.ofList (rest.dropWhile (!isSlash ·))
    match home? env with
    | none => p
    | some home =>
      if user.isEmpty || env.get? "USERNAME" == some user then home ++ after
      else if env.get? "USERNAME" != some (baseName home) then p
      else joinAll (dirName home) [user] ++ after
  | _ => p

def isVariableChar (c : Char) : Bool := c.isAlphanum || c == '_' || c == '-'

/-- The value of a variable, or else the text that names it. -/
def valueOr (env : Env) (name text : List Char) : List Char :=
  ((env.get? (String.ofList name)).map String.toList).getD text

/-- Puts values in place of variables; `fuel` bounds the number of
characters. -/
def expandFrom (env : Env) : Nat → List Char → List Char
  | 0, cs => cs
  | _, [] => []
  | fuel + 1, '\'' :: rest =>
    match splitOnce? '\'' rest with
    | some (inside, after) =>
      '\'' :: inside ++ '\'' :: expandFrom env fuel after
    | none => '\'' :: rest
  | fuel + 1, '%' :: '%' :: rest => '%' :: expandFrom env fuel rest
  | fuel + 1, '%' :: rest =>
    match splitOnce? '%' rest with
    | some (name, after) =>
      valueOr env name ('%' :: name ++ ['%']) ++ expandFrom env fuel after
    | none => '%' :: rest
  | fuel + 1, '$' :: '$' :: rest => '$' :: expandFrom env fuel rest
  | fuel + 1, '$' :: '\x7b' :: rest =>
    match splitOnce? '\x7d' rest with
    | some (name, after) =>
      valueOr env name ('$' :: '\x7b' :: name ++ ['\x7d']) ++
        expandFrom env fuel after
    | none => '$' :: '\x7b' :: rest
  | fuel + 1, '$' :: rest =>
    let name := rest.takeWhile isVariableChar
    valueOr env name ('$' :: name) ++
      expandFrom env fuel (rest.drop name.length)
  | fuel + 1, c :: rest => c :: expandFrom env fuel rest

/-- Puts the values of known variables in place of their names; quoted text
stays as it is. -/
def expandVariables (env : Env) (p : String) : String :=
  String.ofList (expandFrom env (p.length + 1) p.toList)

end TaskShell.Path.Windows

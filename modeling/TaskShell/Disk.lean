import TaskShell.Fault
import TaskShell.Path.Posix

/-!
# The disk

A disk maps absolute paths, as lists of names, to files and directories. Paths
given as text are found by walking their components, so that a missing or plain
file on the way is noticed. The working directory stays a place of its own when
its directory is removed: nothing can be found there any more.
-/

namespace TaskShell

open Text

/-- A path from the root, as the list of its names. -/
abbrev Place := List String

/-- A point in time: seconds since the epoch and nanoseconds after them. -/
structure Instant where
  seconds : Int
  nanos : Nat
  deriving DecidableEq, Repr, Inhabited

def Instant.toSeconds (t : Instant) : Float :=
  Number.ofInt t.seconds + Number.ofInt t.nanos / 1000000000.0

/-- The instant of some seconds since the epoch, kept in the range that a disk
can hold. -/
def Instant.ofSeconds (x : Float) : Instant :=
  let whole := x.floor
  let seconds := max (-2147483648) (min 15032385535 (Number.truncate whole))
  ⟨seconds, (Number.truncate ((x - whole) * 1000000000.0).floor).toNat⟩

/-- A file with its bytes, or a directory. -/
inductive Content where
  | file (data : List UInt8)
  | dir
  deriving Repr, DecidableEq, Inhabited

/-- What stands at a `Place`, with its permission bits and the time of its last
change. -/
structure Node where
  content : Content
  mode : Nat
  changed : Instant
  deriving Repr, DecidableEq, Inhabited

namespace Node

def isDir (n : Node) : Bool :=
  match n.content with
  | .dir => true
  | .file _ => false

def isFile (n : Node) : Bool := !n.isDir

def data (n : Node) : List UInt8 :=
  match n.content with
  | .dir => []
  | .file data => data

/-- Whether some permission bit allows running the file. -/
def isExecutable (n : Node) : Bool :=
  n.mode % 2 == 1 || n.mode / 8 % 2 == 1 || n.mode / 64 % 2 == 1

end Node

abbrev Disk := List (Place × Node)

namespace Disk

def get? (d : Disk) (p : Place) : Option Node :=
  d.lookup p

/-- Puts a node at a place; a place that is already taken keeps its position. -/
def put : Disk → Place → Node → Disk
  | [], p, n => [(p, n)]
  | (q, old) :: rest, p, n =>
    if q == p then (q, n) :: rest else (q, old) :: put rest p n

/-- Puts a node at a place and `dir` at the places above it that are missing. -/
def plant (d : Disk) (p : Place) (dir n : Node) : Disk :=
  let above := (List.range p.length).map p.take
  (above.foldl (fun d q => if (d.get? q).isSome then d
    else d.put q dir) d).put p n

def erase (d : Disk) (p : Place) : Disk :=
  d.filter fun entry => !p.isPrefixOf entry.1

/-- The paths below a place, in order, and what stands there; those of
directories end in a slash. -/
def listBelow (d : Disk) (p : Place) : List (String × Node) :=
  let below := d.filter fun entry => p.isPrefixOf entry.1 && entry.1 != p
  let named := below.map fun (q, n) =>
    ("/".intercalate (q.drop p.length) ++ if n.isDir then "/" else "", n)
  named.mergeSort fun a b => a.1 ≤ b.1

def isDir (d : Disk) (p : Place) : Bool :=
  (d.get? p).any Node.isDir

def isFile (d : Disk) (p : Place) : Bool :=
  (d.get? p).any Node.isFile

def names (d : Disk) (p : Place) : List String :=
  let below := d.filterMap fun entry =>
    if p.isPrefixOf entry.1 && entry.1.length == p.length + 1 then
      entry.1.getLast?
    else none
  below.mergeSort fun a b => a ≤ b

def rename (d : Disk) (source target : Place) : Disk :=
  (d.filter fun entry => !target.isPrefixOf entry.1 ||
      source.isPrefixOf entry.1).map fun entry =>
    if source.isPrefixOf entry.1 then
      (target ++ entry.1.drop source.length, entry.2)
    else entry

end Disk

/-- Where relative paths start: a directory, or one that has been removed from
the disk. -/
structure Seat where
  place : Place
  removed : Bool
  deriving DecidableEq, Repr, Inhabited

inductive Cursor where
  /-- A place, which may be missing. -/
  | at_ (place : Place)
  /-- A directory that has been removed; the place is where it was. -/
  | lost (place : Place)
  deriving DecidableEq, Repr

namespace Disk

def maxName : Nat := 255

def maxPath : Nat := 4096

def step (d : Disk) (cursor : Cursor) (name : String) : Except Errno Cursor :=
  match cursor with
  | .lost place =>
    if name.isEmpty || name == "." then .ok cursor
    else if name == ".." then
      if d.isDir place.dropLast then .ok (.at_ place.dropLast)
      else .error .noEntry
    else .error .noEntry
  | .at_ place =>
    match d.get? place with
    | none => .error .noEntry
    | some node =>
      if !node.isDir then .error .notDirectory
      else if name.isEmpty || name == "." then .ok cursor
      else if name == ".." then .ok (.at_ place.dropLast)
      else if maxName < (utf8 name).length then .error .nameTooLong
      else .ok (.at_ (place ++ [name]))

/-- Walks the components of a path one after the other, by `step`. -/
def walk (d : Disk) : Cursor → List String → Except Errno Cursor
  | cursor, [] => .ok cursor
  | cursor, name :: rest => do d.walk (← d.step cursor name) rest

/-- The `Cursor` at which a path ends; all but its last component must be
directories. -/
def locate (d : Disk) (seat : Seat) (p : String) : Except Errno Cursor :=
  if p.isEmpty then .error .noEntry
  else if maxPath ≤ (utf8 p).length then .error .nameTooLong
  else
    let start : Cursor :=
      if Path.isAbsolute p then .at_ []
      else if seat.removed then .lost seat.place else .at_ seat.place
    let names := Path.components p
    d.walk start (if Path.isAbsolute p then names.drop 1 else names)

/-- The `Node` that a path leads to, with its place; a removed working directory
is an empty directory. -/
def find (d : Disk) (seat : Seat) (p : String) :
    Except Errno (Place × Node) := do
  match ← d.locate seat p with
  | .lost place => return (place, ⟨.dir, 0o755, ⟨0, 0⟩⟩)
  | .at_ place =>
    match d.get? place with
    | none => .error .noEntry
    | some node => return (place, node)

def placeText (p : Place) : String :=
  "/" ++ "/".intercalate p

end Disk

end TaskShell

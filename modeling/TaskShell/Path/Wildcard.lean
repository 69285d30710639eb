import TaskShell.Files.Basic

/-!
# Wildcards in paths

A star stands for any run of characters, a question mark for any one, and
brackets for one of a set. Names that start with a dot are only found by a
pattern that starts with one.
-/

namespace TaskShell.Path

open Text

inductive Piece where
  | run
  | one
  | char (c : Char)
  /-- One character of a set, or none of it. Between two chunks of the set
  stands a range, from the last character of the one to the first of the
  other. -/
  | set (negated : Bool) (chunks : List (List Char))
  deriving DecidableEq, Repr

/-- Splits the inside of brackets at the hyphens that stand for ranges. `skip`
characters are passed before a hyphen counts. -/
def chunksFrom : List Char → Nat → List Char → List (List Char)
  | [], _, done => [done.reverse]
  | c :: rest, 0, done =>
    if c == '-' then done.reverse :: chunksFrom rest 2 []
    else chunksFrom rest 0 (c :: done)
  | c :: rest, skip + 1, done => chunksFrom rest skip (c :: done)

/-- A hyphen at the end stands for itself. -/
def closeChunks : List (List Char) → List (List Char)
  | [] => []
  | [c] => [c]
  | [c, []] => [c ++ ['-']]
  | c :: rest => c :: closeChunks rest

/-- Removes ranges that hold nothing, with their ends. -/
def dropEmptyRanges : List (List Char) → List (List Char)
  | [] => []
  | chunk :: rest =>
    match dropEmptyRanges rest with
    | [] => [chunk]
    | next :: more =>
      match chunk.getLast?, next.head? with
      | some a, some b => if a > b then (chunk.dropLast ++ next.drop 1) :: more
          else chunk :: next :: more
      | _, _ => chunk :: next :: more

def readSet (inside : List Char) : Piece :=
  let (negated, rest) := match inside with
    | '!' :: rest => (true, rest)
    | rest => (false, rest)
  .set negated (dropEmptyRanges (closeChunks (chunksFrom rest 1 [])))

/-- The inside of brackets and what follows them, if they are closed. A closing
bracket right at the start belongs to the set. -/
def closeBracket? (cs : List Char) : Option (List Char × List Char) :=
  let (lead, rest) := match cs with
    | '!' :: rest => (['!'], rest)
    | rest => ([], rest)
  let (lead, rest) := match rest with
    | ']' :: rest => (lead ++ [']'], rest)
    | rest => (lead, rest)
  match splitOnce? ']' rest with
  | some (inside, after) => some (lead ++ inside, after)
  | none => none

def readPieces : Nat → List Char → List Piece
  | 0, _ => []
  | _, [] => []
  | fuel + 1, '*' :: rest => .run :: readPieces fuel rest
  | fuel + 1, '?' :: rest => .one :: readPieces fuel rest
  | fuel + 1, '[' :: rest =>
    match closeBracket? rest with
    | some (inside, after) => readSet inside :: readPieces fuel after
    | none => .char '[' :: readPieces fuel rest
  | fuel + 1, c :: rest => .char c :: readPieces fuel rest

def inRanges (c : Char) : List (List Char) → Bool
  | [] => false
  | [_] => false
  | chunk :: next :: rest =>
    (match chunk.getLast?, next.head? with
      | some a, some b => a ≤ c && c ≤ b
      | _, _ => false) || inRanges c (next :: rest)

def Piece.takes (p : Piece) (c : Char) : Bool :=
  match p with
  | run => false
  | one => true
  | char d => c == d
  | set negated chunks =>
    (chunks.any (·.contains c) || inRanges c chunks) != negated

/-- All ends of a text, the whole first. -/
def endings {α : Type} : List α → List (List α)
  | [] => [[]]
  | a :: rest => (a :: rest) :: endings rest

/-- Whether a whole text has the form that pieces give. -/
def fits : List Piece → List Char → Bool
  | [], cs => cs.isEmpty
  | .run :: rest, cs => (endings cs).any (fits rest)
  | _ :: _, [] => false
  | p :: rest, c :: cs => p.takes c && fits rest cs

def nameFits (pattern name : String) : Bool :=
  fits (readPieces (pattern.length + 1) pattern.toList) name.toList

def hasWildcard (s : String) : Bool :=
  s.any fun c => c == '*' || c == '?' || c == '['

def isHidden (name : String) : Bool := startsWith name "."

/-- The names in a directory of a world; none if it cannot be listed. -/
def namesIn (w : Site) (dir : String) : List String :=
  match (Files.listDir (if dir.isEmpty then "." else dir) w).1 with
  | .ok names => names
  | .error _ => []

def namesLike (w : Site) (dir pattern : String) (dirsOnly : Bool) :
    List String :=
  (namesIn w dir).filter fun name =>
    (!dirsOnly || Files.isDir w (join dir name)) &&
      (isHidden pattern || !isHidden name) && nameFits pattern name

/-- The paths that have the form of a pattern, directory by directory. The fuel
bounds the depth of the path. -/
def pathsLike (w : Site) : Nat → Bool → String → List String
  | 0, _, _ => []
  | fuel + 1, dirsOnly, pattern =>
    let dir := dirName pattern
    let base := baseName pattern
    if !hasWildcard pattern then
      if base.isEmpty then (if Files.isDir w dir then [pattern] else [])
      else if Files.exist w pattern then [pattern] else []
    else if dir.isEmpty then namesLike w "" base dirsOnly
    else
      let dirs :=
        if dir != pattern && hasWildcard dir then pathsLike w fuel true dir
        else [dir]
      dirs.flatMap fun d =>
        let names :=
          if hasWildcard base then namesLike w d base dirsOnly
          else if base.isEmpty then (if Files.isDir w d then [base] else [])
          else if Files.exist w (join d base) then [base] else []
        names.map (join d)

/-- The paths that `pathsLike` finds for a pattern, sorted. -/
def glob (w : Site) (pattern : String) : List String :=
  (pathsLike w (pattern.length + 1) false pattern).mergeSort

end TaskShell.Path

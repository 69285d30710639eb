import TaskShell.Text.Search

/-!
# Slash paths

Paths as texts with slashes: joining, splitting and normalising, without looking
at any disk.
-/

namespace TaskShell.Path

open Text

def isAbsolute (p : String) : Bool :=
  startsWith p "/"

def baseChars (cs : List Char) : List Char :=
  (cs.reverse.takeWhile (· != '/')).reverse

def headChars (cs : List Char) : List Char :=
  (cs.reverse.dropWhile (· != '/')).reverse

/-- A directory part without its trailing slashes, unless it is all slashes. -/
def trimSlashes (cs : List Char) : List Char :=
  if cs.all (· == '/') then cs else (cs.reverse.dropWhile (· == '/')).reverse

/-- The last component of a path; a path that ends with a slash has an empty
one. -/
def baseName (p : String) : String :=
  String.ofList (baseChars p.toList)

def dirName (p : String) : String :=
  String.ofList (trimSlashes (headChars p.toList))

/-- Appends a path to a directory; an absolute path replaces it. -/
def join (dir p : String) : String :=
  if isAbsolute p then p
  else if dir.isEmpty || endsWith dir "/" then dir ++ p
  else dir ++ "/" ++ p

/-- Appends several paths one after the other, by `join`. -/
def joinAll (dir : String) (ps : List String) : String :=
  ps.foldl join dir

/-- Splits the last component at its last dot, if something other than dots
precedes it. -/
def splitBase (base : List Char) : List Char × List Char :=
  match base.reverse.span (· != '.') with
  | (_, []) => (base, [])
  | (ext, dot :: stem) =>
    if stem.all (· == '.') then (base, [])
    else (stem.reverse, dot :: ext.reverse)

/-- A path without its extension, and the extension with its dot, by
`splitBase`. -/
def splitExt (p : String) : String × String :=
  let cs := p.toList
  let (stem, ext) := splitBase (baseChars cs)
  (String.ofList (headChars cs ++ stem), String.ofList ext)

/-- One step of normalising: `done` holds the components so far, last one
first. -/
def normalStep (rooted : Bool) (done : List String) (part : String) :
    List String :=
  if part.isEmpty || part == "." then done
  else if part == ".." then
    match done with
    | [] => if rooted then [] else [".."]
    | top :: rest => if top == ".." then ".." :: done else rest
  else part :: done

/-- The leading slashes that a normal path keeps: none, one, or exactly two. -/
def rootOf (p : String) : String :=
  if startsWith p "///" then "/"
  else if startsWith p "//" then "//"
  else if startsWith p "/" then "/"
  else ""

/-- A path without empty and dot components and with parents resolved by
name. -/
def normalize (p : String) : String :=
  let root := rootOf p
  let parts := (pieces '/' p).foldl (normalStep (!root.isEmpty)) []
  let path := root ++ "/".intercalate parts.reverse
  if path.isEmpty then "." else path

/-- The absolute form of a path in the working directory `cwd`. -/
def absoluteIn (cwd p : String) : String :=
  normalize (join cwd p)

/-- The components of a path between its slashes, empty ones included. -/
def components (p : String) : List String :=
  pieces '/' p

end TaskShell.Path

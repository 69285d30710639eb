import TaskShell.Files.Basic
import TaskShell.Path.Windows

/-!
# Comparing paths

What paths share, one path as seen from another, and the place where a path
really ends.
-/

namespace TaskShell.Path

open Text

inductive CompareFault where
  | noPath
  | nothing
  | mixedRelative
  deriving DecidableEq, Repr

def CompareFault.message : CompareFault → String
  | noPath => "no path specified"
  | nothing => "commonpath() arg is an empty sequence"
  | mixedRelative => "Can't mix absolute and relative paths"

def sharedPrefix {α : Type} [BEq α] : List α → List α → List α
  | a :: as, b :: bs => if a == b then a :: sharedPrefix as bs else []
  | _, _ => []

def sharedByAll {α : Type} [BEq α] : List (List α) → List α
  | [] => []
  | first :: others => others.foldl sharedPrefix first

def absolutePieces (p : String) : List String :=
  let tail := String.ofList (p.toList.dropWhile (· == '/'))
  if tail.isEmpty then [] else pieces '/' tail

def relativeTo (cwd p start : String) : Except CompareFault String :=
  if p.isEmpty then .error .noPath
  else
    let from_ := absolutePieces (absoluteIn cwd start)
    let target := absolutePieces (absoluteIn cwd p)
    let n := (sharedPrefix from_ target).length
    let parts := List.replicate (from_.length - n) ".." ++ target.drop n
    .ok (if parts.isEmpty then "." else "/".intercalate parts)

def common (ps : List String) : Except CompareFault String :=
  match ps with
  | [] => .error .nothing
  | first :: _ =>
    if ps.any fun p => isAbsolute p != isAbsolute first then
      .error .mixedRelative
    else
      let lists := ps.map fun p => (components p).filter fun part =>
        !part.isEmpty && part != "."
      .ok ((if isAbsolute first then "/" else "") ++
        "/".intercalate (sharedByAll lists))

def splitRoot (p : String) : String × String :=
  let root := rootOf p
  (root, String.ofList (p.toList.drop root.length))

/-- Follows components from an absolute path. If `strict`, every one has to be
there, and all but the last have to be directories. -/
def realFrom (strict : Bool) : String → List String → Job String
  | path, [] => pure path
  | path, name :: rest => do
    if name.isEmpty || name == "." then realFrom strict path rest
    else if name == ".." then
      let up := dirName path
      realFrom strict (if up.isEmpty then "/" else up) rest
    else
      let next := join path name
      Files.checkPath next
      if strict then
        let (_, node) ← Files.find next
        if !rest.isEmpty && !node.isDir then
          Act.fail (Files.refuse .notDirectory next)
      realFrom strict next rest

/-- The absolute form of a path, parents resolved one after the other. -/
def realPath (strict : Bool) (p : String) : Job String := do
  let start ← if isAbsolute p then pure "/" else Files.workingDir
  realFrom strict start (components p)

def isMount (w : Site) (p : String) : Bool :=
  match w.disk.find w.seat p with
  | .ok (place, _) => place.isEmpty
  | .error _ => false

end TaskShell.Path

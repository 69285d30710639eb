import TaskShell.Files.Basic

/-!
# Looking scripts up

A script is looked for under its name and then under its name with each of the
usual endings, each time first from the working directory and then from the
directory of the program.
-/

namespace TaskShell.App

def scriptEndings : List String := [".latin", ".py", ".txt"]

/-- The paths under which a name is looked for: its normal form and its plain
form from the working directory, and its plain form from the directory of the
program. -/
def placesOf (cwd appDir p : String) : List String :=
  [Path.absoluteIn cwd p, Path.join cwd p, Path.join appDir p]

/-- The paths under which a script is looked for (`placesOf`), in the order in
which they are tried. -/
def candidates (cwd appDir p : String) : List String :=
  ("" :: scriptEndings).flatMap fun ending => placesOf cwd appDir (p ++ ending)

def resolve (p : String) : Job String := do
  let w ← get
  -- an absolute path that is found needs no working directory
  if Path.isAbsolute p && (Files.isFile w p ||
    Files.isFile w (Path.normalize p)) then return Path.normalize p
  let cwd ← Files.workingDir
  match (candidates cwd w.host.appDir p).find? (Files.isFile w) with
  | some found => return Path.absoluteIn cwd found
  | none => Act.fail (.noFile p)

end TaskShell.App

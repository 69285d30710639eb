import TaskShell.App.Completion
import TaskShell.App.Session
import TaskShell.Editor.History
import TaskShell.Editor.Session

/-!
# Sessions with the line editor

Lines are typed key by key into an editor that completes words and keeps its
entries in a file.
-/

namespace TaskShell.App

open Editor

/-- The entries of a file, the last one first; one that cannot be read holds
none. -/
def loadEntries (p : String) : Act (List (List Char)) := do
  match ← Act.attempt (Files.readBytes p) with
  | .ok bytes => return readEntries bytes
  | .error _ => return []

def storeEntry (p : String) (entry : List Char) : Act Unit := do
  Files.appendBytes p (writeEntry ((← get).host.now.iso " " .auto) entry)

/-- An editor in use: its state, the file of its entries, and what was shown for
each line. -/
structure Desk where
  state : Editor.State
  path : String
  shown : List (List View)

def readKeys (groups : List String) (desk : Desk) : Act (Entry × Desk) := do
  let w ← get
  let complete (before : List Char) : List Completion :=
    completions w (String.ofList before)
  let (views, s) :=
    desk.state.fresh.editLine complete (groups.map String.toList)
  if s.entries.length > desk.state.entries.length then
    Act.orElse (storeEntry desk.path (s.entries.headD [])) fun _ => pure ()
  let entry := match s.outcome with
    | some (.accepted text) => .line (String.ofList text)
    | some .interrupted => .interrupted
    | _ => .ended
  return (entry, ⟨s, desk.path, desk.shown ++ [views]⟩)

def startKeys (first : Bool) (words : List String)
    (inputs : List (List String)) : Act (Course Desk) := do
  let path := historyPath (← get).toSite
  let desk (entries : List (List Char)) : Desk := ⟨.start entries, path, []⟩
  start first words (desk []) (do return desk (← loadEntries path)) readKeys
    (fun _ => pure ()) inputs

end TaskShell.App

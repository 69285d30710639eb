import TaskShell.Files.Basic

/-!
# The history file

Lines that were typed are kept in a file in the home directory, the last
thousand of them.
-/

namespace TaskShell.App

open Text

def historyPath (s : Site) : String := s.expandHome "~/.luw_history"

def historyLimit : Nat := 1000

def historyLines (text : List Char) : List String :=
  (fileLines text).map fun line => String.ofList (trimEnd (· == '\n') line)

def historyText (entered : List String) : String :=
  String.join ((entered.drop (entered.length - historyLimit)).map (· ++ "\n"))

/-- The history after a line was entered; an empty line is not kept, and no more
than `historyLimit`. -/
def remember (entered : List String) (line : String) : List String :=
  if line.isEmpty then entered else entered ++ [line]

/-- Reads the history file; one that cannot be read holds nothing. -/
def loadHistory (p : String) : Job (List String) := do
  match ← Act.attempt (Files.readTextIgnoring p) with
  | .ok text => return historyLines text
  | .error _ => return []

def saveHistory (p : String) (entered : List String) : Job Unit :=
  Act.orElse (Files.writeText p (historyText entered)) fun _ => pure ()

end TaskShell.App

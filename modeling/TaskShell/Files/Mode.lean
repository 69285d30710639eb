import TaskShell.Disk

/-!
# Permissions as text

The ten characters that show the kind of a node and who may read, write and run
it.
-/

namespace TaskShell.Files

/-- The kinds of nodes by the upper bits of their mode. -/
def kindLetters : List (Nat × Char) :=
  [(0o12, 'l'), (0o14, 's'), (0o10, '-'), (0o06, 'b'), (0o04, 'd'),
    (0o02, 'c'), (0o01, 'p')]

def kindLetter (mode : Nat) : Char :=
  (kindLetters.lookup (mode / 0o10000 % 16)).getD '?'

def hasBit (mode bit : Nat) : Bool := mode / bit % 2 == 1

/-- The letter for running: it also shows a special bit. -/
def runLetter (runs special : Bool) (both alone : Char) : Char :=
  if special then (if runs then both else alone) else if runs then 'x' else '-'

def modeText (mode : Nat) : String :=
  let letter (bit : Nat) (c : Char) : Char := if hasBit mode bit then c else '-'
  String.ofList [kindLetter mode,
    letter 0o400 'r', letter 0o200 'w',
    runLetter (hasBit mode 0o100) (hasBit mode 0o4000) 's' 'S',
    letter 0o040 'r', letter 0o020 'w',
    runLetter (hasBit mode 0o010) (hasBit mode 0o2000) 's' 'S',
    letter 0o004 'r', letter 0o002 'w',
    runLetter (hasBit mode 0o001) (hasBit mode 0o1000) 't' 'T']

def fullMode (n : Node) : Nat :=
  (if n.isDir then 0o40000 else 0o100000) + n.mode

def sizeOf (n : Node) : Nat :=
  if n.isDir then 4096 else n.data.length

end TaskShell.Files

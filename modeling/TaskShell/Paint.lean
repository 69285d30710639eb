import TaskShell.Words.Split
import TaskShell.Text.Search

/-!
# Colours

The terminal sequences in use, and how the words of a command line are coloured.
-/

namespace TaskShell.Paint

open Text

def sequence (code : String) : String := "\x1b[" ++ code ++ "m"

def reset : String := sequence "0"

def yellow : String := sequence "33"

def grey : String := sequence "90"

def lightGreen : String := sequence "92"

def blue : String := sequence "94"

def paint (colour s : String) : String := colour ++ s ++ reset

def named : List (String × String) := [
  ("black", sequence "30"), ("red", sequence "31"), ("green", sequence "32"),
  ("yellow", sequence "33"),
  ("blue", sequence "34"), ("magenta", sequence "35"), ("cyan", sequence "36"),
  ("white", sequence "37"),
  ("bright_black", sequence "90"), ("bright_red", sequence "91"),
  ("bright_green", sequence "92"),
  ("bright_yellow", sequence "93"), ("bright_blue", sequence "94"),
  ("bright_magenta", sequence "95"),
  ("bright_cyan", sequence "96"), ("bright_white", sequence "97"),
  ("grey", grey), ("light_green", lightGreen)]

/-- Commands that leave the shell or split a line. -/
def specialWords : List String := ["!pwsh", "!cmd", "!multithread", "!mt"]

def exitWords : List String := ["exit", "quit"]

def paintWord (word : String) : String :=
  if specialWords.contains word then paint yellow word
  else if exitWords.contains word then paint lightGreen word
  else if startsWith word "--" then paint grey word
  else word

/-- A command line with its words coloured and single blanks between them. -/
def paintLine (line : String) : String :=
  " ".intercalate ((Words.splitOrBlanks line).map paintWord)

def rgb (r g b : Int) : String := sequence s!"38;2;{r};{g};{b}"

end TaskShell.Paint

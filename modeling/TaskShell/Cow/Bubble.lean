import TaskShell.Text.Blank
import TaskShell.Text.Lines
import TaskShell.Text.Search

/-!
# Speech bubbles

A message is wrapped into lines of bounded width, word by word, and set in a
frame as wide as its longest line.
-/

namespace TaskShell.Cow

open Text

/-- Adds words to the line `current` as long as it stays within `width`, then
goes on with a new line. -/
def fillLines (width : Int) : String → List String → List String
  | current, [] => [current]
  | current, word :: rest =>
    if (current.length + 1 + word.length : Nat) ≤ width then
      fillLines width (current ++ " " ++ word) rest
    else current :: fillLines width word rest

/-- The lines of a message wrapped to a width, by `fillLines`; a message without
words is one empty line. -/
def wrap (message : String) (width : Int) : List String :=
  match words message with
  | [] => [""]
  | word :: rest => fillLines width word rest

def bubbleWidth : Int := 40

def longest (ls : List String) : Nat :=
  ls.foldl (fun n l => max n l.length) 0

/-- A bubble around some lines: pointed sides for a single line, straight ones
for more. -/
def frame (ls : List String) : String :=
  let width := longest ls
  let top := " " ++ copies (width + 2) '_'
  let bottom := " " ++ copies (width + 2) '-'
  let middle := match ls with
    | [l] => ["< " ++ padRight width l ++ " >"]
    | _ => ls.map fun l => "| " ++ padRight width l ++ " |"
  joinLines (top :: middle ++ [bottom])

def bubble (message : String) : String :=
  frame (wrap message bubbleWidth)

def animals : List (String × String) := [
  ("cow", joinLines ["", "        \\   ^__^", "         \\  (oo)\\_______",
    "            (__)\\       )\\/\\", "                ||----w |",
    "                ||     ||", "    "]),
  ("tux", joinLines ["", "        \\   .--.", "         \\ (o_o )",
    "           ( ) )", "            \" \"", "    "]),
  ("dragon", joinLines ["", "        \\                    / \\  //\\",
    "         \\    |\\___/|      /   \\//  \\\\",
    "              /O  O  \\__  /    //  | \\ \\    ",
    "             /     /  \\/_/    //   |  \\  \\  ",
    "             @___@'   \\/_   //    |   \\   \\ ", "    "]),
  ("sheep", joinLines ["", "        \\     __", "         \\  (oo)\\_______",
    "            (__)\\       )\\/\\", "                ||----w |",
    "                ||     ||", "    "]),
  ("bunny", joinLines ["", "        \\ (\\_/)", "         \\( . .)",
    "         (  ---)", "          | | |", "    "])]

/-- The drawing of an animal of `animals`; an unknown one is a cow. -/
def animalArt (animal : String) : String :=
  ((animals.lookup animal).or (animals.lookup "cow")).getD ""

def draw (message animal : String) : String :=
  bubble message ++ "\n" ++ animalArt animal

end TaskShell.Cow

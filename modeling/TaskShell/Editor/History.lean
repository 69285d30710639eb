import TaskShell.Text.Lines
import TaskShell.Text.Search
import TaskShell.Text.Utf8

/-!
# The file of entries

Every entry is kept with the time it was made: an empty line, a line with the
time, and the lines of the entry, each after a plus sign. Reading takes every
run of lines with a plus sign for an entry.
-/

namespace TaskShell.Editor

open Text

/-- The entry of the lines gathered so far; its last line break is not part of
it. -/
def gathered (lines : Option (List Char)) : List (List Char) :=
  lines.toList.map List.dropLast

/-- The entries of lines, the first one first; `open_` holds the lines of the
current entry. -/
def entriesFrom (open_ : Option (List Char)) :
    List (List Char) → List (List Char)
  | [] => gathered open_
  | ('+' :: line) :: rest => entriesFrom (some (open_.getD [] ++ line)) rest
  | _ :: rest => gathered open_ ++ entriesFrom none rest

def readEntries (bytes : List UInt8) : List (List Char) :=
  (entriesFrom none (fileLines (decodeReplacing bytes))).reverse

def writeEntry (time : String) (entry : List Char) : List UInt8 :=
  let lines :=
    (splitAll '\n' entry).map fun line => "+" ++ String.ofList line ++ "\n"
  utf8 (s!"\n# {time}\n" ++ String.join lines)

end TaskShell.Editor

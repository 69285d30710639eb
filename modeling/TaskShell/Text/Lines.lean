/-!
# Lines

Three readings of what a line is. Text broken for display splits at every line
boundary of Unicode. Bytes split only at a line feed, a carriage return or the
pair of both. A text file is read with those three endings turned into a line
feed, and its lines keep that line feed.
-/

namespace TaskShell.Text

def isLineBreak (c : Char) : Bool :=
  let n := c.toNat
  (0x0A ≤ n && n ≤ 0x0D) || (0x1C ≤ n && n ≤ 0x1E) || n == 0x85 ||
    n == 0x2028 || n == 0x2029

/-- The lines of `cs`, where `line` holds the characters of the line being read,
last one first. -/
def breakLinesFrom : List Char → List Char → List (List Char)
  | [], [] => []
  | [], line => [line.reverse]
  | '\r' :: '\n' :: cs, line => line.reverse :: breakLinesFrom cs []
  | c :: cs, line =>
    if isLineBreak c then line.reverse :: breakLinesFrom cs []
    else breakLinesFrom cs (c :: line)

/-- The lines of displayed text, without their endings; a final ending opens no
further line. -/
def breakLines (cs : List Char) : List (List Char) :=
  breakLinesFrom cs []

/-- The `breakLines` of a text, without their endings. -/
def lines (s : String) : List String :=
  (breakLines s.toList).map String.ofList

/-- The lines of `bs`, where `line` holds the bytes of the line being read, last
one first. -/
def byteLinesFrom : List UInt8 → List UInt8 → List (List UInt8)
  | [], [] => []
  | [], line => [line.reverse]
  | 13 :: 10 :: bs, line => line.reverse :: byteLinesFrom bs []
  | b :: bs, line =>
    if b == 10 || b == 13 then line.reverse :: byteLinesFrom bs []
    else byteLinesFrom bs (b :: line)

/-- The lines of raw bytes, without their endings. -/
def byteLines (bs : List UInt8) : List (List UInt8) :=
  byteLinesFrom bs []

/-- Turns every carriage return, alone or before a line feed, into a line
feed. -/
def unifyNewlines : List Char → List Char
  | [] => []
  | '\r' :: '\n' :: cs => '\n' :: unifyNewlines cs
  | '\r' :: cs => '\n' :: unifyNewlines cs
  | c :: cs => c :: unifyNewlines cs

/-- The lines of a file, each with its line feed; `line` holds the current line,
last character first. -/
def fileLinesFrom : List Char → List Char → List (List Char)
  | [], [] => []
  | [], line => [line.reverse]
  | '\n' :: cs, line => ('\n' :: line).reverse :: fileLinesFrom cs []
  | c :: cs, line => fileLinesFrom cs (c :: line)

/-- The lines of a file whose newlines are unified by `unifyNewlines`, each with
its line feed. -/
def fileLines (cs : List Char) : List (List Char) :=
  fileLinesFrom cs []

def joinLines (ls : List String) : String :=
  "\n".intercalate ls

/-! ## Picking lines -/

/-- The first `n` items; a negative `n` leaves out that many at the end. -/
def firstItems {α : Type} (n : Int) (xs : List α) : List α :=
  if n < 0 then xs.take (xs.length - n.natAbs) else xs.take n.natAbs

/-- The last `n` items; zero stands for all, and a negative `n` leaves out that
many at the start. -/
def lastItems {α : Type} (n : Int) (xs : List α) : List α :=
  if n ≤ 0 then xs.drop n.natAbs else xs.drop (xs.length - n.natAbs)

/-- The place in a list of a length that a number means; one below zero counts
from the end. -/
def placeIn (length : Nat) (i : Int) : Nat :=
  if i < 0 then (i + length).toNat else min i.toNat length

def slice {α : Type} (start stop : Int) (xs : List α) : List α :=
  (xs.take (placeIn xs.length stop)).drop (placeIn xs.length start)

def sortLines (ls : List String) : List String :=
  ls.mergeSort fun a b => a ≤ b

/-- The items after `previous` that differ from the one right before them. -/
def dropRepeats {α : Type} [BEq α] (previous : Option α) : List α → List α
  | [] => []
  | x :: xs => if previous == some x then dropRepeats previous xs
      else x :: dropRepeats (some x) xs

/-- The items that are not among `seen` and have not occurred before. -/
def dropSeen {α : Type} [BEq α] (seen : List α) : List α → List α
  | [] => []
  | x :: xs =>
    if seen.contains x then dropSeen seen xs else x :: dropSeen (x :: seen) xs

end TaskShell.Text

import TaskShell.Text.Blank
import TaskShell.Text.Search

/-!
# Documents

A document is a text with a cursor. The cursor stands before the character of
its number, or behind the last one. Places that a movement leads to are given
relative to the cursor.
-/

namespace TaskShell.Editor

open Text

structure Document where
  text : List Char
  cursor : Nat
  deriving DecidableEq, Repr

namespace Document

def ofText (text : List Char) : Document := ⟨text, text.length⟩

def before (d : Document) : List Char := d.text.take d.cursor

def after (d : Document) : List Char := d.text.drop d.cursor

def charUnder (d : Document) : Option Char := d.text[d.cursor]?

/-- The character before the cursor; the cursor at the start has the last
character before it. -/
def charBefore (d : Document) : Option Char :=
  if d.cursor == 0 then d.text.getLast? else d.text[d.cursor - 1]?

/-! ## Lines -/

def sinceBreak (cs : List Char) : List Char :=
  (cs.reverse.takeWhile (· != '\n')).reverse

def lineBefore (d : Document) : List Char := sinceBreak d.before

def lineAfter (d : Document) : List Char := d.after.takeWhile (· != '\n')

def line (d : Document) : List Char := d.lineBefore ++ d.lineAfter

def lines (d : Document) : List (List Char) := splitAll '\n' d.text

/-- The places where lines start, if the first starts at `i`. -/
def startsFrom : Nat → List (List Char) → List Nat
  | _, [] => []
  | i, l :: ls => i :: startsFrom (i + l.length + 1) ls

def starts (d : Document) : List Nat := startsFrom 0 d.lines

/-- The row and the column of a place. A place before the text counts from the
start of the last line. -/
def position (d : Document) (i : Int) : Int × Int :=
  let upTo := d.starts.filter fun start : Nat => (start : Int) ≤ i
  let start := (upTo.getLast?.orElse fun _ => d.starts.getLast?).getD 0
  ((upTo.length : Int) - 1, i - start)

def row (d : Document) : Nat := (d.before.filter (· == '\n')).length

def column (d : Document) : Nat := d.lineBefore.length

def margin (d : Document) : List Char := d.line.takeWhile isBlank

def linesFromHere (d : Document) : List (List Char) := d.lines.drop d.row

def onFirstLine (d : Document) : Bool := d.row == 0

def onLastLine (d : Document) : Bool := d.row + 1 == d.lines.length

def atEnd (d : Document) : Bool := d.cursor == d.text.length

def atLineEnd (d : Document) : Bool :=
  d.charUnder == none || d.charUnder == some '\n'

/-- The line of a row with the place where it starts. Rows below zero count from
the end as far as there are lines; beyond that the first or the last line is
meant. -/
def lineAt (d : Document) (row : Int) : Nat × List Char :=
  let all := d.starts.zip d.lines
  let i := if row < 0 then row + all.length else row
  let found :=
    if i < 0 then all.head? else (all[i.toNat]?).orElse fun _ => all.getLast?
  found.getD (0, [])

/-- The place of a row and a column, within the text and within the line. -/
def place (d : Document) (row column : Int) : Nat :=
  let (start, line) := d.lineAt row
  min (start + min column.toNat line.length) d.text.length

/-! ## Movements -/

def toStart (d : Document) : Int := -(d.cursor : Int)

def toEnd (d : Document) : Int := (d.text.length : Int) - d.cursor

def toLineStart (d : Document) : Int := -(d.lineBefore.length : Int)

/-- The way to the first character of the line that is not blank. -/
def toLineText (d : Document) : Int := (d.margin.length : Int) - d.column

def toLineEnd (d : Document) : Int := d.lineAfter.length

def toLastText (d : Document) : Int :=
  ((trimEnd isBlank d.line).length : Int) - d.column - 1

def toColumn (d : Document) (column : Int) : Int :=
  (min d.line.length column.toNat : Nat) - (d.column : Int)

/-- The way to the left on the line; a negative count leads to the right. -/
def leftBy (d : Document) (count : Int) : Int :=
  if count < 0 then min (-count) d.lineAfter.length
  else -(min (d.column : Int) count)

/-- The way to the right on the line; a negative count leads to the left. -/
def rightBy (d : Document) (count : Int) : Int :=
  if count < 0 then -(min (d.column : Int) (-count))
  else min count d.lineAfter.length

/-- The way some rows up, at least one, to a column. -/
def upBy? (d : Document) (count : Int) (column : Option Int) : Option Int :=
  if count < 1 then none
  else some ((d.place (max 0 ((d.row : Int) - count)) (column.getD d.column) :
    Int) - d.cursor)

/-- The way some rows down, at least one, to a column. -/
def downBy? (d : Document) (count : Int) (column : Option Int) : Option Int :=
  if count < 1 then none
  else some
    ((d.place ((d.row : Int) + count) (column.getD d.column) : Int) - d.cursor)

/-! ## Paragraphs -/

def isEmptyLine (l : List Char) : Bool := l.all isBlank

/-- The number of the `count`-th empty line, counted from one, or of the last
one if there are fewer. -/
def emptyLineFrom (best : Option Nat) (i : Nat) (count : Int) :
    List (List Char) → Option Nat
  | [] => best
  | l :: ls =>
    let empty := isEmptyLine l
    let best := if empty then some i else best
    let count := if empty then count - 1 else count
    if count == 0 then best else emptyLineFrom best (i + 1) count ls

/-- The way to the start of the paragraph; `outside` leads to the empty line
before it. -/
def toParagraphStart (d : Document) (count : Int) (outside : Bool) : Int :=
  match emptyLineFrom none 1 count (d.lines.take d.row).reverse with
  | none => d.toStart
  | some up => min 0 (((d.upBy? up none).getD 0) + if outside then 0 else 1)

/-- The way to the end of the paragraph; `outside` leads to the empty line after
it. -/
def toParagraphEnd (d : Document) (count : Int) (outside : Bool) : Int :=
  match emptyLineFrom none 1 count (d.lines.drop (d.row + 1)) with
  | none => d.after.length
  | some down =>
    max 0 (((d.downBy? down none).getD 0) - if outside then 0 else 1)

def emptyLinesAtEnd (d : Document) : Nat :=
  (d.lines.reverse.takeWhile isEmptyLine).length

/-! ## Brackets -/

/-- The distance to the character that closes what is open `depth` times. -/
def closing (opener closer : Char) : Nat → List Char → Option Nat
  | _, [] => none
  | depth, c :: cs =>
    let depth :=
      if c == opener then depth + 1
      else if c == closer then depth - 1 else depth
    if depth == 0 then some 0 else (closing opener closer depth cs).map (· + 1)

/-- The way to the right bracket around the cursor, looking no further than to a
place. -/
def toRightBracket (d : Document) (left right : Char)
    (limit : Option Int) : Option Int :=
  if d.charUnder == some right then some 0
  else
    let stop := ((limit.getD d.text.length).toNat)
    let ahead := (d.text.take stop).drop (d.cursor + 1)
    (closing left right 1 ahead).map fun n => (n : Int) + 1

/-- The way to the left bracket around the cursor, looking no further than to a
place. -/
def toLeftBracket (d : Document) (left right : Char)
    (limit : Option Int) : Option Int :=
  if d.charUnder == some left then some 0
  else
    let start := (limit.getD 0).toNat
    let behind := (d.before.drop start).reverse
    (closing right left 1 behind).map fun n => -((n : Int) + 1)

def bracketPairs : List (Char × Char) :=
  [('(', ')'), ('[', ']'), ('\x7b', '\x7d'), ('<', '>')]

/-- The way to the bracket that matches the one under the cursor; none leads
nowhere. -/
def toMatchingBracket (d : Document) (start stop : Option Int) : Int :=
  let way := bracketPairs.findSome? fun (left, right) =>
    if d.charUnder == some left then some (d.toRightBracket left right stop)
    else if d.charUnder == some right then
      some (d.toLeftBracket left right start)
    else none
  (way.bind id).getD 0

/-! ## Changes -/

def append (d : Document) (more : List Char) : Document :=
  ⟨d.text ++ more, d.cursor⟩

def prepend (d : Document) (more : List Char) : Document :=
  ⟨more ++ d.text, d.cursor + more.length⟩

end Document

end TaskShell.Editor

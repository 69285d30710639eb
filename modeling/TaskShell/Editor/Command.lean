import TaskShell.Editor.State

/-!
# Commands of the editor

What the keys of the editor do. A command sees the count that was typed before
it, the input of its keys, and whether it is repeated.
-/

namespace TaskShell.Editor

open Text

structure Event where
  typed : Option (List Char)
  keys : List KeyPress
  repeated : Bool
  deriving Repr

namespace Event

def countLimit : Nat := 1000000

def number (cs : List Char) : Nat :=
  cs.foldl (fun n c => 10 * n + (c.toNat - '0'.toNat)) 0

/-- The count of an event. None stands for one, as does one that is too
large. -/
def count (e : Event) : Int :=
  match e.typed with
  | none | some [] => 1
  | some ['-'] => -1
  | some ('-' :: digits) => -(number digits : Int)
  | some digits => if number digits ≥ countLimit then 1 else number digits

def count? (e : Event) : Option Int := e.typed.map fun _ => e.count

def data (e : Event) : List Char := (e.keys.getLast?.map KeyPress.data).getD []

end Event

inductive Lettering where
  | upper
  | lower
  | title
  deriving DecidableEq, Repr

def Lettering.apply (l : Lettering) (cs : List Char) : List Char :=
  let s := String.ofList cs
  match l with
  | upper => (Text.upper s).toList
  | lower => (Text.lower s).toList
  | title => (Text.title s).toList

inductive Command where
  | ignore
  -- Moving
  | lineStart
  | lineEnd
  | textStart
  | textEnd
  | left
  | right
  | wordLeft
  | wordRight
  | previousWord
  | nextWord
  | findChar
  | findCharBack
  | toggleEnds
  | up
  | down
  | nextLine
  -- Entries
  | older
  | newer
  | firstEntry
  | lastEntry
  | recallLast
  | recallNth
  | accept
  | comment
  -- Changing the text
  | insertKey
  | insertLiteral
  | insertInput
  | insertPaste
  | newline
  | rubOut
  | deleteChar
  | killLine
  | discardLine
  | killWord
  | rubOutWord (big : Bool)
  | dropBlanks
  | transpose
  | letterWord (how : Lettering)
  | undo
  | quote
  -- Cutting and pasting
  | yank
  | yankEarlier
  | select
  | deselect
  | cut
  | copy
  | indent
  | unindent
  -- Selecting with the shift key
  | shiftSelect
  | shiftExtend
  | replaceSelection
  | dropSelection
  | yankOver
  | leaveShift
  -- Completions
  | complete
  | completeBack
  | completeFirst
  | insertAll
  | closeMenu
  -- Searching
  | startSearch (direction : Direction)
  | search (direction : Direction)
  | acceptSearch
  | abortSearch
  -- Counts and taught keys
  | digit (c : Char)
  | minus
  | minusAgain
  | startTeaching
  | endTeaching
  | repeatTaught
  | pressKey (key : KeyPress)
  -- Leaving
  | interrupt
  | endInput
  deriving DecidableEq, Repr

/-! ## Moving -/

/-- Moves up in the menu, in the text or to an earlier entry. -/
def Buffer.goUp (b : Buffer) (count : Int) : Buffer :=
  if b.menu.isSome then b.choosePrevious count
  else if b.document.row > 0 then b.rowUp count
  else if b.selection.isSome then b
  else b.older count

/-- Moves down in the menu, in the text or to a later entry. -/
def Buffer.goDown (b : Buffer) (count : Int) : Buffer :=
  if b.menu.isSome then b.chooseNext count
  else if !b.document.onLastLine then b.rowDown count
  else if b.selection.isSome then b
  else b.newer count

/-- Moves to an occurrence of a text on the line; a negative count searches
backward. -/
def Buffer.goToChar (b : Buffer) (sub : List Char) (count : Int) : Buffer :=
  let way := if count < 0 then b.document.findBack? sub true false (-count)
    else b.document.find? sub true false false count
  b.go (way.getD 0)

def Buffer.moveBy (b : Buffer) (key : Key) (count : Int) : Buffer :=
  let d := b.document
  match key with
  | .shiftPad .up => b.goUp count
  | .shiftPad .down => b.goDown count
  | .shiftPad .left => b.go (d.leftBy count)
  | .shiftPad .right => b.go (d.rightBy count)
  | .shiftPad .home => b.go d.toLineStart
  | .shiftPad .end_ => b.go d.toLineEnd
  | .controlShiftPad .left => b.go ((d.toPreviousWord? count false).getD 0)
  | .controlShiftPad .right =>
    b.go ((d.toNextWordEnd? false count false).getD 0)
  | .controlShiftPad .home => b.goTo 0
  | .controlShiftPad .end_ => b.goTo d.text.length
  | _ => b

/-! ## Changing the text -/

def Buffer.letterWords (how : Lettering) : Nat → Buffer → Buffer
  | 0, b => b
  | count + 1, b =>
    let d := b.document
    let word := match d.toNextWordEnd? false 1 false with
      | some way => d.after.take way.toNat
      | none => d.after
    letterWords how count (b.overwrite (how.apply word))

def Buffer.dropBlanks (b : Buffer) : Buffer :=
  let isSpace (c : Char) : Bool := c == ' ' || c == '\t'
  let before := (b.document.before.reverse.takeWhile isSpace).length
  let after := (b.document.after.takeWhile isSpace).length
  ((b.deleteBefore before).2.deleteAfter after).2

/-- Swaps the characters around the cursor, or at the end of a line the two
before it. -/
def Buffer.transpose (b : Buffer) : Buffer :=
  if b.cursor == 0 then b
  else if b.document.atLineEnd then b.swap
  else (b.go 1).swap

/-- Marks every line as a comment, or takes the marks off. -/
def Buffer.commentLines (b : Buffer) (mark : Bool) : Buffer :=
  let change (l : List Char) : List Char :=
    if mark then '#' :: l else if l.head? == some '#' then l.drop 1 else l
  b.setDocument
    ⟨(joinLines ((breakLines b.text).map (String.ofList ∘ change))).toList, 0⟩

def Buffer.selectedRows (b : Buffer) : Nat × Nat :=
  let (start, stop) := b.selected.getD (b.cursor, b.cursor)
  ((b.document.position start).1.toNat, (b.document.position stop).1.toNat)

/-- Changes lines and puts the cursor on its row again, `shift` columns
further. -/
def Buffer.changeRows (b : Buffer) (rows : Nat × Nat)
    (change : List Char → List Char) (shift : Int) : Buffer :=
  let d := b.document
  let lines := d.lines.zipIdx.map fun (l, i) =>
    if rows.1 ≤ i && i ≤ rows.2 then change l else l
  let text := (joinLines (lines.map String.ofList)).toList
  let b := b.setDocument ⟨text, (Document.ofText text).place d.row 0⟩
  b.go (d.column + shift)

def indentOf (count : Int) : List Char := List.replicate (4 * count.toNat) ' '

def Buffer.indent (b : Buffer) (count : Int) : Buffer :=
  let b := b.go b.document.toLineText
  b.changeRows b.selectedRows (indentOf count ++ ·) (indentOf count).length

def Buffer.unindent (b : Buffer) (count : Int) : Buffer :=
  let blanks := indentOf count
  let change (l : List Char) : List Char :=
    if blanks.isPrefixOf l then l.drop blanks.length else l.dropWhile isBlank
  b.changeRows b.selectedRows change (-(blanks.length : Int))

namespace State

def killLine (s : State) (count : Int) : State :=
  let d := s.buffer.document
  if count < 0 then s.cutBy (·.deleteBefore d.lineBefore.length)
  else if d.charUnder == some '\n' then s.cutBy (·.deleteAfter 1)
  else s.cutBy (·.deleteAfter d.lineAfter.length)

/-- Kills to the start of the line; at the start only the line break is
deleted. -/
def discardLine (s : State) : State :=
  let d := s.buffer.document
  if d.column == 0 && d.cursor > 0 then s.edit fun b => (b.deleteBefore 1).2
  else s.cutBy (·.deleteBefore d.lineBefore.length)

/-- Kills to the end of a word; words killed in a row are kept as one text. -/
def killWord (s : State) (e : Event) : State :=
  match s.buffer.document.toNextWordEnd? false e.count false with
  | none | some 0 => s
  | some way =>
    let deleted := (s.buffer.deleteAfter way).1
    (s.edit fun b => (b.deleteAfter way).2).keep (if e.repeated then
      s.kept ++ deleted else deleted)

/-- Kills back to the start of a word, or of the text; words killed in a row are
kept as one text. -/
def rubOutWord (s : State) (e : Event) (big : Bool) : State :=
  let d := s.buffer.document
  match ((d.toWordStart? e.count big).getD d.toStart).natAbs with
  | 0 => s
  | n =>
    let deleted := (s.buffer.deleteBefore n).1
    (s.edit fun b => (b.deleteBefore n).2).keep (if e.repeated then
      deleted ++ s.kept else deleted)

/-- Puts the text that was cut before in place of the one that was just
pasted. -/
def yankEarlier (s : State) : State :=
  match s.buffer.beforePaste with
  | none => s
  | some d =>
    let ring := s.ring.drop 1 ++ s.ring.take 1
    { s.edit fun b => (b.setDocument d).paste (ring.headD []) 1 with ring }

/-- Selects while moving; a move that leads nowhere selects nothing. -/
def shiftSelect (s : State) (key : Key) (count : Int) : State :=
  s.edit fun b =>
    if b.text.isEmpty then b
    else
      let moved := (b.select true).moveBy key count
      if moved.cursor == b.cursor then moved.deselect else moved

/-- Moves the end of the selection; an empty selection ends. -/
def shiftExtend (s : State) (key : Key) (count : Int) : State :=
  s.edit fun b =>
    let moved := b.moveBy key count
    if moved.selection.any (·.origin == moved.cursor) then
      moved.deselect
    else moved

/-- Goes on with a search; a search that turns around only turns around. -/
def continueSearch (s : State) (direction : Direction) (count : Int) : State :=
  let query : Query := ⟨s.search.text, direction⟩
  if s.query.direction == direction then
    { s with query, main := s.main.goToQuery query false count.toNat }
  else { s with query }

def acceptSearch (s : State) : State :=
  let query := if s.search.text.isEmpty then s.query
    else { s.query with text := s.search.text }
  let s := { s with
    query, main := s.main.goToQuery query true 1
    queries := remembered s.queries s.search.text }
  s.stopSearch

def addDigit (s : State) (e : Event) (c : Char) : State :=
  { s with count := some (e.typed.getD [] ++ [c]) }

end State

/-- What a command does. `completions` are those of a text before the cursor. -/
def Command.run (completions : List Char → List Completion) (c : Command)
    (e : Event) (s : State) : State :=
  let b := s.buffer
  let d := b.document
  let key := (e.keys.head?.map KeyPress.key).getD .idle
  match c with
  | ignore => s
  | lineStart => s.go d.toLineStart
  | lineEnd => s.go d.toLineEnd
  | textStart => s.edit (·.goTo 0)
  | textEnd => s.edit (·.goTo d.text.length)
  | left => s.go (d.leftBy e.count)
  | right => s.go (d.rightBy e.count)
  | wordLeft | previousWord => s.go ((d.toPreviousWord? e.count false).getD 0)
  | wordRight => s.go ((d.toNextWordEnd? false e.count false).getD 0)
  | nextWord =>
    match d.toNextWord? e.count false with
    | none | some 0 => s.go d.toEnd
    | some way => s.go way
  | findChar => s.edit (·.goToChar e.data e.count)
  | findCharBack => s.edit (·.goToChar e.data (-e.count))
  | toggleEnds => s.go (if d.atLineEnd then d.toLineStart else d.toLineEnd)
  | up => s.edit (·.goUp e.count)
  | down => s.edit (·.goDown e.count)
  | nextLine => s.edit (·.goDown 1)
  | older => s.edit (·.older e.count)
  | newer => s.edit (·.newer e.count)
  | firstEntry => s.edit (·.goToEntry 0)
  | lastEntry => s.edit fun b => b.goToEntry (b.lines.length - 1)
  | recallLast => s.edit (·.recallWord s.entries e.count? (-1))
  | recallNth => s.edit (·.recallWord s.entries e.count? 1)
  | accept => s.accept
  | comment => (s.edit (·.commentLines (e.count == 1))).accept
  | insertKey => s.edit (·.insert (List.replicate e.count.toNat e.data).flatten)
  | insertLiteral => { s.edit (·.insert e.data) with quoting := false }
  | insertInput => s.edit (·.insert e.data)
  | insertPaste => s.edit (·.insert (unifyNewlines e.data))
  | newline => s.edit Buffer.newline
  | rubOut =>
    s.edit fun b => if e.count < 0 then (b.deleteAfter (-e.count)).2
      else (b.deleteBefore e.count.toNat).2
  | deleteChar => s.edit fun b => (b.deleteAfter e.count).2
  | killLine => s.killLine e.count
  | discardLine => s.discardLine
  | killWord => s.killWord e
  | rubOutWord big => s.rubOutWord e big
  | dropBlanks => s.edit Buffer.dropBlanks
  | transpose => s.edit Buffer.transpose
  | letterWord how => s.edit (Buffer.letterWords how e.count.toNat)
  | undo => s.edit Buffer.undo
  | quote => { s with quoting := true }
  | yank => s.edit (·.paste s.kept e.count)
  | yankEarlier => s.yankEarlier
  | select => s.edit (·.select false)
  | deselect => s.edit Buffer.deselect
  | cut => s.cutBy Buffer.cut
  | copy => s.cutBy Buffer.copy
  | indent => s.edit (·.indent e.count)
  | unindent => s.edit (·.unindent e.count)
  | shiftSelect => s.shiftSelect key e.count
  | shiftExtend => s.shiftExtend key e.count
  | replaceSelection =>
    s.edit fun b => b.cut.2.insert (List.replicate e.count.toNat e.data).flatten
  | dropSelection => s.edit fun b => b.cut.2
  | yankOver => s.edit fun b => b.cut.2.paste s.kept e.count
  | leaveShift =>
    match e.keys with
    | k :: _ => (s.edit Buffer.deselect).press k
    | [] => s
  | complete =>
    s.edit fun b => if b.menu.isSome then b.chooseNext 1 else b.ask .shared
  | completeBack => s.edit (·.choosePrevious 1)
  | completeFirst =>
    s.edit fun b => if b.menu.isSome then b.chooseNext 1 else b.ask .first
  | insertAll =>
    let found := if s.searching then [] else completions d.before
    s.edit (·.insert (" ".intercalate (found.map Completion.text)).toList)
  | closeMenu => s.edit fun b => { b with menu := none }
  | startSearch direction =>
    { s with searching := true, query := { s.query with direction } }
  | search direction => s.continueSearch direction e.count
  | acceptSearch => s.acceptSearch
  | abortSearch => s.stopSearch
  | digit c => s.addDigit e c
  | minus => s.addDigit e '-'
  | minusAgain => { s with count := some ['-'] }
  | startTeaching => { s with teaching := some [] }
  | endTeaching => { s with taught := s.teaching.getD [], teaching := none }
  | repeatTaught => { s with queue := s.taught ++ s.queue }
  | pressKey k => s.press k
  | interrupt => { s with outcome := some .interrupted }
  | endInput => { s with outcome := some .ended }

end TaskShell.Editor

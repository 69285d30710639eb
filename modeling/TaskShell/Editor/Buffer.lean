import TaskShell.Editor.Find
import TaskShell.Editor.Menu
import TaskShell.Text.Lines

/-!
# Buffers

A buffer holds lines that can be edited: the entries of a history and the line
that is being typed. One of them is shown, with a cursor. A change of the text
closes the menu of completions and ends a selection; a move of the cursor only
closes the menu.
-/

namespace TaskShell.Editor

open Text

/-- A selection: the place where it started, and whether it was started with the
shift key. -/
structure Selection where
  origin : Nat
  shifted : Bool
  deriving DecidableEq, Repr

/-- Words of earlier entries that are put in one after the other. -/
structure Recall where
  passed : Nat
  /-- The number of the word; one below zero counts from the end. -/
  word : Int
  inserted : List Char
  deriving DecidableEq, Repr

inductive Request where
  | typed
  /-- The first completion is chosen at once. -/
  | first
  /-- What all completions share is put in. -/
  | shared
  deriving DecidableEq, Repr

structure Buffer where
  lines : List (List Char)
  index : Nat
  cursor : Nat
  selection : Option Selection
  /-- The column that moves up and down keep to. -/
  column : Option Nat
  menu : Option Menu
  recalled : Option Recall
  beforePaste : Option Document
  /-- Earlier documents, the last one first. -/
  earlier : List Document
  /-- Completions that were asked for and not looked up yet. -/
  requests : List Request
  /-- Whether the entries of the history are among the lines. -/
  loaded : Bool
  deriving Repr

namespace Buffer

def empty : Buffer := ⟨[[]], 0, 0, none, none, none, none, none, [], [], false⟩

def text (b : Buffer) : List Char := b.lines.getD b.index []

def document (b : Buffer) : Document := ⟨b.text, b.cursor⟩

/-! ## Changes -/

def moved (b : Buffer) : Buffer :=
  { b with menu := none, recalled := none, beforePaste := none, column := none }

def changed (b : Buffer) : Buffer := { b.moved with selection := none }

/-- Moves the cursor to a place, or to the nearest end of the text. -/
def goTo (b : Buffer) (i : Int) : Buffer :=
  let i := min i.toNat b.text.length
  if i == b.cursor then b else { b.moved with cursor := i }

def go (b : Buffer) (way : Int) : Buffer := b.goTo (b.cursor + way)

/-- Shows another text at another place of the cursor. -/
def setDocument (b : Buffer) (d : Document) : Buffer :=
  let next := { b with lines := b.lines.set b.index d.text, cursor := d.cursor }
  if d.text != b.text then next.changed
  else if d.cursor != b.cursor then next.moved else next

/-- Shows another text; the cursor stays, if there is room for it. -/
def setText (b : Buffer) (text : List Char) : Buffer :=
  let b := if b.cursor > text.length then b.goTo text.length else b
  if text == b.text then b
  else { b.changed with lines := b.lines.set b.index text }

def setIndex (b : Buffer) (i : Nat) : Buffer :=
  if i == b.index then b else { b.changed with index := i, cursor := 0 }

/-- Keeps the document, so that later changes can be taken back. -/
def save (b : Buffer) : Buffer :=
  match b.earlier with
  | d :: rest =>
    if d.text == b.text then { b with earlier := b.document :: rest }
    else { b with earlier := b.document :: d :: rest }
  | [] => { b with earlier := [b.document] }

def undo (b : Buffer) : Buffer :=
  match b.earlier.dropWhile fun d => d.text == b.text with
  | [] => { b with earlier := [] }
  | d :: rest => { b.setDocument d with earlier := rest }

/-! ## Insertion and deletion -/

/-- Puts a text in at the cursor and asks for completions. -/
def insert (b : Buffer) (data : List Char) : Buffer :=
  let d := b.document
  let b := b.setDocument ⟨d.before ++ data ++ d.after, d.cursor + data.length⟩
  { b with requests := b.requests ++ [.typed] }

/-- Puts a text in at the cursor in place of as many characters of the line. -/
def overwrite (b : Buffer) (data : List Char) : Buffer :=
  let d := b.document
  let covered := (d.after.take data.length).takeWhile (· != '\n')
  let b := b.setDocument ⟨d.before ++ data ++ d.after.drop covered.length,
    d.cursor + data.length⟩
  { b with requests := b.requests ++ [.typed] }

/-- Deletes characters before the cursor. A count beyond the start wraps around
to the end of the text. -/
def deleteBefore (b : Buffer) (count : Nat) : List Char × Buffer :=
  if b.cursor == 0 then ([], b)
  else
    let start := (b.cursor : Int) - count
    let deleted := slice start b.cursor b.text
    (deleted, b.setDocument ⟨slice 0 start b.text ++ b.document.after,
      b.cursor - deleted.length⟩)

/-- Deletes characters after the cursor; a negative count spares that many at
the end. -/
def deleteAfter (b : Buffer) (count : Int) : List Char × Buffer :=
  let d := b.document
  if d.cursor < d.text.length then
    let deleted := firstItems count d.after
    (deleted, b.setText (d.before ++ d.after.drop deleted.length))
  else ([], b)

def swap (b : Buffer) : Buffer :=
  match b.document.before.reverse with
  | x :: y :: rest => b.setText (rest.reverse ++ [x, y] ++ b.document.after)
  | _ => b

def newline (b : Buffer) : Buffer := b.insert ('\n' :: b.document.margin)

/-! ## Selections -/

/-- Starts a selection at the cursor, if there is a text. -/
def select (b : Buffer) (shifted : Bool) : Buffer :=
  if b.text.isEmpty then b else { b with selection := some ⟨b.cursor, shifted⟩ }

def deselect (b : Buffer) : Buffer := { b with selection := none }

def selected (b : Buffer) : Option (Nat × Nat) :=
  b.selection.map fun s => (min s.origin b.cursor, max s.origin b.cursor)

def copy (b : Buffer) : List Char × Buffer :=
  match b.selected with
  | none => ([], b)
  | some (start, stop) => ((b.text.take stop).drop start, b.deselect)

def cut (b : Buffer) : List Char × Buffer :=
  match b.selected with
  | none => ([], b)
  | some (start, stop) =>
    ((b.text.take stop).drop start,
      (b.setDocument ⟨b.text.take start ++ b.text.drop stop, start⟩).deselect)

/-- Puts a text in several times; a negative count only moves the cursor
back. -/
def paste (b : Buffer) (data : List Char) (count : Int) : Buffer :=
  let d := b.document
  let new := d.before ++ (List.replicate count.toNat data).flatten ++ d.after
  { b.setDocument ⟨new, ((d.cursor : Int) + data.length * count).toNat⟩
    with beforePaste := some d }

/-! ## Lines and entries -/

/-- Moves the cursor some rows up; nothing if the count is not positive. -/
def rowUp (b : Buffer) (count : Int) : Buffer :=
  let column := (b.column.filter (· != 0)).getD b.document.column
  match b.document.upBy? count (some column) with
  | none => b
  | some way => { b.go way with column := some column }

/-- Moves the cursor some rows down; nothing if the count is not positive. -/
def rowDown (b : Buffer) (count : Int) : Buffer :=
  let column := (b.column.filter (· != 0)).getD b.document.column
  match b.document.downBy? count (some column) with
  | none => b
  | some way => { b.go way with column := some column }

/-- Shows an earlier entry; a count that is not positive leads to the first. -/
def older (b : Buffer) (count : Int) : Buffer :=
  if b.index == 0 then b
  else
    let b := b.setIndex (if count < 1 then 0 else b.index - count.toNat)
    b.goTo b.text.length

/-- Shows a later entry; a count that is not positive leads to the last. -/
def newer (b : Buffer) (count : Int) : Buffer :=
  let last := b.lines.length - 1
  if b.index == last then b
  else
    let b :=
      b.setIndex (if count < 1 then last else min last (b.index + count.toNat))
    b.goTo b.document.lineAfter.length

def goToEntry (b : Buffer) (i : Nat) : Buffer :=
  if i < b.lines.length then
    let b := b.setIndex i
    b.goTo b.text.length
  else b

/-- Puts the entries of a history, the last one first, before the lines. -/
def load (b : Buffer) (entries : List (List Char)) : Buffer :=
  if b.loaded then b
  else { b with
    lines := entries.reverse ++ b.lines, index := b.index + entries.length
    loaded := true }

/-! ## Completions -/

/-- Chooses a completion of the menu, or none, and shows what it makes of the
document. -/
def choose (b : Buffer) (m : Menu) (chosen : Option Nat) : Buffer :=
  let m := { m with chosen }
  { b.setDocument m.shown with menu := some m }

def chooseNext (b : Buffer) (count : Int) : Buffer :=
  match b.menu with
  | none => b
  | some m => b.choose m (m.next count)

def choosePrevious (b : Buffer) (count : Int) : Buffer :=
  match b.menu with
  | none => b
  | some m => b.choose m (m.previous count)

def ask (b : Buffer) (r : Request) : Buffer :=
  { b with requests := b.requests ++ [r] }

/-- Answers a request for completions, of which an open menu needs none. -/
def answer (complete : List Char → List Completion) (b : Buffer)
    (r : Request) : Buffer :=
  let d := b.document
  let found := if b.menu.isSome then [] else complete d.before
  if found.isEmpty || (found.length == 1 && found.all (·.isIdle d)) then b
  else
    let m : Menu := ⟨d, found, none⟩
    match r with
    | .typed => { b with menu := some m }
    | .first => b.choose m (some 0)
    | .shared =>
      let shared := commonAddition d found
      if !shared.isEmpty then
        let b := b.insert shared
        if found.length > 1 then
          { b with
            menu := some ⟨b.document, found.map (·.rest shared.length), none⟩ }
        else b
      else if found.length == 1 then b.choose m (some 0)
      else { b with menu := some m }

/-- Answers requests for completions and those that the answers make. `fuel`
bounds their number. -/
def answerAll (complete : List Char → List Completion) : Nat → Buffer → Buffer
  | 0, b => { b with requests := [] }
  | fuel + 1, b =>
    match b.requests with
    | [] => b
    | r :: rest =>
      answerAll complete fuel (answer complete { b with requests := rest } r)

/-- Answers all requests; an answer makes one more at most, and that one makes
none. -/
def settle (complete : List Char → List Completion) (b : Buffer) : Buffer :=
  answerAll complete (2 * b.requests.length + 1) b

end Buffer

end TaskShell.Editor

import TaskShell.Editor.Buffer
import TaskShell.Editor.Scanner

/-!
# The state of the editor

The editor holds the line that is typed, the line of a search, what was typed
before, what was cut, and the keys that have not been acted on.
-/

namespace TaskShell.Editor

open Text

/-! ## Words of earlier entries -/

/-- The word in `piece`, last character first, if there is one. -/
def finishedWord (piece : List Char) : List (List Char) :=
  if piece.isEmpty then [] else [piece.reverse]

/-- The text between quotes that `cs` starts with, after the opening quote `q`,
and what follows it. Quotes do not reach beyond a line. -/
def quotedPart? (q : Char) (cs : List Char) : Option (List Char × List Char) :=
  let body := cs.takeWhile fun c => c != q && c != '\n'
  match cs.drop body.length with
  | c :: rest => if c == q then some (q :: body ++ [q], rest) else none
  | [] => none

/-- The words of an entry; `piece` is the current word, last character first,
and `fuel` bounds the characters. -/
def entryWordsFrom : Nat → List Char → List Char → List (List Char)
  | 0, piece, _ => finishedWord piece
  | _, piece, [] => finishedWord piece
  | fuel + 1, piece, c :: cs =>
    if isBlank c then finishedWord piece ++ entryWordsFrom fuel [] cs
    else
      match if c == '"' || c == '\'' then quotedPart? c cs else none with
      | some (word, rest) =>
        finishedWord piece ++ word :: entryWordsFrom fuel [] rest
      | none => entryWordsFrom fuel (c :: piece) cs

def entryWords (cs : List Char) : List (List Char) :=
  entryWordsFrom cs.length [] cs

/-- The item of a number; one below zero counts from the end. -/
def itemAt? {α : Type} (xs : List α) (i : Int) : Option α :=
  let i := if i < 0 then i + xs.length else i
  if i < 0 then none else xs[i.toNat]?

/-- Puts a word of an earlier entry in; the same again takes the word of the
entry before that one in its place. `entries` are the earlier ones, the last one
first. -/
def Buffer.recallWord (b : Buffer) (entries : List (List Char))
    (asked : Option Int) (fallback : Int) : Buffer :=
  if entries.isEmpty then b
  else
    let r := b.recalled.getD ⟨0, fallback, []⟩
    let number := asked.getD r.word
    let passed := if r.passed + 1 > entries.length then 1 else r.passed + 1
    let word :=
      (itemAt? (entryWords (entries.getD (passed - 1) [])) number).getD []
    let b :=
      if r.inserted.isEmpty then b else (b.deleteBefore r.inserted.length).2
    { b.insert word with recalled := some ⟨passed, number, word⟩ }

/-! ## Searching through the entries -/

inductive Direction where
  | forward
  | backward
  deriving DecidableEq, Repr

structure Query where
  text : List Char
  direction : Direction
  deriving DecidableEq, Repr

namespace Buffer

def linesAhead (b : Buffer) (i : Nat) : List Nat :=
  (List.range' (i + 1) (b.lines.length - i)).map (· % b.lines.length)

/-- The lines before a line, the nearest one first, and the last one. -/
def linesBehind (b : Buffer) (i : Nat) : List Nat :=
  (List.range i).reverse ++ [b.lines.length - 1]

/-- The next place of a query, from a document on the line `i`; `here` counts
one under the cursor. -/
def seekOnce (b : Buffer) (q : Query) (here : Bool) (i : Nat) (d : Document) :
    Option (Nat × Document) :=
  match q.direction with
  | .forward =>
    match d.find? q.text false here false 1 with
    | some way => some (i, ⟨d.text, ((d.cursor : Int) + way).toNat⟩)
    | none =>
      (b.linesAhead i).findSome? fun j =>
        let text := b.lines.getD j []
        ((⟨text, 0⟩ : Document).find? q.text false true false 1).map fun way =>
          (j, ⟨text, way.toNat⟩)
  | .backward =>
    match d.findBack? q.text false false 1 with
    | some way => some (i, ⟨d.text, ((d.cursor : Int) + way).toNat⟩)
    | none =>
      (b.linesBehind i).findSome? fun j =>
        let text := b.lines.getD j []
        ((Document.ofText text).findBack? q.text false false 1).map fun way =>
          (j, ⟨text, ((text.length : Int) + way).toNat⟩)

def seek (b : Buffer) (q : Query) (here : Bool) :
    Nat → Nat → Document → Option (Nat × Document)
  | 0, i, d => some (i, d)
  | count + 1, i, d =>
    (b.seekOnce q here i d).bind fun (i, d) => b.seek q here count i d

def goToQuery (b : Buffer) (q : Query) (here : Bool) (count : Nat) : Buffer :=
  match b.seek q here count b.index b.document with
  | none => b
  | some (i, d) => (b.setIndex i).goTo d.cursor

end Buffer

/-! ## The state -/

inductive Outcome where
  | accepted (text : List Char)
  | interrupted
  | ended
  deriving DecidableEq, Repr

structure State where
  main : Buffer
  search : Buffer
  searching : Bool
  query : Query
  /-- What was typed before, the last entry first. -/
  entries : List (List Char)
  /-- What was searched for before, the last one first. -/
  queries : List (List Char)
  /-- What was cut, the last text first. -/
  ring : List (List Char)
  /-- The count that was typed for the next command. -/
  count : Option (List Char)
  /-- Whether the next key is taken literally. -/
  quoting : Bool
  /-- The keys that are being taught. -/
  teaching : Option (List KeyPress)
  taught : List KeyPress
  queue : List KeyPress
  /-- Keys that may become a longer sequence. -/
  held : List KeyPress
  last : Option Nat
  scanner : Scanner
  outcome : Option Outcome
  deriving Repr

namespace State

/-- An editor with earlier entries, the last one first. -/
def start (entries : List (List Char)) : State where
  main := .empty
  search := .empty
  searching := false
  query := ⟨[], .forward⟩
  entries := entries
  queries := []
  ring := []
  count := none
  quoting := false
  teaching := none
  taught := []
  queue := []
  held := []
  last := none
  scanner := .empty
  outcome := none

/-- The editor before a new line; what was cut and taught stays. -/
def fresh (s : State) : State :=
  { s with
    main := Buffer.empty.load s.entries, searching := false, count :=
      none, teaching := none, queue := [],
    held := [], last := none, scanner := .empty, outcome := none }

def buffer (s : State) : Buffer := if s.searching then s.search else s.main

def edit (s : State) (f : Buffer → Buffer) : State :=
  if s.searching then { s with search := f s.search }
  else { s with main := f s.main }

def go (s : State) (way : Int) : State := s.edit (·.go way)

def ringSize : Nat := 60

def keep (s : State) (text : List Char) : State :=
  { s with ring := (text :: s.ring).take ringSize }

def kept (s : State) : List Char := s.ring.headD []

def cutBy (s : State) (f : Buffer → List Char × Buffer) : State :=
  (s.edit fun b => (f b).2).keep (f s.buffer).1

def press (s : State) (k : KeyPress) : State := { s with queue := k :: s.queue }

/-- A list with a text before it, unless the text is empty or stands there
already. -/
def remembered (texts : List (List Char)) (text : List Char) :
    List (List Char) :=
  if text.isEmpty || texts.head? == some text then texts else text :: texts

def stopSearch (s : State) : State :=
  { s with searching := false, search := .empty }

/-- Accepts the line; the line of a search is only remembered. -/
def accept (s : State) : State :=
  if s.searching then
    { s with queries := remembered s.queries s.search.text, search := .empty }
  else
    { s with
      outcome := some (.accepted s.main.text)
      entries := remembered s.entries s.main.text }

end State

end TaskShell.Editor

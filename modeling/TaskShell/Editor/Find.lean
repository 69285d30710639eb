import TaskShell.Editor.Document
import TaskShell.Text.Case

/-!
# Finding words and texts in documents

A small word is a run of letters and digits or a run of marks; a big word is a
run of anything but blanks.
-/

namespace TaskShell.Editor

open Text

/-- What a character is for the bounds of words. -/
inductive CharClass where
  | blank
  | letter
  | mark
  deriving DecidableEq, Repr

/-- Whether a character is one of the letters, digits and underscores of small
words. -/
def isWordLetter (c : Char) : Bool := c.isAlphanum || c == '_'

/-- The class of a character; for big words all characters but blanks are
letters. -/
def classOf (big : Bool) (c : Char) : CharClass :=
  if isBlank c then .blank else if big || isWordLetter c then .letter else .mark

/-- The bounds of the words from the place `i` on; `open_` is the class and the
start of the word before it. -/
def boundsFrom (big : Bool) (i : Nat) (open_ : Option (CharClass × Nat)) :
    List Char → List (Nat × Nat)
  | [] => (open_.map fun (_, start) => (start, i)).toList
  | c :: cs =>
    match open_, classOf big c with
    | none, .blank => boundsFrom big (i + 1) none cs
    | none, k => boundsFrom big (i + 1) (some (k, i)) cs
    | some (k, start), k' =>
      if k == k' then boundsFrom big (i + 1) (some (k, start)) cs
      else if k' == .blank then (start, i) :: boundsFrom big (i + 1) none cs
      else (start, i) :: boundsFrom big (i + 1) (some (k', i)) cs

def wordBounds (big : Bool) (cs : List Char) : List (Nat × Nat) :=
  boundsFrom big 0 none cs

def nth? {α : Type} (count : Int) (xs : List α) : Option α :=
  if count < 1 then none else xs[count.toNat - 1]?

/-- The item of a number, not counting a first word that starts at once. -/
def nthBeyond? (count : Int) (xs : List (Nat × Nat)) : Option (Nat × Nat) :=
  match xs with
  | (0, _) :: _ => nth? (count + 1) xs
  | _ => nth? count xs

/-- The length of the word that a text starts with, with the blanks behind it if
they count; none if it starts with a blank. -/
def firstWord? (big withBlanks : Bool) (cs : List Char) : Option Nat :=
  match cs with
  | [] => none
  | c :: _ =>
    let k := classOf big c
    if k == .blank then none
    else
      let word := cs.takeWhile (classOf big · == k)
      let blanks := (cs.drop word.length).takeWhile isBlank
      some (word.length + if withBlanks then blanks.length else 0)

def sameChar (ignoreCase : Bool) (a b : Char) : Bool :=
  a == b || (ignoreCase && foldOf a == foldOf b)

def startsSame (ignoreCase : Bool) : List Char → List Char → Bool
  | [], _ => true
  | _ :: _, [] => false
  | p :: ps, c :: cs => sameChar ignoreCase p c && startsSame ignoreCase ps cs

/-- The places where a text occurs, without overlap; `skip` counts characters of
an occurrence. -/
def occurrencesFrom (ignoreCase : Bool) (sub : List Char) :
    Nat → Nat → List Char → List Nat
  | i, _, [] => if sub.isEmpty then [i] else []
  | i, skip + 1, _ :: cs => occurrencesFrom ignoreCase sub (i + 1) skip cs
  | i, 0, c :: cs =>
    if startsSame ignoreCase sub (c :: cs) then
      i :: occurrencesFrom ignoreCase sub (i + 1) (sub.length - 1) cs
    else occurrencesFrom ignoreCase sub (i + 1) 0 cs

/-- The places where a text occurs, without overlap. -/
def occurrences (ignoreCase : Bool) (sub cs : List Char) : List Nat :=
  occurrencesFrom ignoreCase sub 0 0 cs

namespace Document

/-! ## Words -/

def toWordStart? (d : Document) (count : Int) (big : Bool) : Option Int :=
  (nth? count (wordBounds big d.before.reverse)).map fun (_, stop) =>
    -(stop : Int)

/-- The way to the start of a later word, for a count that is not negative. -/
def nextStart? (d : Document) (count : Int) (big : Bool) : Option Int :=
  (nthBeyond? count (wordBounds big d.after)).map fun (start, _) =>
    (start : Int)

/-- The way to the end of a later word, for a count that is not negative. -/
def nextEnd? (d : Document) (here : Bool) (count : Int)
    (big : Bool) : Option Int :=
  let skip := if here then 0 else 1
  (nth? count (wordBounds big (d.after.drop skip))).map fun (_, stop) =>
    (stop : Int) + skip

/-- The way to the end of an earlier word, for a count that is not negative. -/
def previousEnd? (d : Document) (count : Int) (big : Bool) : Option Int :=
  (nthBeyond? count (wordBounds big (d.after.take 1 ++ d.before.reverse))).map
    fun (start, _) => 1 - (start : Int)

def toNextWord? (d : Document) (count : Int) (big : Bool) : Option Int :=
  if count < 0 then d.toWordStart? (-count) big else d.nextStart? count big

def toPreviousWord? (d : Document) (count : Int) (big : Bool) : Option Int :=
  if count < 0 then d.nextStart? (-count) big else d.toWordStart? count big

/-- The way to the end of the next word; `here` counts a word that ends under
the cursor. -/
def toNextWordEnd? (d : Document) (here : Bool) (count : Int)
    (big : Bool) : Option Int :=
  if count < 0 then d.previousEnd? (-count) big else d.nextEnd? here count big

def toPreviousWordEnd? (d : Document) (count : Int) (big : Bool) : Option Int :=
  if count < 0 then d.nextEnd? false (-count) big else d.previousEnd? count big

def wordAround (d : Document) (big leading trailing : Bool) : Int × Int :=
  let behind := firstWord? big leading d.lineBefore.reverse
  let ahead := firstWord? big trailing d.lineAfter
  let parted := !big && behind.isSome && ahead.isSome &&
    (d.charBefore.map isWordLetter) != (d.charUnder.map isWordLetter)
  (if parted then 0 else -((behind.getD 0 : Nat) : Int), (ahead.getD 0 : Nat))

def wordUnder (d : Document) (big : Bool) : List Char :=
  let (start, stop) := d.wordAround big false false
  (d.text.take (d.cursor + stop.toNat)).drop (d.cursor - start.natAbs)

/-- The word before the cursor; a blank before it leaves none. -/
def wordBefore (d : Document) (big : Bool) : List Char :=
  match d.before.getLast? with
  | none => []
  | some c =>
    if isBlank c then []
    else
      d.before.drop (d.before.length - ((d.toWordStart? 1 big).getD 0).natAbs)

/-! ## Texts -/

/-- The way to the `count`-th occurrence of a text after the cursor, or from the
cursor on if `here` holds. -/
def find? (d : Document) (sub : List Char) (onLine here ignoreCase : Bool)
    (count : Int) : Option Int :=
  let ahead := if onLine then d.lineAfter else d.after
  if here then (nth? count (occurrences ignoreCase sub ahead)).map Int.ofNat
  else
    match ahead with
    | [] => none
    | _ :: ahead =>
      (nth? count (occurrences ignoreCase sub ahead)).map fun n => (n : Int) + 1

/-- The way to the `count`-th occurrence of a text before the cursor. -/
def findBack? (d : Document) (sub : List Char) (onLine ignoreCase : Bool)
    (count : Int) : Option Int :=
  let behind := (if onLine then d.lineBefore else d.before).reverse
  (nth? count (occurrences ignoreCase sub.reverse behind)).map fun n =>
    -((n + sub.length : Nat) : Int)

def isAt (d : Document) (sub : List Char) : Bool := sub.isPrefixOf d.after

end Document

end TaskShell.Editor

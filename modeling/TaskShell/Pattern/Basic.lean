/-!
# Patterns

The form of a search pattern: a sequence of items, each of which accepts a piece
of text. Characters are code points, so a pattern may name one that no text can
hold.
-/

namespace TaskShell.Pattern

inductive Category where
  | digit
  | notDigit
  | space
  | notSpace
  | word
  | notWord
  deriving DecidableEq, Repr

inductive Member where
  | literal (code : Nat)
  | range (low high : Nat)
  | category (c : Category)
  deriving DecidableEq, Repr

inductive Anchor where
  | beginning
  | ending
  | textStart
  | textEnd
  | boundary
  | notBoundary
  deriving DecidableEq, Repr

inductive Greed where
  | greedy
  | lazy
  | possessive
  deriving DecidableEq, Repr

inductive Item where
  | literal (code : Nat)
  | notLiteral (code : Nat)
  | any
  | set (negated : Bool) (members : List Member)
  | anchor (place : Anchor)
  | branch (alternatives : List (List Item))
  /-- A group, with its number if it captures, and the flags it turns on and
  off. -/
  | group (number : Option Nat) (on off : Nat) (body : List Item)
  | atomic (body : List Item)
  /-- A repetition; a missing upper bound is no bound. -/
  | repetition (greed : Greed) (low : Nat) (high : Option Nat)
      (body : List Item)
  | reference (number : Nat)
  | condition (number : Nat) (yes : List Item) (no : Option (List Item))
  /-- A look at what follows or precedes, which holds or does not. -/
  | look (ahead holds : Bool) (body : List Item)
  | failure
  deriving Repr, Inhabited

namespace Flag

/-- The retired flag, which has no effect on a search. -/
def template : Nat := 1
def ignoreCase : Nat := 2
/-- Classes follow the locale; never allowed in a text pattern. -/
def locale : Nat := 4
def multiline : Nat := 8
def dotAll : Nat := 16
def unicode : Nat := 32
def verbose : Nat := 64
def ascii : Nat := 256

/-- The flags that choose the character classes. -/
def types : Nat := ascii ||| locale ||| unicode

def has (flags bits : Nat) : Bool :=
  flags &&& bits != 0

end Flag

/-- The points on which the two readings of patterns differ. -/
structure Dialect where
  /-- Whether `\z` marks the end of the text. -/
  endMark : Bool
  /-- Whether the retired flag is known. -/
  templateFlag : Bool
  /-- Whether a refused look at nothing is written as a failure. -/
  plainFailure : Bool
  /-- Whether a group number may be any readable integer. -/
  looseNumbers : Bool

/-- The reading used to show the form of a pattern. -/
def Dialect.forms : Dialect := ⟨true, false, true, false⟩

def Dialect.search : Dialect := ⟨false, true, false, true⟩

/-- The width that stands for any greater one. -/
def maxWidth : Nat := Nat.pow 2 64

/-- The bound that repetition counts must stay below. -/
def maxRepeat : Nat := 4294967295

/-- The bound that group numbers must stay below. -/
def maxGroups : Nat := 1073741823

structure Width where
  least : Nat
  greatest : Nat
  deriving DecidableEq, Repr

namespace Width

def none_ : Width := ⟨0, 0⟩

def one : Width := ⟨1, 1⟩

def add (a b : Width) : Width := ⟨a.least + b.least, a.greatest + b.greatest⟩

def either (a b : Width) : Width :=
  ⟨min a.least b.least, max a.greatest b.greatest⟩

def cut (a : Width) : Width := ⟨min a.least maxWidth, min a.greatest maxWidth⟩

end Width

mutual

def itemWidth (groups : List (Option Width)) : Item → Width
  | .literal _ | .notLiteral _ | .any | .set _ _ => .one
  | .anchor _ | .look _ _ _ | .failure => .none_
  | .branch alternatives => branchWidth groups alternatives
  | .group _ _ _ body => (width groups body).cut
  | .atomic body => (width groups body).cut
  | .repetition _ low high body =>
    let w := (width groups body).cut
    let top := match high with
      | none => if w.greatest == 0 then 0 else maxWidth
      | some n => w.greatest * n
    ⟨w.least * low, top⟩
  | .reference number => ((groups[number]?).join).getD .none_
  | .condition _ yes no =>
    let y := (width groups yes).cut
    match no with
    | some items => y.either (width groups items).cut
    | none => ⟨0, y.greatest⟩

def branchWidth (groups : List (Option Width)) : List (List Item) → Width
  | [] => ⟨maxWidth, 0⟩
  | items :: rest => (width groups items).cut.either (branchWidth groups rest)

def width (groups : List (Option Width)) : List Item → Width
  | [] => .none_
  | item :: rest => (itemWidth groups item).add (width groups rest)

end

/-- Whether two items are the same piece of pattern; items with parts of their
own never count as same. -/
def Item.same : Item → Item → Bool
  | .literal a, .literal b => a == b
  | .notLiteral a, .notLiteral b => a == b
  | .any, .any => true
  | .set n a, .set m b => n == m && a == b
  | .anchor a, .anchor b => a == b
  | .reference a, .reference b => a == b
  | .failure, .failure => true
  | _, _ => false

end TaskShell.Pattern

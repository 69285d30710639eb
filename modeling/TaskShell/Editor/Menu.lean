import TaskShell.Editor.Document

/-!
# Completions and their menu

A completion replaces some characters before the cursor. The menu shows the
completions of a document; one of them may be chosen, and then the document is
shown as it would become.
-/

namespace TaskShell.Editor

/-- A completion: a text and the number of characters before the cursor that it
replaces. -/
structure Completion where
  text : String
  back : Nat
  deriving DecidableEq, Repr

namespace Completion

def apply (c : Completion) (d : Document) : Document :=
  let before := d.before.take (d.before.length - c.back)
  let new := before ++ c.text.toList
  ⟨new ++ d.after, new.length⟩

/-- Whether the completion only repeats what stands before the cursor. -/
def isIdle (c : Completion) (d : Document) : Bool :=
  d.before.drop (d.before.length - c.back) == c.text.toList

/-- Whether the completion keeps the characters that it replaces. -/
def extends_ (c : Completion) (d : Document) : Bool :=
  (c.text.toList.take c.back).isSuffixOf d.before

def addition (c : Completion) : List Char := c.text.toList.drop c.back

/-- The completion after some characters of it were put in. -/
def rest (c : Completion) (count : Nat) : Completion :=
  ⟨String.ofList (c.text.toList.drop (count + c.back)), 0⟩

end Completion

def sharedStart : List Char → List Char → List Char
  | a :: as, b :: bs => if a == b then a :: sharedStart as bs else []
  | _, _ => []

/-- The characters that all completions add, if none of them changes what stands
before the cursor. -/
def commonAddition (d : Document) (items : List Completion) : List Char :=
  if items.all (·.extends_ d) then
    match items.map Completion.addition with
    | [] => []
    | first :: more => more.foldl sharedStart first
  else []

/-- A menu of completions: the document they belong to and the one that is
chosen. -/
structure Menu where
  document : Document
  items : List Completion
  chosen : Option Nat
  deriving DecidableEq, Repr

namespace Menu

def shown (m : Menu) : Document :=
  match m.chosen.bind (m.items[·]?) with
  | some c => c.apply m.document
  | none => m.document

/-- The choice after the current one. After the last completion comes the
document as it was. -/
def next (m : Menu) (count : Int) : Option Nat :=
  match m.chosen with
  | none => some 0
  | some i =>
    if i + 1 == m.items.length then none
    else some (min ((m.items.length : Int) - 1) (i + count)).toNat

/-- The choice before the current one. Before the first completion comes the
document as it was. -/
def previous (m : Menu) (count : Int) : Option Nat :=
  match m.chosen with
  | some 0 => none
  | none => some (m.items.length - 1)
  | some i => some (max 0 ((i : Int) - count)).toNat

end Menu

end TaskShell.Editor

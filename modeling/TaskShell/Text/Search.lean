/-!
# Finding and replacing

Occurrences of one text in another, by code point.
-/

namespace TaskShell.Text

/-- What follows `pat` at the start of `cs`, if `cs` starts with it. -/
def afterStart? : List Char → List Char → Option (List Char)
  | [], cs => some cs
  | _ :: _, [] => none
  | p :: ps, c :: cs => if p == c then afterStart? ps cs else none

/-- The number of characters before the first occurrence of `pat`. -/
def indexOf? (pat : List Char) : List Char → Option Nat
  | [] => if pat.isEmpty then some 0 else none
  | c :: cs =>
    if pat.isPrefixOf (c :: cs) then some 0 else (indexOf? pat cs).map (· + 1)

/-- Whether `pat` occurs in `cs`. -/
def occursIn (pat cs : List Char) : Bool :=
  (indexOf? pat cs).isSome

/-- Whether the text `pat` occurs in the text `s`. -/
def contains (s pat : String) : Bool :=
  occursIn pat.toList s.toList

/-- Replaces every occurrence of the nonempty `pat`, from the left and without
overlap; `skip` counts the characters of an occurrence still to be dropped. -/
def replaceFrom (pat new : List Char) : List Char → Nat → List Char
  | [], _ => []
  | _ :: cs, skip + 1 => replaceFrom pat new cs skip
  | c :: cs, 0 =>
    if pat.isPrefixOf (c :: cs) then
      new ++ replaceFrom pat new cs (pat.length - 1)
    else c :: replaceFrom pat new cs 0

def replace (s pat new : String) : String :=
  String.ofList (replaceFrom pat.toList new.toList s.toList 0)

/-- The text before and after the first `sep`. -/
def splitOnce? (sep : Char) : List Char → Option (List Char × List Char)
  | [] => none
  | c :: cs =>
    if c == sep then some ([], cs)
    else (splitOnce? sep cs).map fun (left, right) => (c :: left, right)

/-- The pieces between the occurrences of `sep`; there is one more piece than
occurrences. -/
def splitAll (sep : Char) : List Char → List (List Char)
  | [] => [[]]
  | c :: cs =>
    if c == sep then [] :: splitAll sep cs
    else
      match splitAll sep cs with
      | [] => [[c]]
      | piece :: rest => (c :: piece) :: rest

/-- The pieces of a text between the occurrences of `sep`. -/
def pieces (sep : Char) (s : String) : List String :=
  (splitAll sep s.toList).map String.ofList

def startsWith (s pat : String) : Bool :=
  pat.toList.isPrefixOf s.toList

def endsWith (s pat : String) : Bool :=
  pat.toList.reverse.isPrefixOf s.toList.reverse

/-- The text made of `n` copies of a character. -/
def copies (n : Nat) (c : Char) : String :=
  String.ofList (List.replicate n c)

/-- Pads a text with blanks on the right to `width` characters. -/
def padRight (width : Nat) (s : String) : String :=
  s ++ copies (width - s.length) ' '

/-- Pads a text with `fill` on the left to `width` characters. -/
def padLeft (width : Nat) (fill : Char) (s : String) : String :=
  copies (width - s.length) fill ++ s

/-- The last `n` elements of a list. -/
def lastN {α : Type} (n : Nat) (xs : List α) : List α :=
  xs.drop (xs.length - n)

end TaskShell.Text

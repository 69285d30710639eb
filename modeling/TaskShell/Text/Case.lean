import TaskShell.Text.CaseTable
import TaskShell.Text.CasedTable
import TaskShell.Text.NameTable

/-!
# Classes and case of characters

Character classes and case mappings over the whole of Unicode. Upper, lower and
title case may turn one character into several, and a capital sigma at the end
of a word has its own small form.
-/

namespace TaskShell.Text

/-- Whether a character is part of a word: a letter, a digit, a numeric sign or
the low line. -/
def isWordChar (c : Char) : Bool :=
  isWordCode c.toNat

def isPrintable (c : Char) : Bool :=
  isPrintCode c.toNat

def isNameStart (c : Char) : Bool :=
  nameStartRanges.has c.toNat

def isNameRest (c : Char) : Bool :=
  isNameCode c.toNat

def isName : List Char → Bool
  | [] => false
  | c :: cs => isNameStart c && cs.all isNameRest

def digitValue? (c : Char) : Option Nat :=
  let n := c.toNat
  (digitZeros.find? fun start => start ≤ n && n ≤ start + 9).map (n - ·)

def isDecimal (c : Char) : Bool :=
  (digitValue? c).isSome

/-- Maps one character by a table of several characters, or else by rows. -/
def mapCase (long : List (Nat × List Nat)) (rows : List CaseRow)
    (c : Char) : List Char :=
  match long.lookup c.toNat with
  | some codes => codes.map Char.ofNat
  | none => [Char.ofNat (CaseRow.apply rows c.toNat)]

def upperOf (c : Char) : List Char :=
  mapCase upperLong upperRows c

def lowerOf (c : Char) : List Char :=
  mapCase lowerLong lowerRows c

def titleOf (c : Char) : List Char :=
  mapCase titleLong titleRows c

/-- The one-character lower case that pattern matching compares by. -/
def foldOf (c : Char) : Char :=
  if c.toNat == 0x130 then 'i' else Char.ofNat (CaseRow.apply lowerRows c.toNat)

def nextCased (cs : List Char) : Bool :=
  match cs.dropWhile fun c => caseIgnorableRanges.has c.toNat with
  | [] => false
  | c :: _ => finalCasedRanges.has c.toNat

def capitalSigma : Char := Char.ofNat 0x3A3

/-- The small form of a capital sigma between `before`, nearest character first,
and `after`. -/
def smallSigma (before after : List Char) : Char :=
  if nextCased before && !nextCased after then Char.ofNat 0x3C2
  else Char.ofNat 0x3C3

/-- Lower case of a text; `before` holds what stands before it, nearest
character first. -/
def lowerFrom : List Char → List Char → List Char
  | _, [] => []
  | before, c :: cs =>
    (if c == capitalSigma then [smallSigma before cs] else lowerOf c) ++
      lowerFrom (c :: before) cs

def lower (s : String) : String :=
  String.ofList (lowerFrom [] s.toList)

def upper (s : String) : String :=
  String.ofList (s.toList.flatMap upperOf)

/-- Title case of a text: a letter after a letter is small, every other one is
titled. -/
def titleFrom : List Char → Bool → List Char → List Char
  | _, _, [] => []
  | before, inWord, c :: cs =>
    (if !inWord then titleOf c
      else if c == capitalSigma then [smallSigma before cs]
      else lowerOf c)
      ++ titleFrom (c :: before) (isCasedCode c.toNat) cs

def title (s : String) : String :=
  String.ofList (titleFrom [] false s.toList)

end TaskShell.Text

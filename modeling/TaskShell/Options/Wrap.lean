import TaskShell.Text.Case
import TaskShell.Text.Search
import TaskShell.Text.Lines

/-!
# Wrapping help texts

Breaks a text into lines of a bounded width. Lines break at blanks, after the
hyphen of a compound word and around dashes; a word that is too long for a line
is cut.
-/

namespace TaskShell.Options

open Text

def isAsciiBlank (c : Char) : Bool :=
  [' ', '\t', '\n', '\r', '\x0b', '\x0c'].contains c

/-- The text with every run of blanks turned into one space, and none at the
ends. -/
def squeeze (s : String) : String :=
  let runs := (s.toList.splitBy fun a b =>
      isAsciiBlank a == isAsciiBlank b).map fun run =>
    if run.head?.any isAsciiBlank then [' '] else run
  String.ofList (trimOfSpaces runs.flatten)
where
  trimOfSpaces (cs : List Char) : List Char :=
    ((cs.dropWhile (· == ' ')).reverse.dropWhile (· == ' ')).reverse

def isLetter (c : Char) : Bool :=
  isWordChar c && !isDecimal c

def isBeforeDash (c : Char) : Bool :=
  isWordChar c || ['!', '"', '\'', '&', '.', ',', '?'].contains c

def startsDash (cs : List Char) : Bool :=
  let dashes := cs.takeWhile (· == '-')
  dashes.length ≥ 2 && ((cs.drop dashes.length).head?.any isWordChar)

/-- Whether a word may break after the hyphen that comes next; `before` is the
text before it, nearest first. -/
def breaksAtHyphen (before after : List Char) : Bool :=
  let stem := match before with
    | a :: b :: c :: _ =>
      (isLetter a && isLetter b) || (isLetter a && b == '-' && isLetter c)
    | [a, b] => isLetter a && isLetter b
    | _ => false
  let next := match after with
    | a :: '-' :: c :: _ => isLetter a && isLetter c
    | a :: b :: _ => isLetter a && isLetter b
    | _ => false
  stem && next

/-- The length of the piece of a word at the start of a text. `before` is the
text before it, nearest first, and `size` is how much of the piece has been
read. -/
def pieceLength (before : List Char) (size : Nat) : List Char → Nat
  | [] => size
  | c :: rest =>
    if isAsciiBlank c then size
    else if size > 0 && (before.head?.any isBeforeDash) &&
      startsDash (c :: rest) then size
    else if size > 0 && c == '-' && breaksAtHyphen before rest then size + 1
    else pieceLength (c :: before) (size + 1) rest

/-- The pieces of a text between which a line may break. -/
def chunks (before : List Char) : List Char → Nat → List String
  | _, 0 => []
  | [], _ => []
  | c :: rest, fuel + 1 =>
    let size :=
      if isAsciiBlank c then ((c :: rest).takeWhile isAsciiBlank).length
      else if c == '-' && (before.head?.any isBeforeDash) &&
          startsDash (c :: rest) then
        ((c :: rest).takeWhile (· == '-')).length
      else pieceLength before 0 (c :: rest)
    let piece := (c :: rest).take size
    String.ofList piece ::
      chunks (piece.reverse ++ before) ((c :: rest).drop size) fuel

/-- Where a word that is too long is cut to fill `room`. -/
def cutPoint (word : List Char) (room : Nat) : Nat :=
  let head := word.take room
  let afterLast := (head.reverse.takeWhile (· != '-')).length
  if head.contains '-' then
    let hyphen := head.length - afterLast - 1
    if hyphen > 0 && (head.take hyphen).any (· != '-') then hyphen + 1 else room
  else room

def isBlankPiece (s : String) : Bool := s.toList.all isAsciiBlank

/-- Takes pieces as long as they fit into `room`. -/
def takeFitting (room : Nat) : List String → List String × List String
  | [] => ([], [])
  | p :: rest =>
    if p.length ≤ room then
      let (line, left) := takeFitting (room - p.length) rest
      (p :: line, left)
    else ([], p :: rest)

def fill (width : Nat) (started : Bool) : List String → Nat → List String
  | _, 0 => []
  | [], _ => []
  | pieces, fuel + 1 =>
    let pieces :=
      if started && (pieces.head?.any isBlankPiece) then pieces.drop 1
      else pieces
    let (line, left) := takeFitting width pieces
    let used := (line.map String.length).sum
    let (line, left) := match left with
      | p :: rest =>
        if p.length > width then
          let room := if width < 1 then 1 else width - used
          let cut := cutPoint p.toList room
          (line ++ [String.ofList (p.toList.take cut)],
            String.ofList (p.toList.drop cut) :: rest)
        else (line, left)
      | [] => (line, left)
    let line := if line.getLast?.any isBlankPiece then line.dropLast else line
    if line.isEmpty then fill width started left fuel
    else String.join line :: fill width true left fuel

def wrapText (width : Nat) (s : String) : List String :=
  fill width false (chunks [] s.toList (s.length + 1)) (2 * s.length + 2)

end TaskShell.Options

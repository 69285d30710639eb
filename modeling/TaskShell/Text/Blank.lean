/-!
# Blanks and words

Which characters separate words, how text is trimmed of them, and how a line
falls into words. All functions work on lists of characters, so that they can be
reasoned about by induction.
-/

namespace TaskShell.Text

/-- White space in the wide sense: the separators of words over the whole of
Unicode. -/
def isBlank (c : Char) : Bool :=
  let n := c.toNat
  (0x09 ≤ n && n ≤ 0x0D) || (0x1C ≤ n && n ≤ 0x20) || n == 0x85 ||
    n == 0xA0 || n == 0x1680
    || (0x2000 ≤ n && n ≤ 0x200A) || n == 0x2028 || n == 0x2029 ||
      n == 0x202F || n == 0x205F
    || n == 0x3000

/-- Drops the leading characters that satisfy `p`. -/
def trimStart (p : Char → Bool) (cs : List Char) : List Char :=
  cs.dropWhile p

/-- Drops the trailing characters that satisfy `p`. -/
def trimEnd (p : Char → Bool) (cs : List Char) : List Char :=
  (cs.reverse.dropWhile p).reverse

/-- Drops the characters that satisfy `p` at both ends. -/
def trimBy (p : Char → Bool) (cs : List Char) : List Char :=
  trimEnd p (trimStart p cs)

/-- Text without the blanks at both ends: `trimBy` for `isBlank`. -/
def trim (s : String) : String :=
  String.ofList (trimBy isBlank s.toList)

/-- Text without any of the characters `set` at both ends. -/
def trimOf (set : List Char) (s : String) : String :=
  String.ofList (trimBy set.contains s.toList)

/-- Text without any of the characters `set` at its end. -/
def trimEndOf (set : List Char) (s : String) : String :=
  String.ofList (trimEnd set.contains s.toList)

/-- Text without any of the characters `set` at its start. -/
def trimStartOf (set : List Char) (s : String) : String :=
  String.ofList (trimStart set.contains s.toList)

/-- The words of `cs`, where `word` holds the word being read, last character
first. -/
def wordsFrom : List Char → List Char → List (List Char)
  | [], [] => []
  | [], word => [word.reverse]
  | c :: cs, word =>
    if isBlank c then
      match word with
      | [] => wordsFrom cs []
      | _ => word.reverse :: wordsFrom cs []
    else wordsFrom cs (c :: word)

/-- The maximal runs of characters that are not `isBlank`. -/
def wordsOf (cs : List Char) : List (List Char) :=
  wordsFrom cs []

def words (s : String) : List String :=
  (wordsOf s.toList).map String.ofList

end TaskShell.Text

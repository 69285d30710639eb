import TaskShell.Text.Utf8

/-!
# Escapes in program output

The escapes that the output commands of scripts know.
-/

namespace TaskShell.Program

open Text

def isOctal (c : Char) : Bool := '0' ≤ c && c ≤ '7'

def octalByte (cs : List Char) : UInt8 :=
  UInt8.ofNat (cs.foldl (fun n c => n * 8 + (c.toNat - '0'.toNat)) 0)

def escapeByte? : Char → Option UInt8
  | '\\' => some 92
  | 'a' => some 7
  | 'b' => some 8
  | 'f' => some 12
  | 'n' => some 10
  | 'r' => some 13
  | 't' => some 9
  | 'v' => some 11
  | _ => none

/-- The bytes of a text whose escapes are resolved, and whether output ends
there. With `zeroFirst` an octal number may start with one more zero and `\c`
ends the output. -/
def resolveEscapes (zeroFirst : Bool) : List Char → Nat → List UInt8 × Bool
  | _, 0 => ([], false)
  | [], _ => ([], false)
  | '\\' :: c :: rest, fuel + 1 =>
    if zeroFirst && c == 'c' then ([], true)
    else
      match escapeByte? c with
      | some b =>
        let (bytes, stop) := resolveEscapes zeroFirst rest fuel
        (b :: bytes, stop)
      | none =>
        if isOctal c then
          let digits := if zeroFirst && c == '0' && (rest.head?.any isOctal)
            then rest else c :: rest
          let taken := (digits.take 3).takeWhile isOctal
          let (bytes, stop) :=
            resolveEscapes zeroFirst (digits.drop taken.length) fuel
          (octalByte taken :: bytes, stop)
        else
          let (bytes, stop) := resolveEscapes zeroFirst (c :: rest) fuel
          (92 :: bytes, stop)
  | c :: rest, fuel + 1 =>
    let (bytes, stop) := resolveEscapes zeroFirst rest fuel
    (utf8Of [c] ++ bytes, stop)

/-- What the output command writes for its words. -/
def echoBytes (words : List String) : List UInt8 :=
  let (newline, words) := match words with
    | "-n" :: rest => (false, rest)
    | _ => (true, words)
  let text := (" ".intercalate words).toList
  let (bytes, stop) := resolveEscapes true text (text.length + 1)
  if newline && !stop then bytes ++ [10] else bytes

/-- The bytes of a format, whose directives take the words in turn; gives the
words that are left. -/
def formatOnce : List Char → List String → Nat → List UInt8 × List String
  | _, words, 0 => ([], words)
  | [], words, _ => ([], words)
  | '%' :: '%' :: rest, words, fuel + 1 =>
    let (bytes, left) := formatOnce rest words fuel
    (37 :: bytes, left)
  | '%' :: c :: rest, words, fuel + 1 =>
    let word := words.headD (if c == 'd' then "0" else "")
    let here :=
      if c == 'c' then utf8 (String.ofList (word.toList.take 1))
      else if c == 'b' then
        (resolveEscapes true word.toList (word.length + 1)).1
      else utf8 word
    let (bytes, left) := formatOnce rest (words.drop 1) fuel
    (here ++ bytes, left)
  | '\\' :: c :: rest, words, fuel + 1 =>
    let text := '\\' :: c :: rest
    let size := match escapeByte? c with
      | some _ => 2
      | none =>
        if isOctal c then 1 + ((c :: rest).take 3 |>.takeWhile isOctal).length
        else 1
    let (here, _) := resolveEscapes false (text.take size) (size + 1)
    let here := if here.isEmpty then [92] else here
    let (bytes, left) := formatOnce (text.drop size) words fuel
    (here ++ bytes, left)
  | c :: rest, words, fuel + 1 =>
    let (bytes, left) := formatOnce rest words fuel
    (utf8Of [c] ++ bytes, left)

/-- What the formatting command writes: the format is used again while words are
left. -/
def formatBytes (format : String) (words : List String) : Nat → List UInt8
  | 0 => []
  | fuel + 1 =>
    let (bytes, left) := formatOnce format.toList words (format.length + 1)
    if left.isEmpty || left.length == words.length then bytes
    else bytes ++ formatBytes format left fuel

end TaskShell.Program

import TaskShell.Number.Double
import TaskShell.Text.Blank
import TaskShell.Text.Case

/-!
# Reading numbers

Integers and doubles as people type them: blanks around, a sign, digits of any
script, and single low lines between digits.
-/

namespace TaskShell.Number

open Text

/-- The longest run of digits that is turned into an integer or back. -/
def maxDigits : Nat := 4300

inductive IntFault where
  | malformed
  | tooLong (digits : Nat)
  deriving DecidableEq, Repr

/-- Digits with single low lines between them; the list holds the digits'
values. -/
def digitRun : List Char → Option (List Nat)
  | [] => none
  | [c] => (digitValue? c).map ([·])
  | c :: '_' :: rest => do
    let d ← digitValue? c
    let ds ← digitRun rest
    return d :: ds
  | c :: rest => do
    let d ← digitValue? c
    let ds ← digitRun rest
    return d :: ds

def ofDigits (ds : List Nat) : Nat :=
  ds.foldl (fun n d => 10 * n + d) 0

def splitSign : List Char → Bool × List Char
  | '-' :: cs => (true, cs)
  | '+' :: cs => (false, cs)
  | cs => (false, cs)

def readInt (s : String) : Except IntFault Int :=
  let (negative, cs) := splitSign (trimBy isBlank s.toList)
  match digitRun cs with
  | none => .error .malformed
  | some ds =>
    if maxDigits < ds.length then .error (.tooLong ds.length)
    else
      let n : Int := ofDigits ds
      .ok (if negative then -n else n)

/-- Removes the low lines that stand between two digits; any other low line is a
fault. -/
def dropLowLines : List Char → Option (List Char)
  | [] => some []
  | ['_'] => none
  | [c] => some [c]
  | a :: '_' :: c :: rest =>
    if isDecimal a && isDecimal c then
      (dropLowLines (c :: rest)).map (a :: ·)
    else none
  | '_' :: _ => none
  | c :: rest => (dropLowLines rest).map (c :: ·)

def spanDigits (cs : List Char) : List Nat × List Char :=
  ((cs.takeWhile isDecimal).filterMap digitValue?, cs.dropWhile isDecimal)

/-- The exponent at the end of a number: nothing, or `e`, a sign and digits. -/
def readExponent : List Char → Option Int
  | [] => some 0
  | c :: cs =>
    if c == 'e' || c == 'E' then
      let (negative, rest) := splitSign cs
      match spanDigits rest with
      | ([], _) => none
      | (ds, []) =>
        some (if negative then -(ofDigits ds : Int) else ofDigits ds)
      | _ => none
    else none

def readDecimal (negative : Bool) (cs : List Char) : Option Float :=
  let (whole, rest) := spanDigits cs
  let (part, rest) := match rest with
    | '.' :: more => spanDigits more
    | _ => ([], rest)
  if whole.isEmpty && part.isEmpty then none
  else
    (readExponent rest).map fun e =>
      ofDecimal negative (ofDigits (whole ++ part)) (e - part.length)

def readFloat (s : String) : Option Float :=
  let cs := trimBy isBlank s.toList
  let (negative, body) := splitSign cs
  let word := lower (String.ofList body)
  if word == "inf" || word == "infinity" then some (ofParts negative 2047 0)
  else if word == "nan" then some (ofParts negative 2047 (Nat.pow 2 51))
  else do
    let plain ← dropLowLines body
    readDecimal negative plain

end TaskShell.Number

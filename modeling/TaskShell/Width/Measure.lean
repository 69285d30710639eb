import TaskShell.Env
import TaskShell.Number.Reading
import TaskShell.Text.Search
import TaskShell.Width.Table

/-!
# Widths of texts

How many columns of a terminal characters and texts take. Control characters
have no width, and a text with one has none either.
-/

namespace TaskShell.Width

open Text

def versionText (v : List Nat) : String := ".".intercalate (v.map toString)

def precedes : List Int → List Int → Bool
  | _, [] => false
  | [], _ :: _ => true
  | a :: as, b :: bs => a < b || (a == b && precedes as bs)

/-- The numbers of a version text, if it has that form. -/
def readVersion (s : String) : Option (List Int) :=
  (pieces '.' s).mapM fun part =>
    match Number.readInt part with
    | .ok n => some n
    | .error _ => none

def latest : Nat := versions.length - 1

/-- The place of the version nearest to a given one, from the place `i` on,
whose successors are given. -/
def nearestFrom (given : List Int) : Nat → List (List Int) → Nat
  | i, [] => i
  | i, next :: rest =>
    if given == next.take given.length then i + 1
    else if precedes given next then i
    else nearestFrom given (i + 1) rest

/-- The place of the version that a text asks for; one that is no version asks
for the last. -/
def versionOf (env : Env) (s : String) : Nat :=
  let s := if s == "auto" then (env.get? "UNICODE_VERSION").getD "latest" else s
  let known := versions.map fun v => v.map Int.ofNat
  match versions.findIdx? (versionText · == s), readVersion s with
  | some i, _ => i
  | none, none => latest
  | none, some given =>
    if precedes (known.headD []) given then nearestFrom given 0 (known.drop 1)
    else 0

def WidthTable.has (table : WidthTable) (version code : Nat) : Bool :=
  table.since.any (fun (first, ranges) => first ≤ version && ranges.has code) &&
    !table.ended.any fun (last, ranges) => last < version && ranges.has code

def isControl (code : Nat) : Bool :=
  (code != 0 && code < 32) || (0x7F ≤ code && code < 0xA0)

/-- The width of a character; a control character has none. -/
def ofChar (version : Nat) (c : Char) : Option Nat :=
  let code := c.toNat
  if 32 ≤ code && code < 0x7F then some 1
  else if isControl code then none
  else if zeroTable.has version code then some 0
  else if wideTable.has version code then some 2
  else some 1

inductive WidthFault where
  | tooFew
  | notSingle (count : Nat)
  deriving DecidableEq, Repr

def WidthFault.message : WidthFault → String
  | tooFew => "string index out of range"
  | notSingle count =>
    s!"ord() expected a character, but string of length {count} found"

def joiner : Char := '\u200D'

def pictureSign : Char := '\uFE0F'

def pictureVersion : Nat := 10

/-- Measures the next `count` characters. `last` is the last character with a
width that no picture sign followed, and the last argument says that a joiner
stands right before. -/
def measureFrom (version : Nat) :
    Nat → List Char → Option Char → Bool → Except WidthFault (Option Nat)
  | 0, _, _, _ => .ok (some 0)
  | count + 1, rest, last, true =>
    measureFrom version count (rest.drop 1) last false
  | _ + 1, [], _, false => .error .tooFew
  | count + 1, c :: rest, last, false =>
    if c == joiner then measureFrom version count rest last true
    else
      match c == pictureSign, last with
      | true, some l =>
        if pictureVersion ≤ version then
          let more := if presented.has l.toNat then 1 else 0
          (·.map (· + more)) <$> measureFrom version count rest none false
        else measureFrom version count rest last false
      | _, _ =>
        match ofChar version c with
        | none => .ok none
        | some width =>
          let last := if width > 0 then some c else last
          (·.map (· + width)) <$> measureFrom version count rest last false

/-- The width of the first characters of a text, or of all, by `ofChar`; nothing
if there is a control character. -/
def ofText (version : Nat) (count : Option Int) (s : String) :
    Except WidthFault (Option Nat) :=
  measureFrom version (count.getD s.length).toNat s.toList none false

def ofSingle (version : Nat) (s : String) : Except WidthFault (Option Nat) :=
  match s.toList with
  | [] => .ok (some 0)
  | [c] => .ok (ofChar version c)
  | cs => .error (.notSingle cs.length)

end TaskShell.Width

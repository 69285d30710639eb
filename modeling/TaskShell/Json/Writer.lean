import TaskShell.Json.Reader

/-!
# Writing JSON

Documents as JSON text, on one line or indented, with all code points or only
those of ASCII.
-/

namespace TaskShell.Json

open Text Number

structure Layout where
  /-- What each level of nesting is indented by; nothing puts all on one
  line. -/
  indent : Option String
  itemSeparator : String
  keySeparator : String
  ascii : Bool
  sortKeys : Bool
  /-- Whether infinite and undefined numbers are written. -/
  allowSpecial : Bool

/-- One line, with blanks after commas and colons, in ASCII. -/
def Layout.line : Layout := ⟨none, ", ", ": ", true, false, true⟩

/-- Two blanks a level, with all characters. -/
def Layout.pretty : Layout := ⟨some "  ", ",", ": ", false, false, true⟩

def Layout.ofSettings (settings : Args) : Layout :=
  let indent := match settings.get? "indent" with
    | some (.int n) => some (String.ofList (List.replicate n.toNat ' '))
    | some (.bool b) => some (if b then " " else "")
    | some (.text s) => some s
    | _ => none
  let separators := match settings.get? "separators" with
    | some (.list [a, b]) => (a.display, b.display)
    | _ => (if indent.isSome then "," else ", ", ": ")
  let truth (name : String) (fallback : Bool) : Bool :=
    (settings.getD name (.bool fallback)).isTruthy
  ⟨indent, separators.1, separators.2, truth "ensure_ascii" true,
    truth "sort_keys" false, truth "allow_nan" true⟩

def numberFormat : Format :=
  { Format.plain with infinity := "Infinity", undefined := "NaN" }

def charText (ascii : Bool) (c : Char) : List Char :=
  if c == '"' then ['\\', '"']
  else if c == '\\' then ['\\', '\\']
  else if c == '\n' then ['\\', 'n']
  else if c == '\r' then ['\\', 'r']
  else if c == '\t' then ['\\', 't']
  else if c == '\x08' then ['\\', 'b']
  else if c == '\x0c' then ['\\', 'f']
  else
    let n := c.toNat
    if n < 0x20 then unicodeText n
    else if !ascii || n < 0x7F then [c]
    else if n < 0x10000 then unicodeText n
    else unicodeText (0xD800 + (n - 0x10000) / 1024) ++
      unicodeText (0xDC00 + (n - 0x10000) % 1024)

/-- A code point as it stands in a string; a half is escaped only for ASCII. -/
def signText (ascii : Bool) : Sign → List Sign
  | .scalar c => (charText ascii c).map .scalar
  | .half n =>
    if ascii then (unicodeText (Sign.half n).toNat).map .scalar else [.half n]

def stringText (ascii : Bool) (cs : List Sign) : List Sign :=
  .scalar '"' :: cs.flatMap (signText ascii) ++ [.scalar '"']

/-- A line break with the indentation of a level. -/
def newline (l : Layout) (level : Nat) : List Sign :=
  match l.indent with
  | none => []
  | some unit => .scalar '\n' :: (List.replicate level (signs unit)).flatten

mutual

def write (l : Layout) (level : Nat) : Doc → List Sign
  | .null => signs "null"
  | .bool true => signs "true"
  | .bool false => signs "false"
  | .int i => signs (toString i)
  | .float x => signs (numberFormat.write x)
  | .text cs => stringText l.ascii cs
  | .list [] => signs "[]"
  | .list (v :: rest) =>
    .scalar '[' :: newline l (level + 1) ++ write l (level + 1) v ++
      writeItems l (level + 1) rest ++ newline l level ++ [.scalar ']']
  | .record [] => signs "\x7b\x7d"
  | .record ((k, v) :: rest) =>
    .scalar '\x7b' :: newline l (level + 1) ++ stringText l.ascii k ++
      signs l.keySeparator ++
      write l (level + 1) v ++ writeFields l (level + 1) rest ++
        newline l level ++ [.scalar '\x7d']

def writeItems (l : Layout) (level : Nat) : List Doc → List Sign
  | [] => []
  | v :: rest =>
    signs l.itemSeparator ++ newline l level ++ write l level v ++
      writeItems l level rest

def writeFields (l : Layout) (level : Nat) : Fields → List Sign
  | [] => []
  | (k, v) :: rest =>
    signs l.itemSeparator ++ newline l level ++ stringText l.ascii k ++
      signs l.keySeparator ++ write l level v ++ writeFields l level rest

end

mutual

def sorted : Doc → Doc
  | .list items => .list (sortedItems items)
  | .record fields =>
    .record ((sortedFields fields).mergeSort fun a b =>
      a.1.map Sign.toNat ≤ b.1.map Sign.toNat)
  | v => v

def sortedItems : List Doc → List Doc
  | [] => []
  | v :: rest => sorted v :: sortedItems rest

def sortedFields : Fields → Fields
  | [] => []
  | (k, v) :: rest => (k, sorted v) :: sortedFields rest

end

mutual

def special? : Doc → Option Float
  | .float x => if isFinite x then none else some x
  | .list items => specialItem? items
  | .record fields => specialField? fields
  | _ => none

def specialItem? : List Doc → Option Float
  | [] => none
  | v :: rest => (special? v).or (specialItem? rest)

def specialField? : Fields → Option Float
  | [] => none
  | (_, v) :: rest => (special? v).or (specialField? rest)

end

/-- The wording for a number that the layout does not allow. -/
def forbiddenMessage (x : Float) : String :=
  "Out of range float values are not JSON compliant: " ++ floatText x

/-- Writes a document, or returns the number that the layout does not allow. -/
def writeDocument (l : Layout) (v : Doc) : Except Float (List Sign) :=
  let v := if l.sortKeys then sorted v else v
  match l.allowSpecial, special? v with
  | false, some x => .error x
  | _, _ => .ok (write l 0 v)

end TaskShell.Json

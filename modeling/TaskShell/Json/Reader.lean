import TaskShell.Json.Document
import TaskShell.Number.Reading
import TaskShell.Text.Search

/-!
# Reading JSON

A reader of JSON texts that also takes the names of infinite and undefined
numbers. A fault carries its place, given as the number of code points still to
be read. Two wordings of faults are in use: the brief one, and the detailed one,
which shows the offending code point and notices trailing commas.
-/

namespace TaskShell.Json

open Text Number

inductive Wording where
  | brief
  | detailed
  deriving DecidableEq, Repr

inductive Reason where
  | value
  | extraData
  | propertyName
  | colon
  | comma
  | unterminated
  | control (shown : Option Char)
  | escape (shown : Option Sign)
  | unicodeEscape
  | trailingInArray
  | trailingInObject
  | byteOrderMark
  deriving DecidableEq, Repr

def unicodeText (n : Nat) : List Char := '\\' :: 'u' :: hex 4 n

def Sign.quoted : Sign → String
  | scalar c => Text.quoted c.toString
  | half n => "'" ++ String.ofList (unicodeText (half n).toNat) ++ "'"

def Reason.text : Reason → String
  | value => "Expecting value"
  | extraData => "Extra data"
  | propertyName => "Expecting property name enclosed in double quotes"
  | colon => "Expecting ':' delimiter"
  | comma => "Expecting ',' delimiter"
  | unterminated => "Unterminated string starting at"
  | control none => "Invalid control character at"
  | control (some c) =>
    "Invalid control character " ++ quoted c.toString ++ " at"
  | escape none => "Invalid \\escape"
  | escape (some c) => "Invalid \\escape: " ++ c.quoted
  | unicodeEscape => "Invalid \\uXXXX escape"
  | trailingInArray => "Illegal trailing comma before end of array"
  | trailingInObject => "Illegal trailing comma before end of object"
  | byteOrderMark => "Unexpected UTF-8 BOM (decode using utf-8-sig)"

/-- A fault of a text: a reason with its place, or a number with too many
digits. -/
inductive ReadFault where
  /-- `left` characters are left from the place on. -/
  | at_ (reason : Reason) (left : Nat)
  | longInteger (digits : Nat)
  deriving DecidableEq, Repr

def isJsonBlank (c : Sign) : Bool :=
  c == ' ' || c == '\t' || c == '\n' || c == '\r'

def skip (cs : List Sign) : List Sign := cs.dropWhile isJsonBlank

def hexValue? (c : Char) : Option Nat :=
  if '0' ≤ c && c ≤ '9' then some (c.toNat - 48)
  else if 'a' ≤ c && c ≤ 'f' then some (c.toNat - 87)
  else if 'A' ≤ c && c ≤ 'F' then some (c.toNat - 55)
  else none

def hex4? : List Sign → Option (Nat × List Sign)
  | .scalar a :: .scalar b :: .scalar c :: .scalar d :: rest => do
    let a ← hexValue? a
    let b ← hexValue? b
    let c ← hexValue? c
    let d ← hexValue? d
    return (((a * 16 + b) * 16 + c) * 16 + d, rest)
  | _ => none

def escaped? (c : Char) : Option Char :=
  match c with
  | '"' => some '"'
  | '\\' => some '\\'
  | '/' => some '/'
  | 'b' => some '\x08'
  | 'f' => some '\x0c'
  | 'n' => some '\n'
  | 'r' => some '\r'
  | 't' => some '\t'
  | _ => none

def escapedBy? : Sign → Option Char
  | .scalar c => escaped? c
  | .half _ => none

structure Settings where
  wording : Wording
  /-- Whether control characters are refused in strings. -/
  strict : Bool := true

/-- Reads an escape after its `u`: a code point and the rest. The halves of a
pair are put together; a half without the other one stays a half. -/
def unicodeEscape (s : Settings) (cs : List Sign) :
    Except ReadFault (Sign × List Sign) :=
  -- the letter itself counts as still to be read
  let bad (at_ : List Sign) : ReadFault := .at_ .unicodeEscape (at_.length + 1)
  match hex4? cs with
  | none => .error (bad cs)
  | some (n, rest) =>
    if s.wording == .brief && rest.isEmpty then .error (bad cs)
    else if 0xD800 ≤ n && n ≤ 0xDBFF then
      match rest with
      | .scalar '\\' :: .scalar 'u' :: more =>
        if s.wording == .brief && more.length ≤ 4 then .ok (Sign.ofNat n, rest)
        else
          match hex4? more with
          | none => .error (bad more)
          | some (m, rest') =>
            if 0xDC00 ≤ m && m ≤ 0xDFFF then
              .ok (.scalar (Char.ofNat (0x10000 + (n - 0xD800) * 1024 +
                (m - 0xDC00))), rest')
            else .ok (Sign.ofNat n, rest)
      | _ => .ok (Sign.ofNat n, rest)
    else .ok (Sign.ofNat n, rest)

/-- Reads a string after its opening quote; `opened` counts the code points from
that quote on, and `done` holds those of the string so far, last one first. -/
def readString (s : Settings) (opened : Nat) : Nat → List Sign → List Sign →
    Except ReadFault (List Sign × List Sign)
  | 0, _, _ => .error (.at_ .unterminated opened)
  | _ + 1, [], _ => .error (.at_ .unterminated opened)
  | _ + 1, .scalar '"' :: cs, done => .ok (done.reverse, cs)
  | _ + 1, [.scalar '\\'], _ => .error (.at_ .unterminated opened)
  | fuel + 1, .scalar '\\' :: .scalar 'u' :: cs, done => do
    let (c, rest) ← unicodeEscape s cs
    readString s opened fuel rest (c :: done)
  | fuel + 1, .scalar '\\' :: e :: cs, done =>
    match escapedBy? e with
    | some c => readString s opened fuel cs (.scalar c :: done)
    | none =>
      match s.wording with
      | .brief => .error (.at_ (.escape none) (cs.length + 2))
      | .detailed => .error (.at_ (.escape (some e)) (cs.length + 1))
  | fuel + 1, .scalar c :: cs, done =>
    if c.toNat < 0x20 && s.strict then
      match s.wording with
      | .brief => .error (.at_ (.control none) (cs.length + 1))
      | .detailed => .error (.at_ (.control (some c)) cs.length)
    else readString s opened fuel cs (.scalar c :: done)
  | fuel + 1, .half n :: cs, done =>
    readString s opened fuel cs (.half n :: done)

def isAsciiDigit (c : Char) : Bool := '0' ≤ c && c ≤ '9'

/-- The digits of a fraction and the rest, if a point with digits follows. -/
def fraction : List Char → List Char × List Char
  | '.' :: cs =>
    let ds := cs.takeWhile isAsciiDigit
    if ds.isEmpty then ([], '.' :: cs) else (ds, cs.drop ds.length)
  | cs => ([], cs)

def decimal (ds : List Char) : Nat :=
  ofDigits (ds.map fun c => c.toNat - 48)

def exponent? : List Char → Option (Int × List Char)
  | c :: cs =>
    if c == 'e' || c == 'E' then
      let (negative, rest) := splitSign cs
      let ds := rest.takeWhile isAsciiDigit
      if ds.isEmpty then none
      else
        let n : Int := decimal ds
        some (if negative then -n else n, rest.drop ds.length)
    else none
  | [] => none

/-- Reads a number and returns the rest, if one stands at the start. -/
def readNumber (cs : List Char) : Option (Except ReadFault (Doc × List Char)) :=
  let negative := cs.head? == some '-'
  let body := if negative then cs.drop 1 else cs
  let digits := match body with
    | '0' :: _ => ['0']
    | _ => body.takeWhile isAsciiDigit
  if digits.isEmpty then none
  else
    let (part, rest) := fraction (body.drop digits.length)
    match part, exponent? rest with
    | [], none =>
      if maxDigits < digits.length then
        some (.error (.longInteger digits.length))
      else
        let n : Int := decimal digits
        some (.ok (.int (if negative then -n else n), rest))
    | _, none =>
      some (.ok (.float
        (ofDecimal negative (decimal (digits ++ part)) (-part.length)), rest))
    | _, some (e, rest) =>
      some (.ok (.float (ofDecimal negative (decimal (digits ++ part))
        (e - part.length)), rest))

def wordValues : List (String × Doc) :=
  [("null", .null), ("true", .bool true), ("false", .bool false), ("NaN",
    .float (ofParts false 2047 (Nat.pow 2 51))), ("Infinity",
    .float (ofParts false 2047 0)), ("-Infinity", .float (ofParts true 2047 0))]

def readWord (cs : List Char) : Option (Doc × List Char) :=
  wordValues.findSome? fun (word, v) =>
    (afterStart? word.toList cs).map fun rest => (v, rest)

/-- Reads a number or a word of characters, if one stands at the start. -/
def readLeaf (cs : List Char) : Option (Except ReadFault (Doc × List Char)) :=
  match readNumber cs with
  | some outcome => some outcome
  | none => (readWord cs).map .ok

def scalars : List Sign → List Char
  | .scalar c :: rest => c :: scalars rest
  | _ => []

def readPlain (cs : List Sign) : Except ReadFault (Doc × List Sign) :=
  match readLeaf (scalars cs) with
  | some (.ok (v, left)) => .ok (v, cs.drop ((scalars cs).length - left.length))
  | some (.error f) => .error f
  | none => .error (.at_ .value cs.length)

mutual

def readValue (s : Settings) :
    Nat → List Sign → Except ReadFault (Doc × List Sign)
  | 0, cs => .error (.at_ .value cs.length)
  | fuel + 1, cs =>
    match cs with
    | .scalar '"' :: rest => do
      let (text, rest') ← readString s cs.length (rest.length + 1) rest []
      return (.text text, rest')
    | .scalar '\x7b' :: rest =>
      let rest := skip rest
      match rest with
      | .scalar '\x7d' :: rest' => .ok (.record [], rest')
      | _ => do
        let (fields, rest') ← readFields s fuel rest []
        return (.record fields, rest')
    | .scalar '[' :: rest =>
      let rest := skip rest
      match rest with
      | .scalar ']' :: rest' => .ok (.list [], rest')
      | _ => do
        let (items, rest') ← readItems s fuel rest []
        return (.list items, rest')
    | _ => readPlain cs

def readFields (s : Settings) :
    Nat → List Sign → Fields → Except ReadFault (Fields × List Sign)
  | 0, cs, _ => .error (.at_ .value cs.length)
  | fuel + 1, cs, fields =>
    match cs with
    | .scalar '"' :: rest => do
      let (name, rest) ← readString s cs.length (rest.length + 1) rest []
      let rest := skip rest
      match rest with
      | .scalar ':' :: rest =>
        let (v, rest) ← readValue s fuel (skip rest)
        let fields := setField fields name v
        let rest := skip rest
        match rest with
        | .scalar '\x7d' :: rest => return (fields, rest)
        | .scalar ',' :: more =>
          let next := skip more
          if s.wording == .detailed && next.head? == some (.scalar '\x7d') then
            throw (.at_ .trailingInObject rest.length)
          readFields s fuel next fields
        | _ => throw (.at_ .comma rest.length)
      | _ => throw (.at_ .colon rest.length)
    | _ => .error (.at_ .propertyName cs.length)

def readItems (s : Settings) :
    Nat → List Sign → List Doc → Except ReadFault (List Doc × List Sign)
  | 0, cs, _ => .error (.at_ .value cs.length)
  | fuel + 1, cs, items => do
    let (v, rest) ← readValue s fuel cs
    let items := v :: items
    let rest := skip rest
    match rest with
    | .scalar ']' :: rest => return (items.reverse, rest)
    | .scalar ',' :: more =>
      let next := skip more
      if s.wording == .detailed && next.head? == some (.scalar ']') then
        throw (.at_ .trailingInArray rest.length)
      readItems s fuel next items
    | _ => throw (.at_ .comma rest.length)

end

def readDocument (s : Settings) (cs : List Sign) : Except ReadFault Doc := do
  if cs.head? == some (.scalar (Char.ofNat 0xFEFF)) then
    throw (.at_ .byteOrderMark cs.length)
  let (v, rest) ← readValue s (cs.length + 1) (skip cs)
  let rest := skip rest
  if rest.isEmpty then return v else throw (.at_ .extraData rest.length)

def placeText (text : List Sign) (left : Nat) : String :=
  let offset := text.length - left
  let before := text.take offset
  let row := before.count (.scalar '\n') + 1
  let column := (before.reverse.takeWhile (· != .scalar '\n')).length + 1
  s!"line {row} column {column} (char {offset})"

def ReadFault.message (text : List Sign) : ReadFault → String
  | at_ reason left => reason.text ++ ": " ++ placeText text left
  | longInteger digits =>
    s!"Exceeds the limit (4300 digits) for integer string conversion: value has {digits} digits; " ++
      "use sys.set_int_max_str_digits() to increase the limit"

end TaskShell.Json

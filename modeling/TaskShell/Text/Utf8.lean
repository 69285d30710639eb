/-!
# UTF-8

Writing characters as bytes and reading bytes back. Bad input is cut into the
longest beginnings of valid sequences, and a caller decides what stands for each
of them: a replacement character, nothing, or a fault that names the place and
the reason.
-/

namespace TaskShell.Text

def utf8OfChar (c : Char) : List UInt8 :=
  let n := c.toNat
  if n < 0x80 then [n.toUInt8]
  else if n < 0x800 then [(0xC0 + n / 64).toUInt8, (0x80 + n % 64).toUInt8]
  else if n < 0x10000 then
    [(0xE0 + n / 4096).toUInt8, (0x80 + n / 64 % 64).toUInt8,
      (0x80 + n % 64).toUInt8]
  else
    [(0xF0 + n / 262144).toUInt8, (0x80 + n / 4096 % 64).toUInt8,
      (0x80 + n / 64 % 64).toUInt8, (0x80 + n % 64).toUInt8]

def utf8Of (cs : List Char) : List UInt8 :=
  cs.flatMap utf8OfChar

def utf8 (s : String) : List UInt8 :=
  utf8Of s.toList

inductive Utf8Reason where
  | badStart
  | badContinuation
  | truncated
  deriving DecidableEq, Repr

def Utf8Reason.text : Utf8Reason → String
  | .badStart => "invalid start byte"
  | .badContinuation => "invalid continuation byte"
  | .truncated => "unexpected end of data"

/-- One step of reading: a character, or bytes that are none. -/
inductive Utf8Piece where
  | char (c : Char)
  | bad (first : UInt8) (reason : Utf8Reason)
  deriving DecidableEq, Repr

def isContinuation (b : UInt8) : Bool := 0x80 ≤ b && b < 0xC0

def payload (b : UInt8) : Nat := b.toNat % 64

/-- Whether the second byte of a three byte sequence fits the first. -/
def fitsThree (first second : UInt8) : Bool :=
  isContinuation second && (first != 0xE0 || 0xA0 ≤ second) &&
    (first != 0xED || second < 0xA0)

/-- Whether the second byte of a four byte sequence fits the first. -/
def fitsFour (first second : UInt8) : Bool :=
  isContinuation second && (first != 0xF0 || 0x90 ≤ second) &&
    (first != 0xF4 || second < 0x90)

/-- What starts at the byte `b` before `bs`, and how many bytes of `bs` belong
to it. -/
def utf8Piece (b : UInt8) (bs : List UInt8) : Utf8Piece × Nat :=
  let short (n : Nat) : Utf8Piece × Nat := (.bad b .truncated, n)
  let broken (n : Nat) : Utf8Piece × Nat := (.bad b .badContinuation, n)
  if b < 0x80 then (.char (Char.ofNat b.toNat), 0)
  else if b < 0xC2 then (.bad b .badStart, 0)
  else if b < 0xE0 then
    match bs with
    | [] => short 0
    | b1 :: _ =>
      if isContinuation b1 then
        (.char (Char.ofNat (b.toNat % 32 * 64 + payload b1)), 1)
      else broken 0
  else if b < 0xF0 then
    match bs with
    | [] => short 0
    | [b1] => if fitsThree b b1 then short 1 else broken 0
    | b1 :: b2 :: _ =>
      if !fitsThree b b1 then broken 0
      else if isContinuation b2 then
        (.char
          (Char.ofNat (b.toNat % 16 * 4096 + payload b1 * 64 + payload b2)), 2)
      else broken 1
  else if b < 0xF5 then
    match bs with
    | [] => short 0
    | [b1] => if fitsFour b b1 then short 1 else broken 0
    | [b1, b2] =>
      if !fitsFour b b1 then broken 0
      else if isContinuation b2 then short 2 else broken 1
    | b1 :: b2 :: b3 :: _ =>
      if !fitsFour b b1 then broken 0
      else if !isContinuation b2 then broken 1
      else if isContinuation b3 then
        (.char (Char.ofNat
          (b.toNat % 8 * 262144 + payload b1 * 4096 + payload b2 * 64 +
            payload b3)), 3)
      else broken 2
  else (.bad b .badStart, 0)

/-- The pieces of `bs` with the number of bytes each takes; the first `skip`
bytes are already taken. -/
def utf8PiecesFrom : List UInt8 → Nat → List (Utf8Piece × Nat)
  | [], _ => []
  | _ :: bs, skip + 1 => utf8PiecesFrom bs skip
  | b :: bs, 0 =>
    let (piece, extra) := utf8Piece b bs
    (piece, extra + 1) :: utf8PiecesFrom bs extra

/-- The `Utf8Piece`s of some bytes, each with the number of bytes it takes. -/
def utf8Pieces (bs : List UInt8) : List (Utf8Piece × Nat) :=
  utf8PiecesFrom bs 0

def replacement : Char := Char.ofNat 0xFFFD

/-- Reads the `utf8Pieces` of bytes with a replacement character for each bad
one. -/
def decodeReplacing (bs : List UInt8) : List Char :=
  (utf8Pieces bs).map fun
    | (.char c, _) => c
    | (.bad _ _, _) => replacement

def decodeIgnoring (bs : List UInt8) : List Char :=
  (utf8Pieces bs).filterMap fun
    | (.char c, _) => some c
    | (.bad _ _, _) => none

/-- Where and why reading failed: the offset and length of the bad piece and its
first byte. -/
structure Utf8Fault where
  offset : Nat
  size : Nat
  first : UInt8
  reason : Utf8Reason
  deriving DecidableEq, Repr

/-- Reads pieces that must all be characters; `offset` bytes precede them. -/
def strictFrom : List (Utf8Piece × Nat) → Nat → Except Utf8Fault (List Char)
  | [], _ => .ok []
  | (.char c, n) :: rest, offset => (strictFrom rest (offset + n)).map (c :: ·)
  | (.bad first reason, n) :: _, offset => .error ⟨offset, n, first, reason⟩

/-- Reads bytes whose `utf8Pieces` must all be characters. -/
def decodeStrict (bs : List UInt8) : Except Utf8Fault (List Char) :=
  strictFrom (utf8Pieces bs) 0

end TaskShell.Text

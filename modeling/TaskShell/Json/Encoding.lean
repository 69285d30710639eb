import TaskShell.Text.Quoted
import TaskShell.Text.Utf8

/-!
# Encodings of JSON texts

Bytes of a JSON text may be encoded in units of one, two or four bytes. A mark
at the start tells which, or else the places of zero bytes do, as the first
characters of a JSON text are always small.
-/

namespace TaskShell.Json

open Text

/-- An encoding, with the order of the bytes in a unit. -/
inductive Encoding where
  | bytes
  | pairs (bigFirst : Bool)
  | quads (bigFirst : Bool)
  deriving DecidableEq, Repr

def Encoding.name : Encoding → String
  | bytes => "utf-8"
  | pairs true => "utf-16-be"
  | pairs false => "utf-16-le"
  | quads true => "utf-32-be"
  | quads false => "utf-32-le"

/-- The encoding of some bytes, and the length of the mark before them. -/
def Encoding.detect : List UInt8 → Encoding × Nat
  | 0 :: 0 :: 0xFE :: 0xFF :: _ => (.quads true, 4)
  | 0xFF :: 0xFE :: 0 :: 0 :: _ => (.quads false, 4)
  | 0xFE :: 0xFF :: _ => (.pairs true, 2)
  | 0xFF :: 0xFE :: _ => (.pairs false, 2)
  | 0xEF :: 0xBB :: 0xBF :: _ => (.bytes, 3)
  | a :: b :: c :: d :: _ =>
    if a == 0 then (if b == 0 then .quads true else .pairs true, 0)
    else if b == 0 then
      (if c == 0 && d == 0 then .quads false else .pairs false, 0)
    else (.bytes, 0)
  | [a, b] =>
    (if a == 0 then .pairs true else if b == 0 then .pairs false else .bytes, 0)
  | _ => (.bytes, 0)

/-- Bytes that are no text of their encoding. -/
structure DecodeFault where
  encoding : Encoding
  /-- The bytes that are refused, and their place. -/
  found : List UInt8
  offset : Nat
  reason : String
  deriving Repr

def DecodeFault.message (f : DecodeFault) : String :=
  let size := f.found.length
  let first := String.ofList (hex 2 (f.found.headD 0).toNat)
  let place :=
    if size == 1 then s!"byte 0x{first} in position {f.offset}"
    else s!"bytes in position {f.offset}-{f.offset + size - 1}"
  s!"'{f.encoding.name}' codec can't decode {place}: {f.reason}"

def unitOf (bigFirst : Bool) (unit : List UInt8) : Nat :=
  (if bigFirst then unit else unit.reverse).foldl (fun n b =>
    256 * n + b.toNat) 0

/-- Reads units of two bytes; `offset` is the place of the first. -/
def decodePairs (bigFirst : Bool) (offset : Nat) :
    List UInt8 → Except DecodeFault (List Char)
  | [] => .ok []
  | [a] => .error ⟨.pairs bigFirst, [a], offset, "truncated data"⟩
  | a :: b :: c :: d :: rest =>
    let unit := unitOf bigFirst [a, b]
    let next := unitOf bigFirst [c, d]
    if 0xD800 ≤ unit && unit < 0xDC00 then
      if 0xDC00 ≤ next && next < 0xE000 then
        (Char.ofNat (0x10000 + (unit - 0xD800) * 1024 + (next - 0xDC00)) :: ·)
          <$> decodePairs bigFirst (offset + 4) rest
      else .error ⟨.pairs bigFirst, [a, b], offset, "illegal UTF-16 surrogate"⟩
    else if 0xDC00 ≤ unit && unit < 0xE000 then
      .error ⟨.pairs bigFirst, [a, b], offset, "illegal encoding"⟩
    else (Char.ofNat unit :: ·) <$> decodePairs bigFirst (offset + 2)
      (c :: d :: rest)
  | a :: b :: rest =>
    let unit := unitOf bigFirst [a, b]
    if 0xD800 ≤ unit && unit < 0xE000 then
      .error ⟨.pairs bigFirst, a :: b :: rest, offset, "unexpected end of data"⟩
    else (Char.ofNat unit :: ·) <$> decodePairs bigFirst (offset + 2) rest

/-- Reads units of four bytes; `offset` is the place of the first. -/
def decodeQuads (bigFirst : Bool) (offset : Nat) :
    List UInt8 → Except DecodeFault (List Char)
  | [] => .ok []
  | a :: b :: c :: d :: rest =>
    let unit := unitOf bigFirst [a, b, c, d]
    if unit ≥ 0x110000 then
      .error ⟨.quads bigFirst, [a, b, c, d], offset,
        "code point not in range(0x110000)"⟩
    else if 0xD800 ≤ unit && unit < 0xE000 then
      .error ⟨.quads bigFirst, [a, b, c, d], offset,
        "code point in surrogate code point range(0xd800, 0xe000)"⟩
    else (Char.ofNat unit :: ·) <$> decodeQuads bigFirst (offset + 4) rest
  | few => .error ⟨.quads bigFirst, few, offset, "truncated data"⟩

def decodeText (bytes : List UInt8) : Except DecodeFault (List Char) :=
  let (encoding, mark) := Encoding.detect bytes
  let rest := bytes.drop mark
  match encoding with
  | .pairs bigFirst => decodePairs bigFirst mark rest
  | .quads bigFirst => decodeQuads bigFirst mark rest
  | .bytes =>
    match decodeStrict rest with
    | .ok cs => .ok cs
    | .error f =>
      .error ⟨.bytes, (rest.drop f.offset).take f.size, f.offset, f.reason.text⟩

end TaskShell.Json

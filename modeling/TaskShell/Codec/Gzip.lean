import TaskShell.Codec.Inflate
import TaskShell.Text.Quoted

/-!
# Compressed files

A compressed file is a run of members, each with a header, a stream of blocks, a
checksum and a length. Zero bytes between members are skipped.
-/

namespace TaskShell.Codec

/-- One step of `crcOfByte`. -/
def crcStep (c : UInt32) : UInt32 :=
  if c &&& 1 == 1 then (0xEDB88320 : UInt32) ^^^ (c >>> 1) else c >>> 1

def crcOfByte (n : Nat) : UInt32 :=
  (List.range 8).foldl (fun c _ => crcStep c) (UInt32.ofNat n)

def crcTable : Array UInt32 :=
  (Array.range 256).map crcOfByte

def crc32 (bytes : List UInt8) : UInt32 :=
  let all : UInt32 := 0xFFFFFFFF
  all ^^^ bytes.foldl
    (fun (c : UInt32) b =>
      (crcTable.getD ((c ^^^ b.toUInt32) &&& 0xFF).toNat 0) ^^^ (c >>> 8)) all

end TaskShell.Codec

namespace TaskShell.Codec.Gzip

open Text

inductive GzipFault where
  /-- The first two bytes are not the mark of such a file. -/
  | mark (found : List UInt8)
  | method
  | checksum
  | length
  | short
  | stream (fault : Inflate.BlockFault)
  deriving Repr

def GzipFault.message : GzipFault → String
  | mark found => s!"Not a gzipped file ({quotedBytes found})"
  | method => "Unknown compression method"
  | checksum => "CRC check failed"
  | length => "Incorrect length of data produced"
  | short => "Compressed file ended before the end-of-stream marker was reached"
  | stream fault => s!"Error -3 while decompressing data: {fault.message}"

def takeExact (n : Nat) (bytes : List UInt8) :
    Except GzipFault (List UInt8 × List UInt8) :=
  if bytes.length < n then .error .short else .ok (bytes.take n, bytes.drop n)

/-- Skips a text that ends with a zero byte, or with the input. -/
def skipText (bytes : List UInt8) : List UInt8 :=
  (bytes.dropWhile (· != 0)).drop 1

def littleEndian : List UInt8 → Nat
  | [] => 0
  | b :: rest => b.toNat + 256 * littleEndian rest

def toLittleEndian (n : Nat) : Nat → List UInt8
  | 0 => []
  | count + 1 => UInt8.ofNat n :: toLittleEndian (n / 256) count

def skipHeader (bytes : List UInt8) : Except GzipFault (List UInt8) := do
  let found := bytes.take 2
  if found != [0x1F, 0x8B] then throw (.mark found)
  let (fixed, rest) ← takeExact 8 (bytes.drop 2)
  if fixed.head? != some 8 then throw .method
  let flags := (fixed.getD 1 0).toNat
  let rest ←
    if flags &&& 4 != 0 then do
      let (size, rest) ← takeExact 2 rest
      let (_, rest) ← takeExact (littleEndian size) rest
      pure rest
    else pure rest
  let rest := if flags &&& 8 != 0 then skipText rest else rest
  let rest := if flags &&& 16 != 0 then skipText rest else rest
  if flags &&& 2 != 0 then
    let (_, rest) ← takeExact 2 rest
    return rest
  return rest

/-- Reads one member with `inflate`; gives its data and what follows it. -/
def readMember (bytes : List UInt8) :
    Except GzipFault (List UInt8 × List UInt8) := do
  let body ← skipHeader bytes
  match Inflate.inflate body with
  | .error .short => throw .short
  | .error (.bad fault) => throw (.stream fault)
  | .ok (data, rest) =>
    let (trailer, rest) ← takeExact 8 rest
    if littleEndian (trailer.take 4) != (crc32 data).toNat then throw .checksum
    if littleEndian (trailer.drop 4) != data.length % Nat.pow 2 32
      then throw .length
    return (data, rest)

def readMembers (bytes : List UInt8) : Nat → Except GzipFault (List UInt8)
  | 0 => return []
  | fuel + 1 => do
    if bytes.isEmpty then return []
    let (data, rest) ← readMember bytes
    return data ++ (← readMembers (rest.dropWhile (· == 0)) fuel)

def decompress (bytes : List UInt8) : Except GzipFault (List UInt8) :=
  readMembers bytes (bytes.length + 1)

/-- The header of a member without optional fields. -/
def header : List UInt8 :=
  [0x1F, 0x8B, 8, 0, 0, 0, 0, 0, 2, 255]

/-- Writes a compressed file with one member, by `deflate`. -/
def compress (data : List UInt8) : List UInt8 :=
  header ++ Inflate.deflate data ++ toLittleEndian (crc32 data).toNat 4 ++
    toLittleEndian data.length 4

end TaskShell.Codec.Gzip

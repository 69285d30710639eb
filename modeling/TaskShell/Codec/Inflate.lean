/-!
# Compressed blocks

Reads a stream of compressed blocks: blocks stored as they are, blocks with the
fixed code and blocks that bring their own code. Bits are taken from the low end
of each byte.
-/

namespace TaskShell.Codec.Inflate

inductive BlockFault where
  | blockType
  | storedLengths
  | tooManySymbols
  | codeLengthsSet
  | lengthRepeat
  | noEndOfBlock
  | literalSet
  | distanceSet
  | literalCode
  | distanceCode
  | farDistance
  deriving DecidableEq, Repr

def BlockFault.message : BlockFault → String
  | blockType => "invalid block type"
  | storedLengths => "invalid stored block lengths"
  | tooManySymbols => "too many length or distance symbols"
  | codeLengthsSet => "invalid code lengths set"
  | lengthRepeat => "invalid bit length repeat"
  | noEndOfBlock => "invalid code -- missing end-of-block"
  | literalSet => "invalid literal/lengths set"
  | distanceSet => "invalid distances set"
  | literalCode => "invalid literal/length code"
  | distanceCode => "invalid distance code"
  | farDistance => "invalid distance too far back"

inductive Stop where
  /-- The input ended. -/
  | short
  | bad (fault : BlockFault)
  deriving DecidableEq, Repr

/-! ## Bits -/

/-- Unread input: bytes, and how many bits of the first are read already. -/
structure Bits where
  bytes : List UInt8
  used : Nat

abbrev Take := StateT Bits (Except Stop)

def bit : Take Nat := do
  let s ← get
  match s.bytes with
  | [] => throw .short
  | b :: rest =>
    set (if s.used == 7 then Bits.mk rest 0
      else Bits.mk (b :: rest) (s.used + 1))
    return b.toNat / Nat.pow 2 s.used % 2

def bits : Nat → Take Nat
  | 0 => return 0
  | n + 1 => do
    let low ← bit
    return low + 2 * (← bits n)

/-- Skips what is left of a byte that is partly read. -/
def align : Take Unit :=
  modify fun s => if s.used == 0 then s else ⟨s.bytes.tail, 0⟩

def takeBytes (n : Nat) : Take (List UInt8) := do
  let s ← get
  if s.bytes.length < n then throw .short
  set (Bits.mk (s.bytes.drop n) s.used)
  return s.bytes.take n

/-! ## Codes -/

/-- A code for `symbolFrom`: how many code words have each length, and the
symbols in the order of their code words. -/
structure Code where
  counts : Array Nat
  symbols : Array Nat
  longest : Nat

/-- The code of the given lengths, where length zero means no code word. -/
def Code.ofLengths (lengths : List Nat) : Code :=
  let counts :=
    (Array.range 16).map fun n => if n == 0 then 0 else lengths.count n
  let numbered := lengths.zipIdx
  let symbols := (List.range 16).flatMap fun n =>
    if n == 0 then [] else (numbered.filter fun (l, _) => l == n).map (·.2)
  ⟨counts, symbols.toArray, lengths.foldl max 0⟩

/-- How much of the code space is left after the given lengths; negative if they
take too much. -/
def Code.room (code : Code) : Int :=
  (List.range 15).foldl (fun left n => if left < 0 then left
    else left * 2 - (code.counts.getD (n + 1) 0 : Nat)) 1

/-- Whether a code fills its space; `lone` allows a single code word of one
bit. -/
def Code.isComplete (code : Code) (lone : Bool) : Bool :=
  code.longest == 0 || code.room == 0 ||
    (code.room > 0 && lone && code.longest == 1)

/-- Reads a symbol bit by bit; nothing if the bits are no code word. -/
def Code.symbolFrom (code : Code) (word first index length : Nat) :
    Nat → Take (Option Nat)
  | 0 => return none
  | fuel + 1 => do
    let word := word + (← bit)
    let count := code.counts.getD length 0
    if word < first + count then return code.symbols[index + (word - first)]?
    code.symbolFrom (word * 2) ((first + count) * 2) (index + count)
      (length + 1) fuel

def Code.symbol? (code : Code) : Take (Option Nat) :=
  code.symbolFrom 0 0 0 1 (max code.longest 1)

def fixedLiterals : Code :=
  Code.ofLengths (List.replicate 144 8 ++ List.replicate 112 9 ++
    List.replicate 24 7 ++ List.replicate 8 8)

def fixedDistances : Code :=
  Code.ofLengths (List.replicate 32 5)

/-! ## Blocks -/

/-- The least length of a length symbol and how many more bits follow it. -/
def lengthTable : Array (Nat × Nat) :=
  #[(3, 0), (4, 0), (5, 0), (6, 0), (7, 0), (8, 0), (9, 0), (10, 0), (11, 1),
    (13, 1), (15, 1), (17, 1), (19, 2), (23, 2), (27, 2), (31, 2), (35, 3),
    (43, 3), (51, 3), (59, 3), (67, 4), (83, 4), (99, 4), (115, 4), (131, 5),
    (163, 5), (195, 5), (227, 5), (258, 0)]

/-- The least distance of a distance symbol and how many more bits follow it. -/
def distanceTable : Array (Nat × Nat) :=
  #[(1, 0), (2, 0), (3, 0), (4, 0), (5, 1), (7, 1), (9, 2), (13, 2), (17, 3),
    (25, 3), (33, 4), (49, 4), (65, 5), (97, 5), (129, 6), (193, 6), (257, 7),
    (385, 7), (513, 8), (769, 8), (1025, 9), (1537, 9), (2049, 10), (3073, 10),
    (4097, 11), (6145, 11), (8193, 12), (12289, 12), (16385, 13), (24577, 13)]

/-- Appends `count` bytes from `distance` bytes back; later bytes may be ones
just appended. -/
def copyBack (out : Array UInt8) (distance : Nat) : Nat → Array UInt8
  | 0 => out
  | n + 1 => copyBack (out.push (out.getD (out.size - distance) 0)) distance n

def readSymbols (literals distances : Code) (out : Array UInt8) :
    Nat → Take (Array UInt8)
  | 0 => throw .short
  | fuel + 1 => do
    match ← literals.symbol? with
    | none => throw (.bad .literalCode)
    | some s =>
      if s < 256 then
        readSymbols literals distances (out.push (UInt8.ofNat s)) fuel
      else if s == 256 then return out
      else
        match lengthTable[s - 257]? with
        | none => throw (.bad .literalCode)
        | some (base, extra) =>
          let length := base + (← bits extra)
          let found ← distances.symbol?
          match found.bind (distanceTable[·]?) with
          | none => throw (.bad .distanceCode)
          | some (base, extra) =>
            let distance := base + (← bits extra)
            if distance > out.size then throw (.bad .farDistance)
            readSymbols literals distances (copyBack out distance length) fuel

def lengthOrder : List Nat :=
  [16, 17, 18, 0, 8, 7, 9, 6, 10, 5, 11, 4, 12, 3, 13, 2, 14, 1, 15]

/-- Reads `n` lengths of three bits. -/
def readShortLengths : Nat → Take (List Nat)
  | 0 => return []
  | n + 1 => do
    let first ← bits 3
    return first :: (← readShortLengths n)

/-- Reads code lengths until there are `total`; `sofar` has the last one
first. -/
def readLengths (code : Code) (total : Nat) (sofar : List Nat) :
    Nat → Take (List Nat)
  | 0 => return sofar.reverse
  | fuel + 1 => do
    if sofar.length ≥ total then return sofar.reverse
    let s := (← code.symbol?).getD 0
    if s < 16 then return ← readLengths code total (s :: sofar) fuel
    let extra := if s == 16 then 2 else if s == 17 then 3 else 7
    let base := if s == 18 then 11 else 3
    let count := base + (← bits extra)
    if s == 16 && sofar.isEmpty then throw (.bad .lengthRepeat)
    if sofar.length + count > total then throw (.bad .lengthRepeat)
    let length := if s == 16 then sofar.headD 0 else 0
    readLengths code total (List.replicate count length ++ sofar) fuel

def readCodes : Take (Code × Code) := do
  let literals := 257 + (← bits 5)
  let distances := 1 + (← bits 5)
  let short := 4 + (← bits 4)
  if literals > 286 || distances > 30 then throw (.bad .tooManySymbols)
  let given ← readShortLengths short
  let lengths :=
    (List.range 19).map fun i => ((lengthOrder.zip given).lookup i).getD 0
  let code := Code.ofLengths lengths
  if !code.isComplete false then throw (.bad .codeLengthsSet)
  let all ← readLengths code (literals + distances) []
    (literals + distances + 1)
  let first := all.take literals
  if first.getD 256 0 == 0 then throw (.bad .noEndOfBlock)
  let literalCode := Code.ofLengths first
  if !literalCode.isComplete true then throw (.bad .literalSet)
  let distanceCode := Code.ofLengths (all.drop literals)
  if !distanceCode.isComplete true then throw (.bad .distanceSet)
  return (literalCode, distanceCode)

def readStored : Take (List UInt8) := do
  align
  match ← takeBytes 4 with
  | [a, b, c, d] =>
    let length := a.toNat + 256 * b.toNat
    if length + (c.toNat + 256 * d.toNat) != 65535 then
      throw (.bad .storedLengths)
    takeBytes length
  | _ => throw .short

def readBlocks (out : Array UInt8) : Nat → Take (Array UInt8)
  | 0 => throw .short
  | fuel + 1 => do
    let last ← bit
    let kind ← bits 2
    let size := (← get).bytes.length
    let out ← match kind with
      | 0 => do
        let stored ← readStored
        pure (out ++ stored.toArray)
      | 1 => readSymbols fixedLiterals fixedDistances out (8 * size + 8)
      | 2 => do
        let (literals, distances) ← readCodes
        readSymbols literals distances out (8 * size + 8)
      | _ => throw (.bad .blockType)
    if last == 1 then return out
    readBlocks out fuel

/-- Reads a stream; gives the data and the bytes after the stream. -/
def inflate (bytes : List UInt8) : Except Stop (List UInt8 × List UInt8) := do
  let (out, s) ← (readBlocks #[] (8 * bytes.length + 1)).run ⟨bytes, 0⟩
  return (out.toList, if s.used == 0 then s.bytes else s.bytes.tail)

def blockSize : Nat := 65535

def storeBlocks (data : List UInt8) : Nat → List UInt8
  | 0 => []
  | fuel + 1 =>
    let block := data.take blockSize
    let rest := data.drop blockSize
    let n := block.length
    let header : List UInt8 :=
      [if rest.isEmpty then 1 else 0, UInt8.ofNat n, UInt8.ofNat (n / 256),
        UInt8.ofNat (65535 - n), UInt8.ofNat ((65535 - n) / 256)]
    header ++ block ++ (if rest.isEmpty then [] else storeBlocks rest fuel)

def deflate (data : List UInt8) : List UInt8 :=
  storeBlocks data (data.length / blockSize + 1)

end TaskShell.Codec.Inflate

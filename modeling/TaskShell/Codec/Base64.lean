/-!
# Base 64

Bytes written with sixty-four symbols, three bytes in four symbols, and read
back. Reading skips what is no symbol and stops at complete padding; strict
reading refuses anything but symbols and one final padding.
-/

namespace TaskShell.Codec.Base64

def symbol (n : Nat) : UInt8 :=
  if n < 26 then UInt8.ofNat (65 + n)
  else if n < 52 then UInt8.ofNat (97 + (n - 26))
  else if n < 62 then UInt8.ofNat (48 + (n - 52))
  else if n == 62 then 43
  else 47

def value? (b : UInt8) : Option Nat :=
  let n := b.toNat
  if 65 ≤ n && n ≤ 90 then some (n - 65)
  else if 97 ≤ n && n ≤ 122 then some (n - 97 + 26)
  else if 48 ≤ n && n ≤ 57 then some (n - 48 + 52)
  else if n == 43 then some 62
  else if n == 47 then some 63
  else none

def pad : UInt8 := 61

def encode : List UInt8 → List UInt8
  | a :: b :: c :: rest =>
    symbol (a.toNat / 4) :: symbol (a.toNat % 4 * 16 + b.toNat / 16) ::
      symbol (b.toNat % 16 * 4 + c.toNat / 64) ::
        symbol (c.toNat % 64) :: encode rest
  | [a, b] =>
    [symbol (a.toNat / 4), symbol (a.toNat % 4 * 16 + b.toNat / 16),
      symbol (b.toNat % 16 * 4), pad]
  | [a] => [symbol (a.toNat / 4), symbol (a.toNat % 4 * 16), pad, pad]
  | [] => []

inductive Base64Fault where
  | leadingPadding
  | foreignByte
  | brokenPadding
  | afterPadding
  /-- One symbol is left over after so many. -/
  | loneSymbol (count : Nat)
  | missingPadding
  deriving DecidableEq, Repr

def Base64Fault.message : Base64Fault → String
  | leadingPadding => "Leading padding not allowed"
  | foreignByte => "Only base64 data is allowed"
  | brokenPadding => "Discontinuous padding not allowed"
  | afterPadding => "Excess data after padding"
  | loneSymbol count =>
    s!"Invalid base64-encoded string: number of data characters ({count + 1}) " ++
      "cannot be 1 more than a multiple of 4"
  | missingPadding => "Incorrect padding"

/-- The state of `decodeFrom` inside a group of four symbols. -/
structure Group where
  /-- How many symbols of the group have been read. -/
  filled : Nat
  /-- The bits of the last symbol that no byte holds yet. -/
  left : Nat
  pads : Nat
  padded : Bool
  /-- How many symbols complete groups have held. -/
  symbols : Nat

def Group.empty : Group := ⟨0, 0, 0, false, 0⟩

/-- The group after a symbol, and the byte that the symbol completes. -/
def Group.push (g : Group) (v : Nat) : Group × List UInt8 :=
  match g.filled with
  | 0 => ({ g with filled := 1, left := v, pads := 0 }, [])
  | 1 =>
    ({ g with filled := 2, left := v % 16, pads := 0 },
      [UInt8.ofNat (g.left * 4 + v / 16)])
  | 2 =>
    ({ g with filled := 3, left := v % 4, pads := 0 },
      [UInt8.ofNat (g.left * 16 + v / 4)])
  | _ =>
    ({ g with filled := 0, left := 0, pads := 0, symbols := g.symbols + 4 },
      [UInt8.ofNat (g.left * 64 + v)])

def decodeFrom (strict : Bool) (g : Group) :
    List UInt8 → Except Base64Fault (List UInt8)
  | [] =>
    if g.filled == 0 then .ok []
    else if g.filled == 1 then .error (.loneSymbol g.symbols)
    else .error .missingPadding
  | b :: rest =>
    if b == pad then
      let g := { g with padded := true, pads :=
        if g.filled ≥ 2 then g.pads + 1 else g.pads }
      if g.filled ≥ 2 && g.filled + g.pads ≥ 4 then
        if strict && !rest.isEmpty then .error .afterPadding else .ok []
      else decodeFrom strict g rest
    else
      match value? b with
      | none => if strict then .error .foreignByte else decodeFrom strict g rest
      | some v =>
        if strict && g.padded then .error .brokenPadding
        else
          let (g', bytes) := g.push v
          (bytes ++ ·) <$> decodeFrom strict g' rest

def decode (strict : Bool) (bytes : List UInt8) :
    Except Base64Fault (List UInt8) :=
  if strict && bytes.head? == some pad then .error .leadingPadding
  else decodeFrom strict .empty bytes

/-- Puts other signs in place of the last two symbols, if two are given. -/
def useSigns (signs bytes : List UInt8) : List UInt8 :=
  match signs with
  | [plus, slash] =>
    bytes.map fun b => if b == 43 then plus else if b == 47 then slash else b
  | _ => bytes

/-- Puts the last two symbols in place of other signs, if two are given. -/
def dropSigns (signs bytes : List UInt8) : List UInt8 :=
  match signs with
  | [plus, slash] =>
    bytes.map fun b => if b == slash then 47 else if b == plus then 43 else b
  | _ => bytes

inductive InputFault where
  | kind (name : String)
  | foreign
  deriving DecidableEq, Repr

def InputFault.message : InputFault → String
  | kind name =>
    s!"argument should be a bytes-like object or ASCII string, not '{name}'"
  | foreign => "string argument should contain only ASCII characters"

def symbolsOf (s : String) : Except InputFault (List UInt8) :=
  if s.toList.any (fun c => c.toNat > 127) then .error .foreign
  else .ok (s.toList.map fun c => UInt8.ofNat c.toNat)

end TaskShell.Codec.Base64

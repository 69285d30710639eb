import TaskShell.Calc.Fault
import TaskShell.Fault

/-!
# Quantities

Numbers of a calculation: truth values, integers of any size, doubles and
complex numbers. An operation takes the wider of its operands' kinds; integer
division gives a double.
-/

namespace TaskShell.Calc

open Number

inductive Quantity where
  | bool (b : Bool)
  | int (i : Int)
  | float (x : Float)
  | complex (re im : Float)
  deriving Repr, Inhabited

inductive BinaryOp where
  | add
  | sub
  | mul
  | matMul
  | div
  | mod
  | pow
  | shiftLeft
  | shiftRight
  | bitOr
  | bitXor
  | bitAnd
  | floorDiv
  deriving DecidableEq, Repr

inductive UnaryOp where
  | plus
  | minus
  | invert
  | not
  deriving DecidableEq, Repr

def BinaryOp.sign : BinaryOp → String
  | add => "+"
  | sub => "-"
  | mul => "*"
  | matMul => "@"
  | div => "/"
  | mod => "%"
  | pow => "** or pow()"
  | shiftLeft => "<<"
  | shiftRight => ">>"
  | bitOr => "|"
  | bitXor => "^"
  | bitAnd => "&"
  | floorDiv => "//"

namespace Quantity

def kind : Quantity → String
  | bool _ => "bool"
  | int _ => "int"
  | float _ => "float"
  | complex _ _ => "complex"

def int? : Quantity → Option Int
  | bool b => some (if b then 1 else 0)
  | int i => some i
  | _ => none

/-- Doubles in a complex number are written without a point if they are
whole. -/
def partFormat : Format := { Format.plain with whole := "" }

def complexText (re im : Float) : String :=
  let imaginary := partFormat.write im
  if re == 0 && !signBit re then imaginary ++ "j"
  else
    let sign := if signBit im && !isNaN im then "" else "+"
    s!"({partFormat.write re}{sign}{imaginary}j)"

/-- The text of a number; an integer with too many digits has none. -/
def text : Quantity → Except CalcFault String
  | bool true => .ok "True"
  | bool false => .ok "False"
  | int i =>
    if i.natAbs ≥ Nat.pow 10 4300 then
      .error (.value ValueFault.hugeInteger.message)
    else .ok (toString i)
  | float x => .ok (floatText x)
  | complex re im => .ok (complexText re im)

/-! ## Doubles -/

def floatOfInt (i : Int) : Except CalcFault Float :=
  let x := ofInt i
  if isInfinite x then
    .error (.overflow "int too large to convert to float")
  else .ok x

def isOddFloat (x : Float) : Bool :=
  isFinite x && x == x.floor && (truncate x) % 2 != 0

/-- A zero or infinity with the sign of another double. -/
def withSign (x : Float) (like : Float) : Float :=
  if signBit x == signBit like then x else -x

def floatMod (x y : Float) : Except CalcFault Float :=
  if y == 0 then .error (.zeroDivision "float modulo")
  else
    let m := remainder x y
    if m == 0 then .ok (withSign 0.0 y)
    else if (y < 0) != (m < 0) then .ok (m + y)
    else .ok m

def floatFloorDiv (x y : Float) : Except CalcFault Float :=
  if y == 0 then .error (.zeroDivision "float floor division by zero")
  else
    let m := remainder x y
    let q := (x - m) / y
    let q := if m != 0 && (y < 0) != (m < 0) then q - 1.0 else q
    if q == 0 then .ok (withSign 0.0 (x / y))
    else
      let f := q.floor
      .ok (if q - f > 0.5 then f + 1.0 else f)

def complexMul (a b : Float × Float) : Float × Float :=
  (a.1 * b.1 - a.2 * b.2, a.1 * b.2 + a.2 * b.1)

def complexDiv (a b : Float × Float) : Except CalcFault (Float × Float) :=
  let (c, d) := b
  if c.abs ≥ d.abs then
    if c == 0 then .error (.zeroDivision "complex division by zero")
    else
      let ratio := d / c
      let denom := c + d * ratio
      .ok ((a.1 + a.2 * ratio) / denom, (a.2 - a.1 * ratio) / denom)
  else if d.abs ≥ c.abs then
    let ratio := c / d
    let denom := c * ratio + d
    .ok ((a.1 * ratio + a.2) / denom, (a.2 * ratio - a.1) / denom)
  else
    let undefined : Float := 0.0 / 0.0
    .ok (undefined, undefined)

/-- A complex number multiplied with itself, by squaring. -/
def complexPower (x r : Float × Float) : Nat → Nat → Float × Float
  | _, 0 => r
  | n, fuel + 1 =>
    if n == 0 then r
    else complexPower (complexMul x x) (if n % 2 == 1 then complexMul r x
      else r) (n / 2) fuel

def complexAbs (a : Float × Float) : Float :=
  let big := max a.1.abs a.2.abs
  if big == 0 || isInfinite big then big
  else
    -- exact squares, then one rounding of the root
    let x := Dyadic.ofFloat a.1
    let y := Dyadic.ofFloat a.2
    let e := min x.exponent y.exponent
    let m := x.mantissa * Nat.pow 2 (x.exponent - e).toNat
    let n := y.mantissa * Nat.pow 2 (y.exponent - e).toNat
    rootOf (m * m + n * n) e
where
  /-- The root of an integer, rounded down, by steps from above. -/
  rootFrom (n x : Nat) : Nat → Nat
    | 0 => x
    | fuel + 1 =>
      let y := (x + n / x) / 2
      if y < x then rootFrom n y fuel else x
  /-- The double nearest to the root of `n` times a power of two. -/
  rootOf (n : Nat) (e : Int) : Float :=
    let shift : Nat := 120
    let big := n * Nat.pow 2 (2 * shift)
    let root := rootFrom big (Nat.pow 2 (big.log2 / 2 + 1)) (big.log2 + 2)
    let sticky := if root * root == big then 2 * root else 2 * root + 1
    let e := e - shift - 1
    if e ≥ 0 then ofRatio false (sticky * Nat.pow 2 e.toNat) 1
    else ofRatio false sticky (Nat.pow 2 (-e).toNat)

def complexPow (a b : Float × Float) : Except CalcFault Quantity := do
  let (re, im) ←
    if b.2 == 0 && b.1 == b.1.floor && b.1.abs ≤ 100 then
      let n := (truncate b.1).natAbs
      let p := complexPower a (1, 0) n 8
      if b.1 > 0 then pure p
      else
        match complexDiv (1, 0) p with
        | .ok q => pure q
        | .error _ => throw (.zeroDivision "0.0 to a negative or complex power")
    else if a.1 == 0 && a.2 == 0 then
      if b.2 != 0 || b.1 < 0 then
        throw (.zeroDivision "0.0 to a negative or complex power")
      else pure (0, 0)
    else
      let size := complexAbs a
      let angle := Float.atan2 a.2 a.1
      let length := Float.pow size b.1
      let phase := angle * b.1
      let length :=
        if b.2 == 0 then length else length * Float.exp (-angle * b.2)
      let phase := if b.2 == 0 then phase else phase + b.2 * Float.log size
      pure (length * Float.cos phase, length * Float.sin phase)
  if isInfinite re || isInfinite im then
    throw (.overflow "complex exponentiation")
  return .complex re im

def floatPow (x y : Float) : Except CalcFault Quantity :=
  let infinite : Float := 1.0 / 0.0
  if y == 0 then .ok (.float 1)
  else if isNaN x then .ok (.float x)
  else if isNaN y then .ok (.float (if x == 1 then 1 else y))
  else if isInfinite y then
    if x.abs == 1 then .ok (.float 1)
    else .ok (.float (if (y > 0) == (x.abs > 1) then infinite else 0))
  else if isInfinite x then
    if y > 0 then .ok (.float (if isOddFloat y then x else x.abs))
    else .ok (.float (if isOddFloat y then withSign 0.0 x else 0))
  else if x == 0 then
    if y < 0 then
      .error (.zeroDivision "0.0 cannot be raised to a negative power")
    else .ok (.float (if isOddFloat y then x else 0))
  else if x < 0 && y != y.floor then complexPow (x, 0) (y, 0)
  else
    let negative := x < 0 && isOddFloat y
    let p := if x.abs == 1 then 1 else Float.pow x.abs y
    if isInfinite p then
      .error (.overflow "(34, 'Numerical result out of range')")
    else .ok (.float (if negative then -p else p))

/-! ## Operations -/

def refuse (op : BinaryOp) (a b : Quantity) : Except CalcFault Quantity :=
  .error (.kind
    s!"unsupported operand type(s) for {op.sign}: '{a.kind}' and '{b.kind}'")

def shift (a b : Int) (left : Bool) : Except CalcFault Quantity :=
  if b < 0 then .error (.value "negative shift count")
  else if left then .ok (.int (a * Nat.pow 2 b.toNat))
  else .ok (.int (a.fdiv (Nat.pow 2 b.toNat)))

def bitwise (f : Bool → Bool → Bool) (a b : Int) : Int :=
  let size := max a.natAbs.log2 b.natAbs.log2 + 2
  let bit := fun (n : Int) (i : Nat) => n.fdiv (Nat.pow 2 i) % 2 == 1
  let value : Int := (List.range size).foldl
    (fun sum i => if f (bit a i) (bit b i) then sum + Nat.pow 2 i else sum) 0
  if f (a < 0) (b < 0) then value - Nat.pow 2 size else value

def applyInt (op : BinaryOp) (a b : Int) : Except CalcFault Quantity :=
  match op with
  | .add => .ok (.int (a + b))
  | .sub => .ok (.int (a - b))
  | .mul => .ok (.int (a * b))
  | .matMul => refuse op (.int a) (.int b)
  | .div =>
    if b == 0 then .error (.zeroDivision "division by zero")
    else
      let x := ofRatio ((a < 0) != (b < 0) && a != 0) a.natAbs b.natAbs
      if isInfinite x then
        .error (.overflow "integer division result too large for a float")
      else .ok (.float x)
  | .floorDiv =>
    if b == 0 then .error (.zeroDivision "integer division or modulo by zero")
    else .ok (.int (a.fdiv b))
  | .mod =>
    if b == 0 then .error (.zeroDivision "integer modulo by zero")
    else .ok (.int (a.fmod b))
  | .pow =>
    if b < 0 then do floatPow (← floatOfInt a) (← floatOfInt b)
    else .ok (.int (Int.pow a b.toNat))
  | .shiftLeft => shift a b true
  | .shiftRight => shift a b false
  | .bitOr => .ok (.int (bitwise (· || ·) a b))
  | .bitXor => .ok (.int (bitwise (· != ·) a b))
  | .bitAnd => .ok (.int (bitwise (· && ·) a b))

/-- An operation on doubles; `a` and `b` are the operands as they were given. -/
def applyFloat (op : BinaryOp) (a b : Quantity) (x y : Float) :
    Except CalcFault Quantity :=
  match op with
  | .add => .ok (.float (x + y))
  | .sub => .ok (.float (x - y))
  | .mul => .ok (.float (x * y))
  | .div => if y == 0 then .error (.zeroDivision "float division by zero")
      else .ok (.float (x / y))
  | .floorDiv => (floatFloorDiv x y).map .float
  | .mod => (floatMod x y).map .float
  | .pow => floatPow x y
  | _ => refuse op a b

/-- An operation on complex numbers; `a` and `b` are the operands as they were
given. -/
def applyComplex (op : BinaryOp) (a b : Quantity) (x y : Float × Float) :
    Except CalcFault Quantity :=
  match op with
  | .add => .ok (.complex (x.1 + y.1) (x.2 + y.2))
  | .sub => .ok (.complex (x.1 - y.1) (x.2 - y.2))
  | .mul =>
    let (re, im) := complexMul x y
    .ok (.complex re im)
  | .div => (complexDiv x y).map fun (re, im) => .complex re im
  | .pow => complexPow x y
  | _ => refuse op a b

def toFloat : Quantity → Except CalcFault Float
  | bool b => .ok (if b then 1 else 0)
  | int i => floatOfInt i
  | float x => .ok x
  | complex re _ => .ok re

def toComplex : Quantity → Except CalcFault (Float × Float)
  | complex re im => .ok (re, im)
  | q => q.toFloat.map fun x => (x, 0)

def isComplex : Quantity → Bool
  | complex _ _ => true
  | _ => false

def apply (op : BinaryOp) (a b : Quantity) : Except CalcFault Quantity :=
  match op, a, b with
  | .bitOr, .bool x, .bool y => .ok (.bool (x || y))
  | .bitAnd, .bool x, .bool y => .ok (.bool (x && y))
  | .bitXor, .bool x, .bool y => .ok (.bool (x != y))
  | _, _, _ =>
    match a.int?, b.int? with
    | some i, some j => if op == .matMul then refuse op a b else applyInt op i j
    | _, _ =>
      if a.isComplex || b.isComplex then
        do applyComplex op a b (← a.toComplex) (← b.toComplex)
      else
        match op with
        | .matMul | .shiftLeft | .shiftRight | .bitOr | .bitXor | .bitAnd =>
          refuse op a b
        | _ => do applyFloat op a b (← a.toFloat) (← b.toFloat)

def isTruthy : Quantity → Bool
  | bool b => b
  | int i => i != 0
  | float x => !(x == 0)
  | complex re im => !(re == 0 && im == 0)

def applyUnary (op : UnaryOp) (q : Quantity) : Except CalcFault Quantity :=
  match op, q with
  | .not, _ => .ok (.bool !q.isTruthy)
  | .plus, .bool b => .ok (.int (if b then 1 else 0))
  | .plus, _ => .ok q
  | .minus, .float x => .ok (.float (-x))
  | .minus, .complex re im => .ok (.complex (-re) (-im))
  | .minus, .bool b => .ok (.int (if b then -1 else 0))
  | .minus, .int i => .ok (.int (-i))
  | .invert, .bool b => .ok (.int (if b then -2 else -1))
  | .invert, .int i => .ok (.int (-i - 1))
  | .invert, _ => .error (.kind s!"bad operand type for unary ~: '{q.kind}'")

/-- The order of two numbers that are not complex; nothing if one is
undefined. -/
def compare? (a b : Quantity) : Option Ordering :=
  match a.int?, b.int? with
  | some i, some j => some (Ord.compare i j)
  | some i, none =>
    match b with
    | .float y => compareIntFloat i y
    | _ => none
  | none, some j =>
    match a with
    | .float x => (compareIntFloat j x).map Ordering.swap
    | _ => none
  | none, none =>
    match a, b with
    | .float x, .float y => if x < y then some .lt else if x == y then some .eq
        else if x > y then some .gt else none
    | _, _ => none
where
  /-- The order of an integer and a double, without rounding. -/
  compareIntFloat (i : Int) (x : Float) : Option Ordering :=
    if isNaN x then none
    else if isInfinite x then some (if x > 0 then .lt else .gt)
    else
      let t := truncate x
      if i < t then some .lt
      else if i > t then some .gt
      else
        let rest := x - ofInt t
        some (if rest > 0 then .lt else if rest < 0 then .gt else .eq)

def isEqual (a b : Quantity) : Bool :=
  match a, b with
  | .complex re im, .complex re' im' => re == re' && im == im'
  | .complex re im, q | q, .complex re im =>
    im == 0 && compare? (.float re) q == some .eq
  | _, _ => compare? a b == some .eq

end Quantity

end TaskShell.Calc

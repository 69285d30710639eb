/-!
# Double precision numbers, exactly

A finite double is a signed integer times a power of two. Rounding a quotient to
the nearest double and writing a double with the fewest digits that read back
both work on those integers, with no rounding in between.
-/

namespace TaskShell.Number

/-- The exact value of a finite double: a sign, and `mantissa * 2 ^
exponent`. -/
structure Dyadic where
  negative : Bool
  mantissa : Nat
  exponent : Int
  deriving Repr

def fractionBits (f : Float) : Nat := f.toBits.toNat % Nat.pow 2 52

def exponentBits (f : Float) : Nat := f.toBits.toNat / Nat.pow 2 52 % 2048

def signBit (f : Float) : Bool := f.toBits.toNat / Nat.pow 2 63 == 1

def isFinite (f : Float) : Bool := exponentBits f != 2047

def isNaN (f : Float) : Bool := exponentBits f == 2047 && fractionBits f != 0

def isInfinite (f : Float) : Bool :=
  exponentBits f == 2047 && fractionBits f == 0

def Dyadic.ofFloat (f : Float) : Dyadic :=
  let e := exponentBits f
  if e == 0 then ⟨signBit f, fractionBits f, -1074⟩
  else ⟨signBit f, Nat.pow 2 52 + fractionBits f, (e : Int) - 1075⟩

/-- The double with the given sign, exponent bits and fraction bits. -/
def ofParts (negative : Bool) (e fraction : Nat) : Float :=
  Float.ofBits ((if negative then Nat.pow 2 63 else 0) + e * Nat.pow 2 52 +
    fraction).toUInt64

/-- The quotient rounded to the nearest integer, a tie to the even one. -/
def roundDiv (num den : Nat) : Nat :=
  let q := num / den
  let r := num % den
  if 2 * r < den then q else if den < 2 * r then q + 1 else q + q % 2

/-- The double nearest to `num / den`, a tie to the even one; too large a
quotient is infinite. -/
def ofRatio (negative : Bool) (num den : Nat) : Float :=
  if num == 0 || den == 0 then ofParts negative 0 0
  else
    -- the power of two that leaves 53 bits before the point, or the least one a
    -- double has
    let guess : Int := (num.log2 : Int) - (den.log2 : Int) - 52
    let scale (e : Int) : Nat × Nat :=
      if 0 ≤ e then (num, den * Nat.pow 2 e.toNat)
      else (num * Nat.pow 2 (-e).toNat, den)
    let e0 :=
      if (scale guess).1 / (scale guess).2 < Nat.pow 2 52 then guess - 1
      else guess
    let e := max e0 (-1074)
    let (n, d) := scale e
    let m := roundDiv n d
    let (m, e) := if m == Nat.pow 2 53 then (Nat.pow 2 52, e + 1) else (m, e)
    if m < Nat.pow 2 52 then ofParts negative 0 m
    else if 971 < e then ofParts negative 2047 0
    else ofParts negative (e + 1075).toNat (m - Nat.pow 2 52)

def ofInt (i : Int) : Float := ofRatio (i < 0) i.natAbs 1

/-- The double nearest to `digits * 10 ^ exponent`. -/
def ofDecimal (negative : Bool) (digits : Nat) (exponent : Int) : Float :=
  if digits == 0 then ofParts negative 0 0
  else
    -- the decimal exponent of the leading digit decides the extremes without
    -- large powers
    let top : Int := exponent + (digits.log2 * 30103 / 100000 : Nat)
    if 400 < top then ofParts negative 2047 0
    else if top < -400 then ofParts negative 0 0
    else if 0 ≤ exponent then
      ofRatio negative (digits * Nat.pow 10 exponent.toNat) 1
    else ofRatio negative digits (Nat.pow 10 (-exponent).toNat)

def truncate (f : Float) : Int :=
  let d := Dyadic.ofFloat f
  let n := if 0 ≤ d.exponent then d.mantissa * Nat.pow 2 d.exponent.toNat
    else d.mantissa / Nat.pow 2 (-d.exponent).toNat
  if d.negative then -(n : Int) else n

/-- The remainder of finite doubles with the sign of the first, computed
exactly; `y` is not zero. -/
def remainder (x y : Float) : Float :=
  let a := Dyadic.ofFloat x
  let b := Dyadic.ofFloat y
  let e := min a.exponent b.exponent
  let m := a.mantissa * Nat.pow 2 (a.exponent - e).toNat
  let n := b.mantissa * Nat.pow 2 (b.exponent - e).toNat
  let r := m % n
  if 0 ≤ e then ofRatio a.negative (r * Nat.pow 2 e.toNat) 1
  else ofRatio a.negative r (Nat.pow 2 (-e).toNat)

/-- Digits of a decimal number: the number is `0.d₁d₂… * 10 ^ point`. -/
structure Digits where
  digits : List Nat
  point : Int
  deriving Repr

def digitsOf (n : Nat) : List Nat :=
  (Nat.toDigits 10 n).map fun c => c.toNat - 48

def dropZeros (ds : List Nat) : List Nat :=
  (ds.reverse.dropWhile (· == 0)).reverse

/-- The interval of numbers that read as one double, over a common denominator,
around its value. -/
structure Interval where
  low : Nat
  value : Nat
  high : Nat
  den : Nat
  closed : Bool

/-- The numbers nearest to a positive finite double. -/
def Interval.of (d : Dyadic) : Interval :=
  let half := if d.mantissa == Nat.pow 2 52 && -1074 < d.exponent then 1 else 2
  -- everything in quarters of the last place
  let up := if 0 ≤ d.exponent then Nat.pow 2 d.exponent.toNat else 1
  let den := if 0 ≤ d.exponent then 1 else Nat.pow 2 (-d.exponent).toNat
  ⟨(4 * d.mantissa - half) * up, 4 * d.mantissa * up, (4 * d.mantissa + 2) * up,
    4 * den, d.mantissa % 2 == 0⟩

/-- Whether `n / den` reads as the double of the interval. -/
def Interval.holds (i : Interval) (n den : Nat) : Bool :=
  let x := n * i.den
  let lo := i.low * den
  let hi := i.high * den
  (lo < x && x < hi) || (i.closed && (x == lo || x == hi))

/-- The least `k` with `value < 10 ^ k * den`, searched upwards from `k`. -/
def powerAbove (value den : Nat) : Nat → Int → Int
  | 0, k => k
  | fuel + 1, k =>
    let below := if 0 ≤ k then value < den * Nat.pow 10 k.toNat
      else value * Nat.pow 10 (-k).toNat < den
    if below then k else powerAbove value den fuel (k + 1)

/-- The best decimal with `n` digits before the power `point`, if one reads as
the double. -/
def Interval.atDigits (i : Interval) (point : Int) (n : Nat) : Option Nat :=
  let shift : Int := n - point
  let (num, den) := if 0 ≤ shift then (i.value * Nat.pow 10 shift.toNat, i.den)
    else (i.value, i.den * Nat.pow 10 (-shift).toNat)
  let below := num / den
  let holds (k : Nat) : Bool :=
    if 0 ≤ shift then i.holds k (Nat.pow 10 shift.toNat)
    else i.holds (k * Nat.pow 10 (-shift).toNat) 1
  let near := roundDiv num den
  let far := if near == below then below + 1 else below
  if holds near then some near else if holds far then some far else none

/-- The first digit count, from `n` on, at which a decimal reads as the
double. -/
def Interval.search (i : Interval) (point : Int) : Nat → Nat → Digits
  | 0, _ => ⟨[], point⟩
  | fuel + 1, n =>
    match i.atDigits point n with
    | some k =>
      let ds := digitsOf k
      -- a carry into a new leading digit moves the point
      ⟨dropZeros ds, if n < ds.length then point + 1 else point⟩
    | none => i.search point fuel (n + 1)

/-- The fewest digits that read back as a positive finite double, and of those
the nearest to it. -/
def shortest (f : Float) : Digits :=
  let d := Dyadic.ofFloat f
  let i := Interval.of d
  let guess : Int := ((d.mantissa.log2 : Int) + d.exponent) * 30103 / 100000 - 1
  i.search (powerAbove i.value i.den 4 guess) 17 1

structure Format where
  /-- The least power of the leading digit that is written without an
  exponent. -/
  least : Int
  /-- The greatest power of the leading digit that is written without an
  exponent. -/
  greatest : Int
  infinity : String
  undefined : String
  whole : String

/-- Positional from 1e-4 up to below 1e16, and a point in every number. -/
def Format.plain : Format := ⟨-4, 15, "inf", "nan", ".0"⟩

def digitText (ds : List Nat) : String :=
  String.ofList (ds.map fun d => Char.ofNat (48 + d))

def Format.positive (fmt : Format) (f : Float) : String :=
  let ⟨ds, point⟩ := shortest f
  let power := point - 1
  if fmt.least ≤ power && power ≤ fmt.greatest then
    if point ≤ 0 then
      "0." ++ String.ofList (List.replicate (-point).toNat '0') ++ digitText ds
    else
      let n := point.toNat
      if ds.length ≤ n then
        digitText ds ++
          String.ofList (List.replicate (n - ds.length) '0') ++ fmt.whole
      else digitText (ds.take n) ++ "." ++ digitText (ds.drop n)
  else
    let head := match ds with
      | [] => "0"
      | [d] => digitText [d]
      | d :: rest => digitText [d] ++ "." ++ digitText rest
    let size := power.natAbs
    head ++ "e" ++ (if power < 0 then "-" else "+") ++
      (if size < 10 then "0" else "") ++ toString size

def Format.write (fmt : Format) (f : Float) : String :=
  if isNaN f then fmt.undefined
  else
    let sign := if signBit f then "-" else ""
    if isInfinite f then sign ++ fmt.infinity
    else if fractionBits f == 0 && exponentBits f == 0 then
      sign ++ "0" ++ fmt.whole
    else sign ++ fmt.positive f

def floatText (f : Float) : String := Format.plain.write f

end TaskShell.Number

import TaskShell.Calc.Quantity

/-!
# Functions of the calculator

The named constants and functions that an expression may use.
-/

namespace TaskShell.Calc

open Number Text

/-! ## Data -/

inductive Datum where
  | nothing
  | ellipsis
  | number (q : Quantity)
  | text (s : String)
  | tuple (items : List Datum)
  | list (items : List Datum)
  | function (name : String)
  deriving Repr, Inhabited

namespace Datum

def kind : Datum → String
  | nothing => "NoneType"
  | ellipsis => "ellipsis"
  | number q => q.kind
  | text _ => "str"
  | tuple _ => "tuple"
  | list _ => "list"
  | function _ => "builtin_function_or_method"

def isTruthy : Datum → Bool
  | nothing => false
  | ellipsis => true
  | number q => q.isTruthy
  | text s => !s.isEmpty
  | tuple items => !items.isEmpty
  | list items => !items.isEmpty
  | function _ => true

mutual

def shown : Datum → Except CalcFault String
  | nothing => .ok "None"
  | ellipsis => .ok "Ellipsis"
  | number q => q.text
  | text s => .ok (quoted s)
  | tuple items => do
    return "(" ++ (← shownItems items) ++
      (if items.length == 1 then ",)" else ")")
  | list items => do return "[" ++ (← shownItems items) ++ "]"
  | function name => .ok s!"<built-in function {name}>"

/-- The quoted forms of items (`shown`), with commas between them. -/
def shownItems : List Datum → Except CalcFault String
  | [] => .ok ""
  | [d] => d.shown
  | d :: rest => do return (← d.shown) ++ ", " ++ (← shownItems rest)

end

/-- The plain form of a datum: a text stands for itself. -/
def display : Datum → Except CalcFault String
  | text s => .ok s
  | d => d.shown

mutual

def isEqual : Datum → Datum → Bool
  | nothing, nothing => true
  | ellipsis, ellipsis => true
  | number a, number b => a.isEqual b
  | text a, text b => a == b
  | tuple a, tuple b => areEqual a b
  | list a, list b => areEqual a b
  | function a, function b => a == b
  | _, _ => false

def areEqual : List Datum → List Datum → Bool
  | [], [] => true
  | a :: as, b :: bs => isEqual a b && areEqual as bs
  | _, _ => false

end

/-- The order of two data of the same kind; nothing if they have none. -/
def order? : Datum → Datum → Option Ordering
  | number a, number b =>
    if a.isComplex || b.isComplex then none else some ((a.compare? b).getD .gt)
  | text a, text b => some (Ord.compare a b)
  | _, _ => none

end Datum

/-! ## Functions -/

def pi : Float := 3.141592653589793

def constants : List (String × Float) :=
  [("pi", pi), ("e", 2.718281828459045), ("tau", 6.283185307179586),
    ("inf", 1.0 / 0.0), ("nan", Float.ofBits 0x7FF8000000000000)]

inductive Failure where
  /-- An infinite result is out of range. -/
  | range
  /-- An infinite result means that the argument is outside of the domain. -/
  | domain
  deriving DecidableEq, Repr

def unaryFunctions : List (String × (Float → Float) × Failure) :=
  [("acos", Float.acos, .domain), ("acosh", Float.acosh, .domain),
    ("asin", Float.asin, .domain), ("asinh", Float.asinh, .domain),
    ("atan", Float.atan, .domain), ("atanh", Float.atanh, .domain), ("cbrt",
      Float.cbrt, .domain), ("cos", Float.cos, .domain), ("cosh", Float.cosh,
      .range), ("exp", Float.exp, .range), ("exp2", Float.exp2, .range),
      ("fabs", Float.abs, .domain), ("sin", Float.sin, .domain),
      ("sinh", Float.sinh, .range), ("sqrt", Float.sqrt, .domain),
      ("tan", Float.tan, .domain), ("tanh", Float.tanh, .domain)]

def functionNames : List String :=
  unaryFunctions.map (·.1) ++
  ["atan2", "ceil", "comb", "copysign", "degrees", "dist", "factorial", "floor",
    "fmod", "gcd", "hypot", "isclose", "isfinite", "isinf", "isnan", "isqrt",
    "lcm", "ldexp", "log", "log10", "log2", "modf", "perm", "pow", "prod",
    "radians", "remainder", "trunc", "fsum", "frexp"]

def floatOf (d : Datum) : Except CalcFault Float :=
  match d with
  | .number (.complex _ _) => .error (.kind "must be real number, not complex")
  | .number q => q.toFloat
  | _ => .error (.kind s!"must be real number, not {d.kind}")

def intOf (d : Datum) : Except CalcFault Int :=
  match d with
  | .number q =>
    match q.int? with
    | some i => .ok i
    | none =>
      .error (.kind s!"'{d.kind}' object cannot be interpreted as an integer")
  | _ =>
    .error (.kind s!"'{d.kind}' object cannot be interpreted as an integer")

def one (name : String) (args : List Datum) : Except CalcFault Datum :=
  match args with
  | [d] => .ok d
  | _ =>
    .error
      (.kind s!"math.{name}() takes exactly one argument ({args.length} given)")

def two (name : String) (args : List Datum) :
    Except CalcFault (Datum × Datum) :=
  match args with
  | [a, b] => .ok (a, b)
  | _ => .error (.kind s!"{name} expected 2 arguments, got {args.length}")

def ofFloat (x : Float) : Datum := .number (.float x)

def ofWhole (i : Int) : Datum := .number (.int i)

/-- Applies a function of one double and checks its result; `Failure` says what
an infinite one means. -/
def applyUnary (f : Float → Float) (failure : Failure) (x : Float) :
    Except CalcFault Datum :=
  let y := f x
  if isNaN y && !isNaN x then .error (.value "math domain error")
  else if isInfinite y && isFinite x then
    if failure == .range then .error (.overflow "math range error")
    else .error (.value "math domain error")
  else .ok (ofFloat y)

/-- The logarithm of a positive number in a base given by `f`; huge integers are
scaled. -/
def logOf (f : Float → Float) (d : Datum) : Except CalcFault Float := do
  match d with
  | .number q =>
    match q.int? with
    | some i =>
      if i ≤ 0 then throw (.value "math domain error")
      let x := ofInt i
      if isFinite x then return f x
      let e := i.natAbs.log2
      return f (ofRatio false i.natAbs (Nat.pow 2 e)) + ofInt e * f 2.0
    | none =>
      let x ← floatOf d
      if isNaN x || x > 0 then return f x
      throw (.value "math domain error")
  | _ =>
    let x ← floatOf d
    return f x

/-- A double cut to an integer by `f`. -/
def wholeOf (f : Float → Float) (d : Datum) : Except CalcFault Datum := do
  match d with
  | .number (.int i) => return ofWhole i
  | .number (.bool b) => return ofWhole (if b then 1 else 0)
  | _ =>
    let x ← floatOf d
    if isNaN x then throw (.value "cannot convert float NaN to integer")
    if isInfinite x then
      throw (.overflow "cannot convert float infinity to integer")
    return ofWhole (truncate (f x))

/-- The greatest integer whose square is not above `n`. -/
def intRoot (n : Nat) : Nat :=
  if n == 0 then 0
  else Quantity.complexAbs.rootFrom n (Nat.pow 2 (n.log2 / 2 + 1)) (n.log2 + 2)

def factorial : Nat → Nat
  | 0 => 1
  | n + 1 => (n + 1) * factorial n

/-- The number of ways to choose an ordered selection. -/
def permutations (n k : Nat) : Nat :=
  if k > n then 0 else (List.range k).foldl (fun p i => p * (n - i)) 1

def hypot (xs : List Float) : Float :=
  xs.foldl (fun r x => Quantity.complexAbs (r, x)) 0

/-- A power of doubles that always gives a double. -/
def realPow (x y : Float) : Except CalcFault Datum := do
  let p := Float.pow x y
  if isFinite x && isFinite y then
    if isNaN p then throw (.value "math domain error")
    if isInfinite p then
      if x == 0 then throw (.value "math domain error")
      else throw (.overflow "math range error")
  return ofFloat p

def itemsOf (d : Datum) : Except CalcFault (List Datum) :=
  match d with
  | .list items | .tuple items => .ok items
  | .text s => .ok (s.toList.map fun c => .text (String.singleton c))
  | _ => .error (.kind s!"'{d.kind}' object is not iterable")

def applyFunction (name : String) (args : List Datum) :
    Except CalcFault Datum := do
  match unaryFunctions.lookup name with
  | some (f, failure) =>
    let x ← floatOf (← one name args)
    applyUnary f failure x
  | none =>
    match name with
    | "ceil" => wholeOf Float.ceil (← one name args)
    | "floor" => wholeOf Float.floor (← one name args)
    | "trunc" => wholeOf id (← one name args)
    | "degrees" => return ofFloat ((← floatOf (← one name args)) * (180.0 / pi))
    | "radians" => return ofFloat ((← floatOf (← one name args)) * (pi / 180.0))
    | "isnan" => return .number (.bool (isNaN (← floatOf (← one name args))))
    | "isinf" =>
      return .number (.bool (isInfinite (← floatOf (← one name args))))
    | "isfinite" =>
      return .number (.bool (isFinite (← floatOf (← one name args))))
    | "log10" => return ofFloat (← logOf Float.log10 (← one name args))
    | "log2" => return ofFloat (← logOf Float.log2 (← one name args))
    | "log" =>
      match args with
      | [d] => return ofFloat (← logOf Float.log d)
      | [d, base] =>
        let x ← logOf Float.log d
        let y ← logOf Float.log base
        if y == 0 then throw (.zeroDivision "float division by zero")
        return ofFloat (x / y)
      | [] => throw (.kind "log expected at least 1 argument, got 0")
      | _ =>
        throw (.kind s!"log expected at most 2 arguments, got {args.length}")
    | "factorial" =>
      let i ← intOf (← one name args)
      if i < 0 then throw (.value "factorial() not defined for negative values")
      return ofWhole (factorial i.toNat)
    | "isqrt" =>
      let i ← intOf (← one name args)
      if i < 0 then throw (.value "isqrt() argument must be nonnegative")
      return ofWhole (intRoot i.toNat)
    | "gcd" =>
      let is ← args.mapM intOf
      return ofWhole (is.foldl (fun g i => (Nat.gcd g i.natAbs : Nat)) 0 : Nat)
    | "lcm" =>
      let is ← args.mapM intOf
      return ofWhole (is.foldl (fun g i => (Nat.lcm g i.natAbs : Nat)) 1 : Nat)
    | "hypot" => return ofFloat (hypot (← args.mapM floatOf))
    | "dist" =>
      let (p, q) ← two name args
      let xs ← (← itemsOf p).mapM floatOf
      let ys ← (← itemsOf q).mapM floatOf
      if xs.length != ys.length then
        throw (.value "both points must have the same number of dimensions")
      return ofFloat (hypot (List.zipWith (· - ·) xs ys))
    | "pow" =>
      let (a, b) ← two name args
      realPow (← floatOf a) (← floatOf b)
    | "fmod" =>
      let (a, b) ← two name args
      let x ← floatOf a
      let y ← floatOf b
      if isInfinite y && isFinite x then return ofFloat x
      if (isInfinite x && !isNaN y) || (y == 0 && !isNaN x) then
        throw (.value "math domain error")
      return ofFloat (remainder x y)
    | "copysign" =>
      let (a, b) ← two name args
      return ofFloat (Quantity.withSign (← floatOf a) (← floatOf b))
    | "atan2" =>
      let (a, b) ← two name args
      return ofFloat (Float.atan2 (← floatOf a) (← floatOf b))
    | "comb" =>
      let (a, b) ← two name args
      let n ← intOf a
      let k ← intOf b
      if n < 0 then throw (.value "n must be a non-negative integer")
      if k < 0 then throw (.value "k must be a non-negative integer")
      return ofWhole
        ((permutations n.toNat k.toNat / factorial k.toNat : Nat) : Int)
    | "perm" =>
      match args with
      | [a] => return ofWhole (factorial (← intOf a).toNat)
      | _ =>
        let (a, b) ← two name args
        let n ← intOf a
        let k ← intOf b
        if n < 0 then throw (.value "n must be a non-negative integer")
        if k < 0 then throw (.value "k must be a non-negative integer")
        return ofWhole (permutations n.toNat k.toNat : Nat)
    | "prod" =>
      let items ← itemsOf (← one name args)
      let qs ← items.mapM fun
        | .number q => .ok q
        | d =>
          .error
            (.kind s!"unsupported operand type(s) for *: 'int' and '{d.kind}'")
      let q ← qs.foldlM (fun p q => p.apply .mul q) (Quantity.int 1)
      return .number q
    | "fsum" =>
      let xs ← (← itemsOf (← one name args)).mapM floatOf
      return ofFloat (exactSum xs)
    | "modf" =>
      let x ← floatOf (← one name args)
      let whole := if x < 0 then x.ceil else x.floor
      let part := if isInfinite x then 0.0 else x - whole
      return .tuple [ofFloat (Quantity.withSign part x), ofFloat whole]
    | "frexp" =>
      let x ← floatOf (← one name args)
      if x == 0 || !isFinite x then return .tuple [ofFloat x, ofWhole 0]
      let d := Dyadic.ofFloat x
      let size := d.mantissa.log2 + 1
      return .tuple [ofFloat (ofRatio d.negative d.mantissa (Nat.pow 2 size)),
        ofWhole (d.exponent + size)]
    | "ldexp" =>
      let (a, b) ← two name args
      let x ← floatOf a
      let i ← intOf b
      if x == 0 || !isFinite x then return ofFloat x
      let d := Dyadic.ofFloat x
      let e := d.exponent + i
      let y := if e ≥ 2000 then 1.0 / 0.0
        else if e ≥ 0 then ofRatio d.negative (d.mantissa * Nat.pow 2 e.toNat) 1
        else if e < -3000 then ofParts d.negative 0 0
        else ofRatio d.negative d.mantissa (Nat.pow 2 (-e).toNat)
      if isInfinite y then throw (.overflow "math range error")
      return ofFloat y
    | "remainder" =>
      let (a, b) ← two name args
      let x ← floatOf a
      let y ← floatOf b
      if isInfinite y && isFinite x then return ofFloat x
      if (isInfinite x && !isNaN y) || (y == 0 && !isNaN x) then
        throw (.value "math domain error")
      let m := remainder x.abs y.abs
      let c := y.abs - m
      let r := if m < c then m else if m > c then -c
        else m - 2.0 * remainder (0.5 * (x.abs - m)) y.abs
      return ofFloat (if signBit x then -r else r)
    | "isclose" =>
      let (a, b) ← two name args
      let x ← floatOf a
      let y ← floatOf b
      if x == y then return .number (.bool true)
      if isInfinite x || isInfinite y then return .number (.bool false)
      let gap := (y - x).abs
      return .number (.bool (gap ≤ (1e-09 * y).abs || gap ≤ (1e-09 * x).abs))
    | _ => throw (.kind "'NoneType' object is not subscriptable")
where
  /-- A sum of doubles that is rounded once. -/
  exactSum (xs : List Float) : Float :=
    if xs.any (!isFinite ·) then xs.foldl (· + ·) 0
    else
      let ds := xs.map Dyadic.ofFloat
      let total : Int := ds.foldl (fun sum d =>
        let m : Int := d.mantissa * Nat.pow 2 (d.exponent + 1074).toNat
        if d.negative then sum - m else sum + m) 0
      ofRatio (total < 0) total.natAbs (Nat.pow 2 1074)

end TaskShell.Calc

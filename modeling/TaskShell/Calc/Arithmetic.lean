import TaskShell.Calc.Reader

/-!
# Plain arithmetic

The value of an expression made of numbers, signs and arithmetic operators only.
The caret is a power here, and whole exponents are bounded.
-/

namespace TaskShell.Calc

def maxExponent : Nat := 10000

/-- The operation that plain arithmetic gives an operator. -/
def arithmeticOp? : BinaryOp → Option BinaryOp
  | .add => some .add
  | .sub => some .sub
  | .mul => some .mul
  | .div => some .div
  | .mod => some .mod
  | .floorDiv => some .floorDiv
  | .pow => some .pow
  | .bitXor => some .pow
  | _ => none

def isPower (op : BinaryOp) : Bool :=
  op == .pow || op == .bitXor

/-- Whether an exponent is a whole number beyond the bound of `arithmetic`. -/
def isLargeExponent (q : Quantity) : Bool :=
  match q.int? with
  | some i => i.natAbs > maxExponent
  | none => false

def arithmetic : Expr → Except CalcFault Quantity
  | .binary op left right => do
    let a ← arithmetic left
    let b ← arithmetic right
    if isPower op && isLargeExponent b then throw (.value "exponent too large")
    match arithmeticOp? op with
    | some known => a.apply known b
    | none => throw (.value "unsupported operator")
  | .unary .plus e => do (← arithmetic e).applyUnary .plus
  | .unary .minus e => do (← arithmetic e).applyUnary .minus
  | .unary _ _ => .error (.value "unsupported unary operator")
  | .number q =>
    if q.isComplex then .error (.value "only numbers allowed") else .ok q
  | .constant _ => .error (.value "only numbers allowed")
  | _ => .error (.value "unsupported expression element")

end TaskShell.Calc

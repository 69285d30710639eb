import TaskShell.Calc.Functions
import TaskShell.Calc.Reader
import TaskShell.Text.Search

/-!
# The calculator

The value of an expression with names, comparisons, choices, sequences and
calls. Names are the constants and functions of the calculator and nothing else.
-/

namespace TaskShell.Calc

def nameDatum (s : String) : Except CalcFault Datum :=
  match constants.lookup s with
  | some x => .ok (ofFloat x)
  | none =>
    if functionNames.contains s then .ok (.function s)
    else .error (.kind "'NoneType' object is not subscriptable")

def repeatItems {α : Type} (items : List α) (n : Int) : List α :=
  (List.replicate n.toNat items).flatten

def applyBinary (op : BinaryOp) (a b : Datum) : Except CalcFault Datum :=
  match op, a, b with
  | _, .number p, .number q => (p.apply op q).map .number
  | .add, .text s, .text t => .ok (.text (s ++ t))
  | .add, .list s, .list t => .ok (.list (s ++ t))
  | .add, .tuple s, .tuple t => .ok (.tuple (s ++ t))
  | .mul, .text s, .number q | .mul, .number q, .text s =>
    match q.int? with
    | some n => .ok (.text (String.ofList (repeatItems s.toList n)))
    | none =>
      .error (.kind s!"can't multiply sequence by non-int of type '{q.kind}'")
  | .mul, .list s, .number q | .mul, .number q, .list s =>
    match q.int? with
    | some n => .ok (.list (repeatItems s n))
    | none =>
      .error (.kind s!"can't multiply sequence by non-int of type '{q.kind}'")
  | .mul, .tuple s, .number q | .mul, .number q, .tuple s =>
    match q.int? with
    | some n => .ok (.tuple (repeatItems s n))
    | none =>
      .error (.kind s!"can't multiply sequence by non-int of type '{q.kind}'")
  | .add, .text _, _ =>
    .error (.kind s!"can only concatenate str (not \"{b.kind}\") to str")
  | .add, .list _, _ =>
    .error (.kind s!"can only concatenate list (not \"{b.kind}\") to list")
  | .add, .tuple _, _ =>
    .error (.kind s!"can only concatenate tuple (not \"{b.kind}\") to tuple")
  | _, _, _ =>
    .error (.kind
      s!"unsupported operand type(s) for {op.sign}: '{a.kind}' and '{b.kind}'")

def CompareOp.sign : CompareOp → String
  | equal => "=="
  | notEqual => "!="
  | less => "<"
  | lessEqual => "<="
  | greater => ">"
  | greaterEqual => ">="
  | is_ => "is"
  | isNot => "is not"
  | in_ => "in"
  | notIn => "not in"

def contains (d container : Datum) : Except CalcFault Bool :=
  match container with
  | .list items | .tuple items => .ok (items.any d.isEqual)
  | .text s =>
    match d with
    | .text t => .ok (Text.contains s t)
    | _ =>
      .error
        (.kind s!"'in <string>' requires string as left operand, not {d.kind}")
  | _ => .error (.kind s!"argument of type '{container.kind}' is not iterable")

/-- Whether two data are the same thing. -/
def isSame (a b : Datum) : Bool :=
  match a, b with
  | .nothing, .nothing => true
  | .number (.bool x), .number (.bool y) => x == y
  | .number (.int x), .number (.int y) => x == y && -5 ≤ x && x ≤ 256
  | _, _ => false

def applyCompare (op : CompareOp) (a b : Datum) : Except CalcFault Bool :=
  let ordered := fun (test : Ordering → Bool) =>
    match a, b with
    | .number x, .number y =>
      if x.isComplex || y.isComplex then
        .error (.kind s!"'{op.sign}' not supported between instances of '{a.kind}' and '{b.kind}'")
      else .ok ((x.compare? y).any test)
    | _, _ =>
      match a.order? b with
      | some o => .ok (test o)
      | none => .error (.kind s!"'{op.sign}' not supported between instances of '{a.kind}' and '{b.kind}'")
  match op with
  | .equal => .ok (a.isEqual b)
  | .notEqual => .ok (!a.isEqual b)
  | .less => ordered (· == .lt)
  | .lessEqual => ordered (· != .gt)
  | .greater => ordered (· == .gt)
  | .greaterEqual => ordered (· != .lt)
  | .is_ => .ok (isSame a b)
  | .isNot => .ok (!isSame a b)
  | .in_ => contains a b
  | .notIn => (contains a b).map (!·)

/-- The item of a sequence at an index, which counts from the end if it is
negative. -/
def itemAt (d index : Datum) : Except CalcFault Datum := do
  let at_ (kind : String) (items : List Datum) : Except CalcFault Datum := do
    match index with
    | .number q =>
      match q.int? with
      | some i =>
        let i := if i < 0 then i + items.length else i
        if i < 0 then throw (.index s!"{kind} index out of range")
        match items[i.toNat]? with
        | some d => return d
        | none => throw (.index s!"{kind} index out of range")
      | none =>
        throw (.kind
          s!"{kind} indices must be integers or slices, not {index.kind}")
    | _ =>
      throw
        (.kind s!"{kind} indices must be integers or slices, not {index.kind}")
  match d with
  | .list items => at_ "list" items
  | .tuple items => at_ "tuple" items
  | .text s => at_ "string" (s.toList.map fun c => .text (String.singleton c))
  | _ => throw (.kind s!"'{d.kind}' object is not subscriptable")

mutual

def evaluate : Expr → Except CalcFault Datum
  | .number q => .ok (.number q)
  | .constant .none_ => .ok .nothing
  | .constant .ellipsis => .ok .ellipsis
  | .constant (.imaginary x) => .ok (.number (.complex 0 x))
  | .constant (.text s) => .ok (.text s)
  | .constant (.bytes s) => .ok (.text s)
  | .name s => nameDatum s
  | .unary op e => do
    match op, ← evaluate e with
    | .not, d => return .number (.bool !d.isTruthy)
    | _, .number q => return .number (← q.applyUnary op)
    | _, d =>
      let sign := match op with
        | .plus => "+"
        | .minus => "-"
        | _ => "~"
      throw (.kind s!"bad operand type for unary {sign}: '{d.kind}'")
  | .binary op left right =>
    do applyBinary op (← evaluate left) (← evaluate right)
  | .comparison first rest => do compareAll (← evaluate first) rest
  | .both left right => do
    let a ← evaluate left
    if a.isTruthy then evaluate right else return a
  | .either left right => do
    let a ← evaluate left
    if a.isTruthy then return a else evaluate right
  | .choice test yes no => do
    if (← evaluate test).isTruthy then evaluate yes else evaluate no
  | .tuple items => do return .tuple (← evaluateAll items)
  | .list items => do return .list (← evaluateAll items)
  | .call f args _ => do
    let d ← evaluate f
    let values ← evaluateAll args
    match d with
    | .function name => applyFunction name values
    | _ => throw (.kind s!"'{d.kind}' object is not callable")
  | .member e name => do
    let d ← evaluate e
    throw (.member s!"'{d.kind}' object has no attribute '{name}'")
  | .item e index => do itemAt (← evaluate e) (← evaluate index)
  | .set _ | .record _ | .unevaluated =>
    .error (.kind "'NoneType' object is not subscriptable")

def evaluateAll : List Expr → Except CalcFault (List Datum)
  | [] => .ok []
  | e :: rest => do
    let d ← evaluate e
    return d :: (← evaluateAll rest)

/-- The value of a chain of comparisons: each `applyCompare` compares
neighbours, and the first that fails ends the chain. -/
def compareAll (left : Datum) : List (CompareOp × Expr) → Except CalcFault Datum
  | [] => .ok (.number (.bool true))
  | (op, e) :: rest => do
    let right ← evaluate e
    if ← applyCompare op left right then compareAll right rest
    else return .number (.bool false)

end

def calculate (text : List Char) : Except CalcFault String := do
  (← evaluate (← parseTrimmed text)).display

end TaskShell.Calc

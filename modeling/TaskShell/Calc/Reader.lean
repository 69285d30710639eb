import TaskShell.Calc.Quantity
import TaskShell.Calc.Token

/-!
# Reading expressions

Reads tokens into an expression. From weakest to strongest: a choice, `or`,
`and`, `not`, comparisons, the binary operators by level, signs, and powers,
which group to the right.
-/

namespace TaskShell.Calc

/-! ## Expressions -/

inductive CompareOp where
  | equal
  | notEqual
  | less
  | lessEqual
  | greater
  | greaterEqual
  | is_
  | isNot
  | in_
  | notIn
  deriving DecidableEq, Repr

/-- A constant that is no number of the calculator. -/
inductive Constant where
  | none_
  | ellipsis
  | imaginary (x : Float)
  | text (s : String)
  | bytes (s : String)
  deriving Repr

inductive Expr where
  | number (q : Quantity)
  | constant (c : Constant)
  | name (s : String)
  | unary (op : UnaryOp) (operand : Expr)
  | binary (op : BinaryOp) (left right : Expr)
  | comparison (first : Expr) (rest : List (CompareOp × Expr))
  | both (left right : Expr)
  | either (left right : Expr)
  | choice (test yes no : Expr)
  | tuple (items : List Expr)
  | list (items : List Expr)
  | set (items : List Expr)
  | record (fields : List (Expr × Expr))
  | call (function : Expr) (args : List Expr) (named : List (String × Expr))
  | member (of_ : Expr) (name : String)
  | item (of_ index : Expr)
  /-- A form that has no value here: a function of its own, a comprehension, a
  formatted text. -/
  | unevaluated
  deriving Repr, Inhabited

/-! ## Reading -/

def refuseToken {α : Type} (tokens : List Token) : Except CalcFault α :=
  match tokens with
  | .unclosed b :: _ => malformed s!"'{b}' was never closed" 1
  | _ => malformed "invalid syntax" 1

def keywords : List String :=
  ["False", "None", "True", "and", "as", "assert", "async", "await", "break",
    "class", "continue", "def", "del", "elif", "else", "except", "finally",
    "for", "from", "global", "if", "import", "in", "is", "lambda", "nonlocal",
    "not", "or", "pass", "raise", "return", "try", "while", "with", "yield"]

def binaryLevels : List (List (String × BinaryOp)) :=
  [[("|", .bitOr)], [("^", .bitXor)], [("&", .bitAnd)],
    [("<<", .shiftLeft), (">>", .shiftRight)], [("+", .add), ("-", .sub)],
    [("*", .mul), ("/", .div), ("%", .mod), ("//", .floorDiv), ("@", .matMul)]]

def nextBinary? (level : List (String × BinaryOp)) :
    List Token → Option BinaryOp
  | .sign s :: _ => level.lookup s
  | _ => none

/-- The comparison that comes next, and the tokens after it. -/
def nextComparison? : List Token → Option (CompareOp × List Token)
  | .sign "==" :: rest => some (.equal, rest)
  | .sign "!=" :: rest => some (.notEqual, rest)
  | .sign "<" :: rest => some (.less, rest)
  | .sign "<=" :: rest => some (.lessEqual, rest)
  | .sign ">" :: rest => some (.greater, rest)
  | .sign ">=" :: rest => some (.greaterEqual, rest)
  | .name "in" :: rest => some (.in_, rest)
  | .name "not" :: .name "in" :: rest => some (.notIn, rest)
  | .name "is" :: .name "not" :: rest => some (.isNot, rest)
  | .name "is" :: rest => some (.is_, rest)
  | _ => none

def startsExpr : Token → Bool
  | .int _ | .float _ | .imaginary _ | .text _ | .bytes _ | .formatted => true
  | .name s =>
    !keywords.contains s || ["True", "False", "None", "not", "lambda",
      "await"].contains s
  | .sign s => ["(", "[", "\x7b", "~", "..."].contains s
  | _ => false

/-- A refusal of a token where a closing bracket or a comma was expected. -/
def refuseInside {α : Type} (tokens : List Token) : Except CalcFault α :=
  match tokens with
  | t :: _ =>
    if startsExpr t then malformed "invalid syntax. Perhaps you forgot a comma?"
      1 else refuseToken tokens
  | [] => refuseToken tokens

/-- Skips the tokens of a form that has no value here, up to a token of the
given brackets' depth that ends it. -/
def skipForm (depth : Nat) : List Token → Nat → List Token
  | tokens, 0 => tokens
  | [], _ => []
  | t :: rest, fuel + 1 =>
    match t with
    | .sign s =>
      if s == "(" || s == "[" || s == "\x7b" then skipForm (depth + 1) rest fuel
      else if s == ")" || s == "]" || s == "\x7d" then
        if depth == 0 then t :: rest else skipForm (depth - 1) rest fuel
      else if s == "," && depth == 0 then t :: rest
      else skipForm depth rest fuel
    | .unclosed _ => t :: rest
    | _ => skipForm depth rest fuel

def joinTexts (s : String) : List Token → String × List Token
  | .text t :: rest => joinTexts (s ++ t) rest
  | tokens => (s, tokens)

mutual

def readExpr (tokens : List Token) : Nat → Except CalcFault (Expr × List Token)
  | 0 => refuseToken tokens
  | fuel + 1 => do
    match tokens with
    | .name "lambda" :: rest =>
      let after := skipForm 0 rest (rest.length + 1)
      return (.unevaluated, after)
    | _ =>
      let (value, rest) ← readEither tokens fuel
      match rest with
      | .name "if" :: rest =>
        let (test, rest) ← readEither rest fuel
        match rest with
        | .name "else" :: rest =>
          let (other, rest) ← readExpr rest fuel
          return (.choice test value other, rest)
        | .sign ":" :: _ => refuseToken rest
        | .unclosed _ :: _ => refuseToken rest
        | _ => malformed "expected 'else' after 'if' expression" 1
      | _ => return (value, rest)

/-- Reads expressions joined by `or`. -/
def readEither (tokens : List Token) :
    Nat → Except CalcFault (Expr × List Token)
  | 0 => refuseToken tokens
  | fuel + 1 => do
    let (first, rest) ← readBoth tokens fuel
    match rest with
    | .name "or" :: rest =>
      let (more, rest) ← readEither rest fuel
      return (.either first more, rest)
    | _ => return (first, rest)

/-- Reads expressions joined by `and`. -/
def readBoth (tokens : List Token) : Nat → Except CalcFault (Expr × List Token)
  | 0 => refuseToken tokens
  | fuel + 1 => do
    let (first, rest) ← readNot tokens fuel
    match rest with
    | .name "and" :: rest =>
      let (more, rest) ← readBoth rest fuel
      return (.both first more, rest)
    | _ => return (first, rest)

def readNot (tokens : List Token) : Nat → Except CalcFault (Expr × List Token)
  | 0 => refuseToken tokens
  | fuel + 1 => do
    match tokens with
    | .name "not" :: rest =>
      let (e, rest) ← readNot rest fuel
      return (.unary .not e, rest)
    | _ =>
      let (first, rest) ← readLevel binaryLevels tokens fuel
      let (more, rest) ← readComparisons rest fuel
      return (if more.isEmpty then first else .comparison first more, rest)

def readComparisons (tokens : List Token) :
    Nat → Except CalcFault (List (CompareOp × Expr) × List Token)
  | 0 => refuseToken tokens
  | fuel + 1 => do
    match nextComparison? tokens with
    | none => return ([], tokens)
    | some (op, rest) =>
      let (e, rest) ← readLevel binaryLevels rest fuel
      let (more, rest) ← readComparisons rest fuel
      return ((op, e) :: more, rest)

def readLevel (levels : List (List (String × BinaryOp))) (tokens : List Token) :
    Nat → Except CalcFault (Expr × List Token)
  | 0 => refuseToken tokens
  | fuel + 1 => do
    match levels with
    | [] => readSigned tokens fuel
    | level :: stronger =>
      let (first, rest) ← readLevel stronger tokens fuel
      readOperands level stronger first rest fuel

def readOperands (level : List (String × BinaryOp))
    (stronger : List (List (String × BinaryOp))) (left : Expr)
    (tokens : List Token) : Nat → Except CalcFault (Expr × List Token)
  | 0 => refuseToken tokens
  | fuel + 1 => do
    match nextBinary? level tokens with
    | none => return (left, tokens)
    | some op =>
      let (right, rest) ← readLevel stronger tokens.tail fuel
      readOperands level stronger (.binary op left right) rest fuel

def readSigned (tokens : List Token) :
    Nat → Except CalcFault (Expr × List Token)
  | 0 => refuseToken tokens
  | fuel + 1 => do
    match tokens with
    | .sign "+" :: rest =>
      let (e, rest) ← readSigned rest fuel
      return (.unary .plus e, rest)
    | .sign "-" :: rest =>
      let (e, rest) ← readSigned rest fuel
      return (.unary .minus e, rest)
    | .sign "~" :: rest =>
      let (e, rest) ← readSigned rest fuel
      return (.unary .invert e, rest)
    | _ => readPowers tokens fuel

def readPowers (tokens : List Token) :
    Nat → Except CalcFault (Expr × List Token)
  | 0 => refuseToken tokens
  | fuel + 1 => do
    let (base, rest) ← match tokens with
      | .name "await" :: rest => do
        let (_, rest) ← readPrimary rest fuel
        pure (Expr.unevaluated, rest)
      | _ => readPrimary tokens fuel
    match rest with
    | .sign "**" :: rest =>
      let (exponent, rest) ← readSigned rest fuel
      return (.binary .pow base exponent, rest)
    | _ => return (base, rest)

/-- Reads an atom with its `readTrailers`: calls, members and items. -/
def readPrimary (tokens : List Token) :
    Nat → Except CalcFault (Expr × List Token)
  | 0 => refuseToken tokens
  | fuel + 1 => do
    let (atom, rest) ← readAtom tokens fuel
    readTrailers atom rest fuel

/-- Reads the calls, members and items after an atom. -/
def readTrailers (e : Expr) (tokens : List Token) :
    Nat → Except CalcFault (Expr × List Token)
  | 0 => refuseToken tokens
  | fuel + 1 => do
    match tokens with
    | .sign "." :: .name s :: rest =>
      if keywords.contains s then refuseToken (.name s :: rest)
      readTrailers (.member e s) rest fuel
    | .sign "." :: rest => refuseToken rest
    | .sign "(" :: rest =>
      let (args, named, rest) ← readArgs rest fuel
      readTrailers (.call e args named) rest fuel
    | .sign "[" :: rest =>
      let (index, rest) ← readIndex rest fuel
      readTrailers (.item e index) rest fuel
    | _ => return (e, tokens)

def readArgs (tokens : List Token) :
    Nat → Except CalcFault (List Expr × List (String × Expr) × List Token)
  | 0 => refuseToken tokens
  | fuel + 1 => do
    match tokens with
    | .sign ")" :: rest => return ([], [], rest)
    | _ =>
      let (arg, name, rest) ← match tokens with
        | .name s :: .sign "=" :: rest =>
          if keywords.contains s then refuseToken tokens
          let (e, rest) ← readExpr rest fuel
          pure (e, some s, rest)
        | .sign "*" :: rest | .sign "**" :: rest =>
          let (_, rest) ← readExpr rest fuel
          pure (Expr.unevaluated, none, rest)
        | _ =>
          let (e, rest) ← readElement tokens fuel
          pure (e, none, rest)
      let (args, named, rest) ← match rest with
        | .sign "," :: rest => readArgs rest fuel
        | .sign ")" :: rest => pure ([], [], rest)
        | _ => refuseInside rest
      match name with
      | some s => return (args, (s, arg) :: named, rest)
      | none => return (arg :: args, named, rest)

/-- Reads an expression inside brackets, which may name its value or be a
comprehension. -/
def readElement (tokens : List Token) :
    Nat → Except CalcFault (Expr × List Token)
  | 0 => refuseToken tokens
  | fuel + 1 => do
    let (e, rest) ← match tokens with
      | .name s :: .sign ":=" :: rest =>
        if keywords.contains s then refuseToken tokens
        let (_, rest) ← readExpr rest fuel
        pure (Expr.unevaluated, rest)
      | .sign "*" :: rest =>
        let (_, rest) ← readLevel binaryLevels rest fuel
        pure (Expr.unevaluated, rest)
      | _ => readExpr tokens fuel
    match rest with
    | .name "for" :: more =>
      return (.unevaluated, skipForm 0 more (more.length + 1))
    | .name "async" :: .name "for" :: more =>
      return (.unevaluated, skipForm 0 more (more.length + 1))
    | _ => return (e, rest)

/-- Reads elements up to the closing bracket; also gives whether a comma was
read. -/
def readElements (closer : String) (tokens : List Token) :
    Nat → Except CalcFault (List Expr × Bool × List Token)
  | 0 => refuseToken tokens
  | fuel + 1 => do
    match tokens with
    | t :: rest => if t.isSign closer then return ([], false, rest)
    | [] => pure ()
    let (e, rest) ← readElement tokens fuel
    match rest with
    | t :: more =>
      if t.isSign "," then
        let (es, _, rest) ← readElements closer more fuel
        return (e :: es, true, rest)
      if t.isSign closer then return ([e], false, more)
      refuseInside rest
    | [] => refuseToken rest

def readIndex (tokens : List Token) : Nat → Except CalcFault (Expr × List Token)
  | 0 => refuseToken tokens
  | fuel + 1 => do
    let hasSlice := tokens.any fun t => t.isSign ":"
    if hasSlice then
      let after := skipForm 0 tokens (tokens.length + 1)
      match after with
      | .sign "]" :: rest => return (.unevaluated, rest)
      | _ => refuseToken after
    let (es, comma, rest) ← readElements "]" tokens fuel
    match es, comma with
    | [], _ => refuseToken (.sign "]" :: rest)
    | [e], false => return (e, rest)
    | _, _ => return (.tuple es, rest)

def readFields (key : Expr) (tokens : List Token) :
    Nat → Except CalcFault (List (Expr × Expr) × List Token)
  | 0 => refuseToken tokens
  | fuel + 1 => do
    let (value, rest) ← readElement tokens fuel
    match rest with
    | .sign "\x7d" :: rest => return ([(key, value)], rest)
    | .sign "," :: .sign "\x7d" :: rest => return ([(key, value)], rest)
    | .sign "," :: rest =>
      let (next, rest) ← readExpr rest fuel
      match rest with
      | .sign ":" :: rest =>
        let (more, rest) ← readFields next rest fuel
        return ((key, value) :: more, rest)
      | _ => refuseToken rest
    | _ => refuseInside rest

def readAtom (tokens : List Token) : Nat → Except CalcFault (Expr × List Token)
  | 0 => refuseToken tokens
  | fuel + 1 => do
    match tokens with
    | .int n :: rest => return (.number (.int n), rest)
    | .float x :: rest => return (.number (.float x), rest)
    | .imaginary x :: rest => return (.constant (.imaginary x), rest)
    | .text s :: rest =>
      let (s, rest) := joinTexts s rest
      return (.constant (.text s), rest)
    | .bytes s :: rest => return (.constant (.bytes s), rest)
    | .formatted :: rest => return (.unevaluated, rest)
    | .name "True" :: rest => return (.number (.bool true), rest)
    | .name "False" :: rest => return (.number (.bool false), rest)
    | .name "None" :: rest => return (.constant .none_, rest)
    | .name s :: rest =>
      if keywords.contains s then refuseToken tokens else return (.name s, rest)
    | .sign "..." :: rest => return (.constant .ellipsis, rest)
    | .sign "(" :: .name "yield" :: rest =>
      match skipForm 0 rest (rest.length + 1) with
      | .sign ")" :: rest => return (.unevaluated, rest)
      | rest => refuseToken rest
    | .sign "(" :: rest =>
      let (es, comma, rest) ← readElements ")" rest fuel
      match es, comma with
      | [e], false => return (e, rest)
      | _, _ => return (.tuple es, rest)
    | .sign "[" :: rest =>
      let (es, _, rest) ← readElements "]" rest fuel
      return (.list es, rest)
    | .sign "\x7b" :: .sign "\x7d" :: rest => return (.record [], rest)
    | .sign "\x7b" :: rest =>
      let (first, after) ← readElement rest fuel
      match after with
      | .sign ":" :: after =>
        let (fields, rest) ← readFields first after fuel
        return (.record fields, rest)
      | _ =>
        let (es, _, rest) ← readElements "\x7d" rest fuel
        return (.set es, rest)
    | _ => refuseToken tokens

end

/-- Reads expressions separated by commas, up to the end. -/
def readTop (tokens : List Token) (sofar : List Expr) :
    Nat → Except CalcFault Expr
  | 0 => refuseToken tokens
  | fuel + 1 => do
    let (e, rest) ← readExpr tokens (24 * tokens.length + 24)
    let items := sofar ++ [e]
    match rest with
    | .sign "," :: more =>
      if atEnd more then return .tuple items
      readTop more items fuel
    | _ =>
      if !atEnd rest then refuseToken rest
      match items with
      | [e] => return e
      | _ => return .tuple items
where
  atEnd (tokens : List Token) : Bool :=
    tokens.all fun
      | .newline => true
      | _ => false

def parse (text : List Char) : Except CalcFault Expr := do
  match text.dropWhile fun c => c == '\n' || c == '\x0c' with
  | ' ' :: _ | '\t' :: _ => malformed "unexpected indent" 1
  | _ =>
    let tokens ← tokensOf text
    let start := tokens.dropWhile fun
      | .newline => true
      | _ => false
    readTop start [] (tokens.length + 1)

/-- Reads an expression from its text with `parse`, with or without blanks
before it. -/
def parseTrimmed (text : List Char) : Except CalcFault Expr :=
  parse (text.dropWhile fun c => c == ' ' || c == '\t')

end TaskShell.Calc

import TaskShell.Calc.Fault
import TaskShell.Number.Reading
import TaskShell.Text.Quoted

/-!
# Tokens of expressions

Splits the text of an expression into numbers, names, texts and signs. Brackets
are matched here, so a bracket that does not fit is noticed before the
expression is read.
-/

namespace TaskShell.Calc

open Text Number

inductive Token where
  | int (n : Nat)
  | float (x : Float)
  | imaginary (x : Float)
  | name (s : String)
  | text (s : String)
  | bytes (s : String)
  /-- A formatted text, whose parts are not looked at. -/
  | formatted
  | sign (s : String)
  | newline
  | unclosed (bracket : Char)
  deriving Repr

def Token.isSign (t : Token) (s : String) : Bool :=
  match t with
  | .sign s' => s == s'
  | _ => false

/-- The signs, longest first. -/
def signs : List String :=
  ["**=", "//=", ">>=", "<<=", "...", "**", "//", ">>", "<<", "<=", ">=", "==",
    "!=", "->", "+=", "-=", "*=", "/=", "%=", "&=", "|=", "^=", "@=", ":=", "+",
    "-", "*", "/", "%", "@", "&", "|", "^", "~", "<", ">", "(", ")", "[", "]",
    "\x7b", "\x7d", ",", ":", ".", ";", "="]

def malformed {α : Type} (message : String) (line : Nat) : Except CalcFault α :=
  .error (.malformed s!"{message} (<string>, line {line})")

/-! ## Numbers -/

/-- Digits of a base with single low lines between them, from the start of a
text; gives the digits and the rest, or nothing if a low line stands at an
end. -/
def spanBase (isDigit : Char → Bool) (cs : List Char) :
    Option (List Char × List Char) :=
  let run := cs.takeWhile fun c => isDigit c || c == '_'
  let rest := cs.drop run.length
  if run.isEmpty then some ([], rest)
  else if run.getLast? == some '_' || run.head? == some '_' ||
    pairOfLowLines run then none
  else some (run.filter (· != '_'), rest)
where
  pairOfLowLines : List Char → Bool
    | '_' :: '_' :: _ => true
    | _ :: rest => pairOfLowLines rest
    | [] => false

def baseValue (base : Nat) (cs : List Char) : Nat :=
  cs.foldl (fun n c =>
    let d := if c.isDigit then c.toNat - '0'.toNat
      else c.toLower.toNat - 'a'.toNat + 10
    n * base + d) 0

def wordsAfterNumber : List String :=
  ["and", "else", "for", "if", "in", "is", "not", "or"]

def endsNumber (cs : List Char) : Bool :=
  match cs with
  | [] => true
  | c :: _ =>
    if isNameStart c || c.isDigit then
      let word := String.ofList (cs.takeWhile Char.isAlpha)
      wordsAfterNumber.any fun w => startsWith word w
    else true
where
  startsWith (s t : String) : Bool := t.toList.isPrefixOf s.toList

def readBased (base : Nat) (kind : String) (isDigit : Char → Bool) (line : Nat)
    (cs : List Char) :
    Except CalcFault (Token × List Char) := do
  let cs := match cs with
    | '_' :: rest => rest
    | _ => cs
  match spanBase isDigit cs with
  | some (digits, rest) =>
    if digits.isEmpty then
      match rest with
      | c :: _ => if c.isDigit then
          malformed s!"invalid digit '{c}' in {kind} literal" line
                  else malformed s!"invalid {kind} literal" line
      | [] => malformed s!"invalid {kind} literal" line
    match rest with
    | c :: _ =>
      if c.isDigit then malformed s!"invalid digit '{c}' in {kind} literal" line
    | [] => pure ()
    if !endsNumber rest then malformed s!"invalid {kind} literal" line
    return (.int (baseValue base digits), rest)
  | none => malformed s!"invalid {kind} literal" line

/-- Reads the exponent of a number: its value and the rest, or nothing if there
is none. -/
def readPower (cs : List Char) : Option (Int × List Char) :=
  match cs with
  | e :: rest =>
    if e == 'e' || e == 'E' then
      let (negative, after) := splitSign rest
      match spanBase Char.isDigit after with
      | some (digits, rest) =>
        if digits.isEmpty then none
        else
          let n : Int := baseValue 10 digits
          some (if negative then -n else n, rest)
      | none => none
    else none
  | [] => none

def readDecimal (line : Nat) (cs : List Char) :
    Except CalcFault (Token × List Char) := do
  let some (whole, rest) :=
    spanBase Char.isDigit cs | malformed "invalid decimal literal" line
  let (hasPoint, part, rest) ← match rest with
    | '.' :: more =>
      match spanBase Char.isDigit more with
      | some (digits, rest) => pure (true, digits, rest)
      | none => malformed "invalid decimal literal" line
    | _ => pure (false, [], rest)
  let power := readPower rest
  let (exponent, rest) := power.getD (0, rest)
  let value :=
    ofDecimal false (baseValue 10 (whole ++ part)) (exponent - part.length)
  match rest with
  | 'j' :: more | 'J' :: more =>
    if !endsNumber more then malformed "invalid imaginary literal" line
    return (.imaginary value, more)
  | _ =>
    if !endsNumber rest then malformed "invalid decimal literal" line
    if hasPoint || power.isSome then return (.float value, rest)
    if whole.length > 1 && whole.head? == some '0' && whole.any (· != '0') then
      malformed
        ("leading zeros in decimal integer literals are not permitted; " ++
        "use an 0o prefix for octal integers") line
    if whole.length > maxDigits then
      malformed (s!"Exceeds the limit (4300 digits) for integer string conversion: value has {whole.length} digits; " ++
        "use sys.set_int_max_str_digits() to increase the limit - Consider hexadecimal for huge integer literals " ++
        "to avoid decimal conversion limits.") line
    return (.int (baseValue 10 whole), rest)

def readNumber (line : Nat) (cs : List Char) :
    Except CalcFault (Token × List Char) :=
  let isHex :=
    fun (c : Char) => c.isDigit || ('a' ≤ c.toLower && c.toLower ≤ 'f')
  match cs with
  | '0' :: 'x' :: rest | '0' :: 'X' :: rest =>
    readBased 16 "hexadecimal" isHex line rest
  | '0' :: 'o' :: rest | '0' :: 'O' :: rest =>
    readBased 8 "octal" (fun c => '0' ≤ c && c ≤ '7') line rest
  | '0' :: 'b' :: rest | '0' :: 'B' :: rest =>
    readBased 2 "binary" (fun c => c == '0' || c == '1') line rest
  | _ => readDecimal line cs

/-! ## Texts -/

/-- The letters that may stand before a text. -/
def textMarks : List String := ["", "r", "u", "b", "br", "rb", "f", "fr", "rf"]

def textEscape? : Char → Option Char
  | '\\' => some '\\'
  | '\'' => some '\''
  | '"' => some '"'
  | 'a' => some '\x07'
  | 'b' => some '\x08'
  | 'f' => some '\x0c'
  | 'n' => some '\n'
  | 'r' => some '\r'
  | 't' => some '\t'
  | 'v' => some '\x0b'
  | _ => none

/-- Reads the inside of a text up to its closing quotes; gives the characters
and the rest, or nothing if the text is not closed. -/
def readTextBody (raw triple : Bool) (quote : Char) :
    List Char → Nat → Option (List Char × List Char)
  | _, 0 => none
  | [], _ => none
  | c :: rest, fuel + 1 =>
    if c == quote then
      if !triple then some ([], rest)
      else match rest with
        | a :: b :: after =>
          if a == quote && b == quote then some ([], after)
          else (readTextBody raw triple quote rest fuel).map fun (s, r) =>
            (c :: s, r)
        | _ => none
    else if c == '\n' && !triple then none
    else if c == '\\' then
      match rest with
      | [] => none
      | d :: more =>
        let written := if raw then ['\\', d] else
          match textEscape? d with
          | some e => [e]
          | none => if d == '\n' then [] else ['\\', d]
        (readTextBody raw triple quote more fuel).map fun (s, r) =>
          (written ++ s, r)
    else (readTextBody raw triple quote rest fuel).map fun (s, r) => (c :: s, r)

/-! ## The whole text -/

def closerOf? : Char → Option Char
  | '(' => some ')'
  | '[' => some ']'
  | '\x7b' => some '\x7d'
  | _ => none

/-- Splits a text into tokens. `brackets` are the open brackets, the innermost
first. -/
def tokensFrom (line : Nat) (brackets : List Char) :
    List Char → Nat → Except CalcFault (List Token)
  | _, 0 => .ok []
  | [], _ =>
    match brackets with
    | b :: _ => .ok [.unclosed b]
    | [] => .ok []
  | c :: rest, fuel + 1 => do
    if c == ' ' || c == '\t' || c == '\x0c' then
      return ← tokensFrom line brackets rest fuel
    if c == '\r' then return ← tokensFrom line brackets rest fuel
    if c == '\n' then
      let more ← tokensFrom (line + 1) brackets rest fuel
      return if brackets.isEmpty then .newline :: more else more
    if c == '#' then
      return ← tokensFrom line brackets (rest.dropWhile (· != '\n')) fuel
    if c == '\\' then
      match rest with
      | '\n' :: more => return ← tokensFrom (line + 1) brackets more fuel
      | [] => malformed "unexpected EOF while parsing" line
      | _ =>
        malformed "unexpected character after line continuation character" line
    if c.isDigit || (c == '.' && (rest.head?.any Char.isDigit)) then
      let (t, after) ← readNumber line (c :: rest)
      return t :: (← tokensFrom line brackets after fuel)
    let word := (c :: rest).takeWhile fun d => isNameRest d
    let after := (c :: rest).drop word.length
    let mark := (String.ofList word).map Char.toLower
    let startsText := match after with
      | q :: _ =>
        (q == '\'' || q == '"') && (word.isEmpty || textMarks.contains mark)
      | [] => false
    if startsText then
      let quote := after.headD '"'
      let triple := after.take 3 == [quote, quote, quote]
      let body := after.drop (if triple then 3 else 1)
      match readTextBody (mark.contains 'r') triple quote body (body.length + 1)
          with
      | none =>
        let last := line + body.count '\n'
        if triple then
          malformed
            s!"unterminated triple-quoted string literal (detected at line {last})"
            line
        else
          malformed s!"unterminated string literal (detected at line {line})"
            line
      | some (s, after) =>
        let t : Token :=
          if mark.contains 'f' then .formatted
          else if mark.contains 'b' then .bytes (String.ofList s)
          else .text (String.ofList s)
        let lines := (body.take (body.length - after.length)).count '\n'
        return t :: (← tokensFrom (line + lines) brackets after fuel)
    if isNameStart c then
      return .name (String.ofList word) ::
        (← tokensFrom line brackets after fuel)
    match signs.find? fun s => s.toList.isPrefixOf (c :: rest) with
    | some s =>
      let after := (c :: rest).drop s.length
      if (closerOf? c).isSome then
        return .sign s :: (← tokensFrom line (c :: brackets) after fuel)
      if c == ')' || c == ']' || c == '\x7d' then
        match brackets with
        | [] => malformed s!"unmatched '{c}'" line
        | b :: outer =>
          if closerOf? b != some c then
            malformed s!"closing parenthesis '{c}' does not match opening parenthesis '{b}'" line
          return .sign s :: (← tokensFrom line outer after fuel)
      return .sign s :: (← tokensFrom line brackets after fuel)
    | none =>
      if c.toNat < 128 then return .sign (String.singleton c) ::
        (← tokensFrom line brackets rest fuel)
      let code := String.ofList ((hex 4 c.toNat).map Char.toUpper)
      if isPrintable c then
        malformed s!"invalid character '{c}' (U+{code})" line
      else malformed s!"invalid non-printable character U+{code}" line

def tokensOf (text : List Char) : Except CalcFault (List Token) :=
  tokensFrom 1 [] text (text.length + 1)

end TaskShell.Calc

/-!
# Program scripts

The form of the small scripts that stand for installed programs, and how their
text is read: simple commands with assignments and redirections, conditions,
loops, and words with quotes and expansions.
-/

namespace TaskShell.Program

inductive Part where
  | text (cs : List Char) (isQuoted : Bool)
  | variable (name : String) (isQuoted : Bool)
  | arithmetic (cs : List Char) (isQuoted : Bool)
  deriving Repr

abbrev Word := List Part

inductive Redirect where
  | input (file : Word)
  | output (stream : Nat) (append : Bool) (file : Word)
  | duplicate (stream target : Nat)
  deriving Repr

inductive Command where
  | simple (line : Nat) (assignments : List (String × Word)) (words : List Word)
      (redirects : List Redirect)
  /-- Conditions with what follows each, and what happens if none holds. -/
  | choice (clauses : List (List Command × List Command))
      (otherwise : List Command)
  | loop (while_ : Bool) (condition body : List Command)
  | each (name : String) (words : Option (List Word)) (body : List Command)
  | both (left right : Command)
  | either (left right : Command)
  | negated (command : Command)
  deriving Repr, Inhabited

inductive ScriptToken where
  | word (w : Word)
  /-- A separator or a connective. -/
  | sign (s : String)
  | redirect (stream : Nat) (sign : String)
  deriving Repr

/-! ## Words -/

def endsWord (c : Char) : Bool :=
  [' ', '\t', '\n', ';', '&', '|', '<', '>', '(', ')'].contains c

def startsVariable (c : Char) : Bool := c.isAlpha || c == '_'

/-- The text up to two closing brackets, and what follows them. -/
def untilDoubleBracket : List Char → List Char × List Char
  | [] => ([], [])
  | ')' :: ')' :: rest => ([], rest)
  | c :: rest =>
    let (inner, after) := untilDoubleBracket rest
    (c :: inner, after)

def readExpansion (isQuoted : Bool) (cs : List Char) : Part × List Char :=
  match cs with
  | '(' :: '(' :: rest =>
    let (inner, after) := untilDoubleBracket rest
    (.arithmetic inner isQuoted, after)
  | '\x7b' :: rest =>
    (.variable (String.ofList (rest.takeWhile (· != '\x7d'))) isQuoted,
      (rest.dropWhile (· != '\x7d')).drop 1)
  | c :: rest =>
    if startsVariable c then
      let isRest := fun (c : Char) => c.isAlphanum || c == '_'
      (.variable (String.ofList (cs.takeWhile isRest)) isQuoted,
        cs.dropWhile isRest)
    else if c.isDigit || ['@', '*', '#', '?', '$', '!', '-'].contains c then
      (.variable (String.singleton c) isQuoted, rest)
    else (.text ['$'] isQuoted, cs)
  | [] => (.text ['$'] isQuoted, [])

def readQuotes : List Char → Nat → List Part × List Char
  | cs, 0 => ([], cs)
  | [], _ => ([], [])
  | '"' :: rest, _ => ([], rest)
  | '\\' :: c :: rest, fuel + 1 =>
    let (parts, after) := readQuotes rest fuel
    if c == '\n' then (parts, after)
    else if ['$', '"', '\\', '\x60'].contains c then
      (.text [c] true :: parts, after)
    else (.text ['\\', c] true :: parts, after)
  | '$' :: rest, fuel + 1 =>
    let (part, rest) := readExpansion true rest
    let (parts, after) := readQuotes rest fuel
    (part :: parts, after)
  | c :: rest, fuel + 1 =>
    let (parts, after) := readQuotes rest fuel
    (.text [c] true :: parts, after)

def readWord : List Char → Nat → Word × List Char
  | cs, 0 => ([], cs)
  | [], _ => ([], [])
  | c :: rest, fuel + 1 =>
    if endsWord c then ([], c :: rest)
    else if c == '\'' then
      let inner := rest.takeWhile (· != '\'')
      let (parts, after) := readWord ((rest.dropWhile (· != '\'')).drop 1) fuel
      (.text inner true :: parts, after)
    else if c == '"' then
      let (inner, after) := readQuotes rest fuel
      let (parts, after) := readWord after fuel
      (.text [] true :: inner ++ parts, after)
    else if c == '\\' then
      match rest with
      | [] => ([.text ['\\'] true], [])
      | d :: more =>
        let (parts, after) := readWord more fuel
        if d == '\n' then (parts, after) else (.text [d] true :: parts, after)
    else if c == '$' then
      let (part, after) := readExpansion false rest
      let (parts, after) := readWord after fuel
      (part :: parts, after)
    else
      let (parts, after) := readWord rest fuel
      match parts with
      | .text cs false :: more => (.text (c :: cs) false :: more, after)
      | _ => (.text [c] false :: parts, after)

/-! ## Tokens -/

/-- The digits that a word consists of, if it is the number of a stream. -/
def streamOf? : Word → Option Nat
  | [.text cs false] =>
    if cs.all Char.isDigit then (String.ofList cs).toNat? else none
  | _ => none

def scriptTokens (line : Nat) : List Char → Nat → List (Nat × ScriptToken)
  | _, 0 => []
  | [], _ => []
  | c :: rest, fuel + 1 =>
    if c == '\n' then (line, .sign "\n") :: scriptTokens (line + 1) rest fuel
    else if c == ' ' || c == '\t' then scriptTokens line rest fuel
    else if c == '#' then scriptTokens line (rest.dropWhile (· != '\n')) fuel
    else
      match c, rest with
      | '&', '&' :: more => (line, .sign "&&") :: scriptTokens line more fuel
      | '|', '|' :: more => (line, .sign "||") :: scriptTokens line more fuel
      | '>', '>' :: more =>
        (line, .redirect 1 ">>") :: scriptTokens line more fuel
      | '>', '&' :: more =>
        (line, .redirect 1 ">&") :: scriptTokens line more fuel
      | '>', more => (line, .redirect 1 ">") :: scriptTokens line more fuel
      | '<', more => (line, .redirect 0 "<") :: scriptTokens line more fuel
      | _, _ =>
        if [';', '&', '|', '(', ')'].contains c then
          (line, .sign (String.singleton c)) :: scriptTokens line rest fuel
        else
          let (w, after) := readWord (c :: rest) (rest.length + 1)
          let next := line +
            ((c :: rest).take ((c :: rest).length - after.length)).count '\n'
          match streamOf? w, after with
          | some n, '>' :: '>' :: more =>
            (line, .redirect n ">>") :: scriptTokens next more fuel
          | some n, '>' :: '&' :: more =>
            (line, .redirect n ">&") :: scriptTokens next more fuel
          | some n, '>' :: more =>
            (line, .redirect n ">") :: scriptTokens next more fuel
          | _, _ => (line, .word w) :: scriptTokens next after fuel

/-! ## Commands -/

def plainText? : Word → Option String
  | [.text cs false] => some (String.ofList cs)
  | _ => none

def nextPlain? : List (Nat × ScriptToken) → Option String
  | (_, .word w) :: _ => plainText? w
  | _ => none

def isSeparator : ScriptToken → Bool
  | .sign s => s == "\n" || s == ";" || s == "&"
  | _ => false

def dropSeparators (tokens : List (Nat × ScriptToken)) :
    List (Nat × ScriptToken) :=
  tokens.dropWhile fun t => isSeparator t.2

def expectPlain (s : String) (tokens : List (Nat × ScriptToken)) :
    List (Nat × ScriptToken) :=
  if nextPlain? tokens == some s then tokens.drop 1 else tokens

def assignment? : Word → Option (String × Word)
  | .text cs false :: more =>
    let name := cs.takeWhile (· != '=')
    if cs.contains '=' && (name.head?.any startsVariable) &&
        name.all (fun c => c.isAlphanum || c == '_') then
      let value := cs.drop (name.length + 1)
      some (String.ofList name, if value.isEmpty then more
        else .text value false :: more)
    else none
  | _ => none

def readSimple (line : Nat) (assignments : List (String × Word))
    (words : List Word) (redirects : List Redirect) :
    List (Nat × ScriptToken) → Nat → Command × List (Nat × ScriptToken)
  | tokens, 0 => (.simple line assignments words redirects, tokens)
  | tokens, fuel + 1 =>
    match tokens with
    | (_, .word w) :: rest =>
      match if words.isEmpty then assignment? w else none with
      | some a => readSimple line (assignments ++ [a]) words redirects rest fuel
      | none => readSimple line assignments (words ++ [w]) redirects rest fuel
    | (_, .redirect stream sign) :: (_, .word w) :: rest =>
      let redirect :=
        if sign == "<" then Redirect.input w
        else if sign == ">&" then
          .duplicate stream (((plainText? w).bind String.toNat?).getD 1)
        else .output stream (sign == ">>") w
      readSimple line assignments words (redirects ++ [redirect]) rest fuel
    | _ => (.simple line assignments words redirects, tokens)

def closers : List String :=
  ["then", "else", "elif", "fi", "do", "done", "\x7d"]

mutual

def readCommands (tokens : List (Nat × ScriptToken)) :
    Nat → List Command × List (Nat × ScriptToken)
  | 0 => ([], tokens)
  | fuel + 1 =>
    match dropSeparators tokens with
    | [] => ([], [])
    | rest =>
      if (nextPlain? rest).any closers.contains then ([], rest)
      else
        let (first, after) := readJoined rest fuel
        if after.length == rest.length then ([], [])
        else
          let (more, after) := readCommands after fuel
          (first :: more, after)

def readJoined (tokens : List (Nat × ScriptToken)) :
    Nat → Command × List (Nat × ScriptToken)
  | 0 => (default, tokens)
  | fuel + 1 =>
    let (first, after) := readOne tokens fuel
    joinRest first after fuel

def joinRest (first : Command) (tokens : List (Nat × ScriptToken)) :
    Nat → Command × List (Nat × ScriptToken)
  | 0 => (first, tokens)
  | fuel + 1 =>
    match tokens with
    | (_, .sign "&&") :: rest =>
      let (next, after) :=
        readOne (rest.dropWhile fun t => isSeparator t.2) fuel
      joinRest (.both first next) after fuel
    | (_, .sign "||") :: rest =>
      let (next, after) :=
        readOne (rest.dropWhile fun t => isSeparator t.2) fuel
      joinRest (.either first next) after fuel
    | _ => (first, tokens)

def readOne (tokens : List (Nat × ScriptToken)) :
    Nat → Command × List (Nat × ScriptToken)
  | 0 => (default, tokens)
  | fuel + 1 =>
    match nextPlain? tokens with
    | some "if" =>
      let (clauses, otherwise, after) := readClauses (tokens.drop 1) fuel
      (.choice clauses otherwise, after)
    | some "while" => readLoop true (tokens.drop 1) fuel
    | some "until" => readLoop false (tokens.drop 1) fuel
    | some "!" =>
      let (command, after) := readOne (tokens.drop 1) fuel
      (.negated command, after)
    | some "for" =>
      let name := (nextPlain? (tokens.drop 1)).getD ""
      let rest := tokens.drop 2
      let (words, rest) :=
        if nextPlain? rest == some "in" then
          let given := (rest.drop 1).takeWhile fun t => !isSeparator t.2
          (some (given.filterMap fun t =>
            match t.2 with | .word w => some w | _ => none),
            (rest.drop 1).drop given.length)
        else (none, rest)
      let (body, after) :=
        readCommands (expectPlain "do" (dropSeparators rest)) fuel
      (.each name words body, expectPlain "done" after)
    | _ =>
      let line := (tokens.head?.map (·.1)).getD 0
      readSimple line [] [] [] tokens (tokens.length + 1)

def readLoop (while_ : Bool) (tokens : List (Nat × ScriptToken)) :
    Nat → Command × List (Nat × ScriptToken)
  | 0 => (default, tokens)
  | fuel + 1 =>
    let (condition, rest) := readCommands tokens fuel
    let (body, after) := readCommands (expectPlain "do" rest) fuel
    (.loop while_ condition body, expectPlain "done" after)

def readClauses (tokens : List (Nat × ScriptToken)) :
    Nat →
    List (List Command × List Command) × List Command × List (Nat × ScriptToken)
  | 0 => ([], [], tokens)
  | fuel + 1 =>
    let (condition, rest) := readCommands tokens fuel
    let (body, rest) := readCommands (expectPlain "then" rest) fuel
    match nextPlain? rest with
    | some "elif" =>
      let (clauses, otherwise, after) := readClauses (rest.drop 1) fuel
      ((condition, body) :: clauses, otherwise, after)
    | some "else" =>
      let (otherwise, after) := readCommands (rest.drop 1) fuel
      ([(condition, body)], otherwise, expectPlain "fi" after)
    | _ => ([(condition, body)], [], expectPlain "fi" rest)

end

def readScript (cs : List Char) : List Command :=
  let tokens := scriptTokens 1 cs (cs.length + 1)
  (readCommands tokens (4 * tokens.length + 4)).1

end TaskShell.Program

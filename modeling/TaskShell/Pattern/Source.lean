import TaskShell.Pattern.Basic
import TaskShell.Pattern.Fault

/-!
# The pattern while it is read

A pattern is read as tokens: a character, or a backslash with the character
after it. A backslash at the very end is refused as soon as it comes next. The
reading keeps the position, the flags and the groups so far.
-/

namespace TaskShell.Pattern

open Text

inductive Token where
  | plain (c : Char)
  | escaped (c : Char)
  | dangling
  deriving DecidableEq, Repr

def tokensOf : List Char → List Token
  | [] => []
  | ['\\'] => [.dangling]
  | '\\' :: c :: rest => .escaped c :: tokensOf rest
  | c :: rest => .plain c :: tokensOf rest

def Token.text : Token → List Char
  | plain c => [c]
  | escaped c => ['\\', c]
  | dangling => ['\\']

structure Source where
  tokens : List Token
  position : Nat
  flags : Nat
  /-- Group names with their numbers, in the order of the pattern. -/
  names : List (List Char × Nat)
  /-- Widths of the groups by number; a group that is still open has none. -/
  widths : List (Option Width)
  /-- The number of groups at the start of the outermost look behind that is
  open. -/
  lookbehind : Option Nat
  /-- Numbers that conditions asked for, with the position of the first. -/
  asked : List (Nat × Nat)

abbrev Read := StateT Source (Except PatternFault)

namespace Read

/-- Refuses the pattern `back` characters before the current position. -/
def refuseBack {α : Type} (back : Nat) (cause : Cause) : Read α := do
  throw (.at_ cause ((← get).position - back))

/-- `refuseBack` at the current position. -/
def refuse {α : Type} (cause : Cause) : Read α :=
  refuseBack 0 cause

def peek : Read (Option Token) := do
  return (← get).tokens.head?

def tell : Read Nat := do
  return (← get).position

/-- Refuses a lone backslash that comes next. -/
def checkNext : Read Unit := do
  if (← get).tokens.head? == some .dangling then refuse .danglingEscape

def take : Read (Option Token) := do
  let s ← get
  match s.tokens with
  | [] => return none
  | t :: rest =>
    set { s with tokens := rest, position := s.position + t.text.length }
    checkNext
    return some t

/-- Takes the next token if it is the given character. -/
def accept (c : Char) : Read Bool := do
  if (← peek) == some (.plain c) then
    let _ ← take
    return true
  return false

/-- Takes up to `n` characters that satisfy `p`. -/
def takeWhile (p : Char → Bool) : Nat → Read (List Char)
  | 0 => return []
  | n + 1 => do
    match ← peek with
    | some (.plain c) =>
      if p c then
        let _ ← take
        return c :: (← takeWhile p n)
      else return []
    | _ => return []

/-- Takes characters up to `closing`, after `sofar`, nearest first. -/
def takeUntilFrom (closing : Char) (what : String) (sofar : List Char) :
    Nat → Read (List Char)
  | 0 => return sofar.reverse
  | fuel + 1 => do
    match ← take with
    | none =>
      if sofar.isEmpty then refuse (.missing what)
      else refuseBack sofar.length (.openName closing)
    | some t =>
      if t == .plain closing then
        if sofar.isEmpty then refuseBack 1 (.missing what)
        return sofar.reverse
      takeUntilFrom closing what (t.text.reverse ++ sofar) fuel

def takeUntil (closing : Char) (what : String) : Read (List Char) := do
  takeUntilFrom closing what [] ((← get).tokens.length + 1)

def checkName (name : List Char) : Read Unit := do
  if !isName name then refuseBack (name.length + 1) (.badGroupName name)

def isClosed (number : Nat) : Read Bool := do
  return ((← get).widths[number]?).join.isSome

/-- Refuses a reference inside a look behind to a group that is not complete
before it. -/
def checkLookbehind (number : Nat) : Read Unit := do
  match (← get).lookbehind with
  | none => return
  | some count =>
    if !(← isClosed number) then refuse .openGroup
    if number ≥ count then refuse .sameLookbehind

def openGroup (name : Option (List Char)) : Read Nat := do
  let s ← get
  let number := s.widths.length
  set { s with widths := s.widths ++ [none] }
  match name with
  | none => return number
  | some n =>
    match s.names.lookup n with
    | some before => refuseBack (n.length + 1) (.redefined n number before)
    | none =>
      modify fun s => { s with names := s.names ++ [(n, number)] }
      return number

def closeGroup (number : Nat) (body : List Item) : Read Unit :=
  modify fun s =>
    { s with widths := s.widths.set number (some (width s.widths body).cut) }

end Read

end TaskShell.Pattern

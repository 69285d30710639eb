import TaskShell.Shell.Builtin
import TaskShell.Shell.Flags

/-!
# Chains of commands

A positional word that names a command makes a chain:
`outer inner1 inner2 words` first runs the innermost command on the words after
it, then the others on its result from right to left, and last the outer command
with the result in place of the chain. Words in quotes do not start a chain. A
chain that cannot be run to its end is declined, and the line is then taken as a
plain command.
-/

namespace TaskShell.Shell

def isKnown (word : String) : Bool :=
  (Command.ofName? word).isSome || builtinNames.contains word

def isLink (text : Option String) (word : String) : Bool :=
  isKnown word && !wasQuoted word text

/-- Runs a `Builtin` or a `Command` by name; nothing if a builtin is not handled
or there is no command. -/
def runNamed (name : String) (args : Args) : Act (Option Value) := do
  if builtinNames.contains name then callBuiltin name args
  else
    match Command.ofName? name with
    | some c =>
      let v ← runCommand name c (.record args)
      pure (some v)
    | none => pure none

/-- `runNamed`; nothing if there is no such command or if it fails. -/
def runOrDecline (name : String) (args : Args) : Act (Option Value) := do
  let outcome ← Act.attempt (runNamed name args)
  match outcome with
  | .ok v => pure v
  | .error _ => pure none

/-- Runs commands one after the other, each on the result of the one before. -/
def runThrough : List String → Value → Act (Option Value)
  | [], v => pure (some v)
  | name :: rest, v => do
    let result ← runOrDecline name [("str", .text v.display)]
    match result with
    | some v => runThrough rest v
    | none => pure none

/-- Runs the innermost command of a chain with its words, and then the others
from right to left (`runThrough`). -/
def runChain (chain inner : List String) : Act (Option Value) := do
  match inner with
  | [] => pure none
  | name :: _ =>
    let result ← runOrDecline name (argsOf inner)
    match result with
    | some v => runThrough chain.dropLast.reverse v
    | none => pure none

/-- The first run of links (`isLink`) among positional words: how many words
stand before it, and its words. -/
def firstChain (text : Option String) :
    List String → Nat → Option (Nat × List String)
  | [], _ => none
  | word :: rest, before =>
    if isLink text word then
      some (before, (word :: rest).takeWhile (isLink text))
    else firstChain text rest (before + 1)

/-- The place of the first occurrence of a word in a command line, from a place
on. -/
def placeFrom? (parts : List String) (word : String)
    (start : Nat) : Option Nat :=
  ((parts.drop start).findIdx? (· == word)).map (· + start)

structure Located where
  chain : List String
  first : Nat
  last : Nat
  inner : Option Nat
  /-- The innermost command with the words after it. -/
  words : List String

def locate? (parts : List String) (text : Option String) : Option Located := do
  let words := positionals parts
  let places := positionalPlaces parts
  let (before, chain) ← firstChain text words 0
  let first ← places[before]?
  let innermost ← chain.getLast?
  let inner := placeFrom? parts innermost first
  let rest := match inner with
    | some i => parts.drop i
    | none => innermost :: words.drop (before + chain.length)
  some ⟨chain, first,
    (places[before + chain.length - 1]?).getD first, inner, rest⟩

/-- A command line with a value in place of a `Located` chain. -/
def substitute (parts : List String) (c : Located) (v : Value) : List String :=
  let last := (c.inner.getD c.first) + consumed c.words - 1
  parts.take c.first ++ [v.display] ++ parts.drop (max last c.last + 1)

/-- The result of a command line with a chain (`locate?`); nothing if it has
none or if the chain is declined. -/
def runComposed (command : String) (parts : List String)
    (text : Option String) : Act (Option String) := do
  match locate? parts text with
  | none => pure none
  | some c =>
    let inner ← runChain c.chain c.words
    match inner with
    | none => pure none
    | some v =>
      let result ← runOrDecline command (argsOf (substitute parts c v))
      pure (result.map Value.display)

/-- The result of the chain right after the first word of a command line, which
is not run itself; nothing if there is no chain or if it is declined. -/
def runInner (parts : List String) (text : Option String) :
    Act (Option String) := do
  let words := positionals parts
  let chain := words.takeWhile (isLink text)
  match chain.getLast? with
  | none => pure none
  | some innermost =>
    let rest := match placeFrom? parts innermost 1 with
      | some i => parts.drop i
      | none => innermost :: words.drop chain.length
    let result ← runChain chain rest
    pure (result.map Value.display)

end TaskShell.Shell

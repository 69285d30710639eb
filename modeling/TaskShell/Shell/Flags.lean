import TaskShell.Text.Blank
import TaskShell.Text.Search
import TaskShell.Value

/-!
# Flags and positional words

The words of a command line after the command are flags with their values, and
positional words. A word that starts with two dashes is a flag if another word
follows it; that word is its value. Several scans of the same words ask
different questions: the arguments, the positional words, their places, and the
number of words in all.
-/

namespace TaskShell.Shell

open Text

def isFlag (word : String) : Bool := startsWith word "--"

def flagName (word : String) : String := trimStartOf ['-'] word

/-- The flags with their values, and the positional words. -/
def collect : List String → Args → List String → Args × List String
  | [], args, words => (args, words.reverse)
  | [word], args, words => (args, (word :: words).reverse)
  | word :: value :: rest, args, words =>
    if isFlag word then
      collect rest (args.set (flagName word) (.text value)) words
    else collect (value :: rest) args (word :: words)

/-- The arguments of a command line whose first word is the command, by
`collect`. The positional words are joined, unless a flag takes their place. -/
def argsOf (parts : List String) : Args :=
  let (args, words) := collect (parts.drop 1) [] []
  if words.isEmpty || (args.get? "str").isSome then args
  else args.set "str" (.text (" ".intercalate words))

/-- The words that are neither flags nor their values. -/
def positionalFrom : List String → List String
  | [] => []
  | [word] => [word]
  | word :: value :: rest => if isFlag word then positionalFrom rest
      else word :: positionalFrom (value :: rest)

def positionals (parts : List String) : List String :=
  positionalFrom (parts.drop 1)

/-- The places of positional words, counted from `i`. -/
def placesFrom (i : Nat) : List String → List Nat
  | [] => []
  | [_] => [i]
  | word :: value :: rest =>
    if isFlag word then placesFrom (i + 2) rest
    else i :: placesFrom (i + 1) (value :: rest)

def positionalPlaces (parts : List String) : List Nat :=
  placesFrom 1 (parts.drop 1)

/-- The number of words that flags, their values and positional words take. -/
def sizeFrom : List String → Nat
  | [] => 0
  | [_] => 1
  | word :: value :: rest =>
    if isFlag word then sizeFrom rest + 2 else sizeFrom (value :: rest) + 1

/-- The number of words that a command takes, with itself (`sizeFrom`). -/
def consumed (parts : List String) : Nat := sizeFrom (parts.drop 1) + 1

/-- Whether a word stands in quotes, or as a reference, somewhere in a text. -/
def wasQuoted (word : String) (text : Option String) : Bool :=
  match text with
  | none => false
  | some text =>
    !text.isEmpty && (contains text ("\"" ++ word ++ "\"") || contains text
      ("'" ++ word ++ "'") || contains text ("$\x7b" ++ word ++ "\x7d"))

end TaskShell.Shell

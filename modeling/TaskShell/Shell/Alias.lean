import TaskShell.Words.Split
import TaskShell.World

/-!
# Aliases

The first word of a line may be an alias. It is replaced by its expansion, and
that again, a bounded number of times.
-/

namespace TaskShell.Shell

open Text

def aliasDepth : Nat := 5

/-- Replaces the alias at the start of a line, if there is one. -/
def expandAliasOnce (aliases : List (String × String)) (line : String) :
    Option String :=
  match Words.splitOrBlanks line with
  | [] => none
  | first :: rest =>
    (aliases.lookup first).map fun expansion =>
      if rest.isEmpty then expansion
      else expansion ++ " " ++ " ".intercalate rest

/-- Replaces aliases by `expandAliasOnce` as long as there are some, at most so
often. -/
def expandAliasesAtMost (aliases : List (String × String)) :
    Nat → String → String
  | 0, line => line
  | n + 1, line =>
    match expandAliasOnce aliases line with
    | some line => expandAliasesAtMost aliases n line
    | none => line

/-- Replaces aliases by `expandAliasesAtMost`; a blank line stays as it is. -/
def expandAliases (aliases : List (String × String)) (depth : Int)
    (line : String) : String :=
  if line.toList.all isBlank then line
  else expandAliasesAtMost aliases depth.toNat line

end TaskShell.Shell

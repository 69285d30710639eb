import TaskShell.Text.Quoted

/-!
# Faults of patterns

What can be wrong with a pattern, and the wording of each cause. A position
counts characters from the start of the pattern; in a pattern of several lines
the line and the column are given too.
-/

namespace TaskShell.Pattern

open Text

inductive Cause where
  | danglingEscape
  | incompleteEscape (text : List Char)
  | badEscape (text : List Char)
  | largeOctal (text : List Char)
  | missing (what : String)
  | openName (closing : Char)
  | unknownCharacter (name : List Char)
  | openGroup
  | sameLookbehind
  | noGroup (number : Nat)
  | openSet
  | badRange (low high : List Char)
  | reversedCounts
  | nothingToRepeat
  | repeatedRepeat
  | earlyEnd
  | badGroupName (name : List Char)
  | redefined (name : List Char) (number before : Nat)
  | unknownGroup (name : List Char)
  | unknownExtension (text : List Char)
  | openComment
  | openPart
  | thirdBranch
  | badGroupNumber
  | lateFlags
  | localeFlag
  | mixedTypes
  | unknownFlag
  | fixedTypes
  | globalOn
  | globalOff
  | onAndOff
  | unbalanced
  deriving Repr

def Cause.text : Cause → String
  | danglingEscape => "bad escape (end of pattern)"
  | incompleteEscape t => s!"incomplete escape {String.ofList t}"
  | badEscape t => s!"bad escape {String.ofList t}"
  | largeOctal t =>
    s!"octal escape value {String.ofList t} outside of range 0-0o377"
  | missing what => s!"missing {what}"
  | openName closing => s!"missing {closing}, unterminated name"
  | unknownCharacter name =>
    s!"undefined character name {quoted (String.ofList name)}"
  | openGroup => "cannot refer to an open group"
  | sameLookbehind =>
    "cannot refer to group defined in the same lookbehind subpattern"
  | noGroup number => s!"invalid group reference {number}"
  | openSet => "unterminated character set"
  | badRange low high =>
    s!"bad character range {String.ofList low}-{String.ofList high}"
  | reversedCounts => "min repeat greater than max repeat"
  | nothingToRepeat => "nothing to repeat"
  | repeatedRepeat => "multiple repeat"
  | earlyEnd => "unexpected end of pattern"
  | badGroupName name =>
    s!"bad character in group name {quoted (String.ofList name)}"
  | redefined name number before =>
    s!"redefinition of group name {quoted (String.ofList name)} as group {number}; was group {before}"
  | unknownGroup name => s!"unknown group name {quoted (String.ofList name)}"
  | unknownExtension t => s!"unknown extension ?{String.ofList t}"
  | openComment => "missing ), unterminated comment"
  | openPart => "missing ), unterminated subpattern"
  | thirdBranch => "conditional backref with more than two branches"
  | badGroupNumber => "bad group number"
  | lateFlags => "global flags not at the start of the expression"
  | localeFlag => "bad inline flags: cannot use 'L' flag with a str pattern"
  | mixedTypes => "bad inline flags: flags 'a', 'u' and 'L' are incompatible"
  | unknownFlag => "unknown flag"
  | fixedTypes => "bad inline flags: cannot turn off flags 'a', 'u' and 'L'"
  | globalOn => "bad inline flags: cannot turn on global flag"
  | globalOff => "bad inline flags: cannot turn off global flag"
  | onAndOff => "bad inline flags: flag turned on and off"
  | unbalanced => "unbalanced parenthesis"

inductive PatternFault where
  | at_ (cause : Cause) (position : Nat)
  | largeCount
  | typeClash
  | freeLookbehind
  deriving Repr

/-- The place of a position: how many line breaks stand before it, and its
distance from the last one. -/
def lineAndColumn (pattern : List Char) (position : Nat) : Nat × Nat :=
  let before := pattern.take position
  (before.count '\n' + 1, (before.reverse.takeWhile (· != '\n')).length + 1)

def PatternFault.message (pattern : List Char) : PatternFault → String
  | at_ cause position =>
    let main := s!"{cause.text} at position {position}"
    if pattern.contains '\n' then
      let (line, column) := lineAndColumn pattern position
      s!"{main} (line {line}, column {column})"
    else main
  | largeCount => "the repetition number is too large"
  | typeClash => "ASCII and UNICODE flags are incompatible"
  | freeLookbehind => "look-behind requires fixed-width pattern"

end TaskShell.Pattern

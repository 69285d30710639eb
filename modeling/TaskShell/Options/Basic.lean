import TaskShell.Value

/-!
# Option parsers

The description of a command line: the arguments a program takes, by name or by
position, the groups in which help lists them, and the commands that bring
parsers of their own.
-/

namespace TaskShell.Options

inductive Count where
  /-- One word, given as it is. -/
  | single
  /-- A fixed number of words, given as a list. -/
  | exactly (n : Nat)
  | optional
  | many
  | some_
  /-- All words that are left. -/
  | rest
  /-- A command and all words that are left. -/
  | command
  | suppressed
  deriving DecidableEq, Repr

inductive Effect where
  | store
  | storeConst
  | storeTrue
  | storeFalse
  | append
  | appendConst
  | count
  | help
  | version
  | commands
  | extend
  deriving DecidableEq, Repr

inductive Reading where
  | text
  | int
  | float
  deriving DecidableEq, Repr

def Reading.name : Reading → String
  | text => "str"
  | int => "int"
  | float => "float"

inductive Help where
  | none_
  | hidden
  | text (s : String)
  deriving DecidableEq, Repr

structure Listed where
  name : String
  label : String
  help : Help
  deriving Repr

structure Argument where
  /-- A number that tells the argument apart from others of its parser. -/
  id : Nat
  /-- The names with their leading dashes; an argument by position has none. -/
  names : List String
  /-- The field that receives the value; none if nothing is kept. -/
  field : Option String
  effect : Effect
  count : Count
  const : Value
  /-- The value if the argument is not given; none if the field is then left
  out. -/
  fallback : Option Value
  reading : Option Reading
  choices : Option (List Value)
  required : Bool
  help : Help
  label : Option Value
  version : Option String
  deprecated : Bool
  /-- Names of commands with the number of the parser of each. -/
  commands : List (String × Nat)
  listed : List Listed
  retired : List String
  /-- What the names of command parsers start with. -/
  commandProg : String
  deriving Repr

structure Group where
  title : Option String
  description : Option String
  members : List Nat
  deriving Repr

structure Exclusive where
  required : Bool
  members : List Nat
  /-- The group whose help lists the members; none for the parser itself. -/
  within : Option Nat
  deriving Repr

inductive Layout where
  | plain
  | rawDescription
  | rawText
  | withDefaults
  | withTypes
  deriving DecidableEq, Repr

structure Parser where
  prog : String
  usage : Option String
  description : Option String
  epilog : Option String
  layout : Layout
  prefixes : List Char
  filePrefixes : Option (List Char)
  fallback : Option Value
  replaces : Bool
  abbreviates : Bool
  exits : Bool
  suggests : Bool
  defaults : List (String × Value)
  arguments : List Argument
  /-- Names with the numbers of their arguments, in the order they were
  added. -/
  names : List (String × Nat)
  groups : List Group
  exclusives : List Exclusive
  hasNegativeNames : Bool
  commandGroup : Option Nat
  nextId : Nat
  deriving Repr

def positionalGroup : Nat := 0

def optionGroup : Nat := 1

/-- Why a parser could not be made, or a command line not be read. -/
inductive OptionFault where
  | argument (message : String)
  | value (message : String)
  | kind (message : String)
  /-- A place outside a text. -/
  | index (message : String)
  | missing (name : String)
  | member (message : String)
  deriving DecidableEq, Repr

def OptionFault.message : OptionFault → String
  | argument m | value m | kind m | index m | missing m | member m => m

/-- The points on which two readings of command lines differ. -/
structure Manner where
  /-- Whether only a whole number counts as a negative number, and not just its
  start. -/
  wholeNumbers : Bool
  quotedChoices : Bool
  /-- Whether an ambiguous name is refused before anything is read. -/
  earlyAmbiguity : Bool
  /-- Whether unknown letters after a flag are refused. -/
  refusesTail : Bool
  /-- Whether a short name is cut at the equals sign before names are compared
  with it. -/
  cutsShort : Bool
  deriving Inhabited

def Manner.installed : Manner := ⟨true, true, true, true, false⟩

def Manner.free : Manner := ⟨false, false, false, false, true⟩

namespace Argument

def plain (field : String) : Argument where
  id := 0
  names := []
  field := some field
  effect := .store
  count := .single
  const := .null
  fallback := some .null
  reading := none
  choices := none
  required := false
  help := .none_
  label := none
  version := none
  deprecated := false
  commands := []
  listed := []
  retired := []
  commandProg := ""

def isNamed (a : Argument) : Bool := !a.names.isEmpty

def labelText? (a : Argument) : Option String := a.label.map Value.display

def choiceLabel (choices : List Value) : String :=
  "\x7b" ++ ",".intercalate (choices.map Value.display) ++ "\x7d"

/-- The choices of an argument; those of commands are their names. -/
def allChoices (a : Argument) : Option (List Value) :=
  if a.effect == .commands then some (a.commands.map fun c => .text c.1)
  else a.choices

def title? (a : Argument) : Option String :=
  if a.isNamed then some ("/".intercalate a.names)
  else match a.labelText? with
    | some label => some label
    | none =>
      match a.field with
      | some field => some field
      | none =>
        match a.allChoices with
        | some choices =>
          if choices.isEmpty then none else some (choiceLabel choices)
        | none => none

def fault (a : Argument) (message : String) : OptionFault :=
  match a.title? with
  | some title => .argument s!"argument {title}: {message}"
  | none => .argument message

end Argument

namespace Parser

def argument? (p : Parser) (id : Nat) : Option Argument :=
  p.arguments.find? fun a => a.id == id

def named? (p : Parser) (name : String) : Option Argument :=
  (p.names.lookup name).bind p.argument?

def positionals (p : Parser) : List Argument :=
  p.arguments.filter fun a => !a.isNamed

def isPrefixChar (p : Parser) (c : Char) : Bool := p.prefixes.contains c

end Parser

end TaskShell.Options

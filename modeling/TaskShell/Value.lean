import TaskShell.Number.Double
import TaskShell.Text.Quoted

/-!
# Values

Arguments and results of commands are dynamic values: nothing, a truth value, a
number, a text, a list or a record. The module gives their display forms and the
names by which messages call their kinds.
-/

namespace TaskShell

open Text Number

inductive Value where
  | null
  | bool (b : Bool)
  | int (i : Int)
  | float (x : Float)
  | text (s : String)
  | list (items : List Value)
  | record (fields : List (String × Value))
  deriving Repr, Inhabited

namespace Value

def kind : Value → String
  | null => "NoneType"
  | bool _ => "bool"
  | int _ => "int"
  | float _ => "float"
  | text _ => "str"
  | list _ => "list"
  | record _ => "dict"

/-- Whether a value counts as given: not nothing, not false, not zero and not
empty. -/
def isTruthy : Value → Bool
  | null => false
  | bool b => b
  | int i => i != 0
  | float x => !(x == 0)
  | text s => !s.isEmpty
  | list items => !items.isEmpty
  | record fields => !fields.isEmpty

mutual

def shown : Value → String
  | null => "None"
  | bool true => "True"
  | bool false => "False"
  | int i => toString i
  | float x => floatText x
  | text s => quoted s
  | list items => "[" ++ shownItems items ++ "]"
  | record fields => "\x7b" ++ shownFields fields ++ "\x7d"

/-- The quoted forms of list items (`shown`), with commas between them. -/
def shownItems : List Value → String
  | [] => ""
  | [v] => v.shown
  | v :: rest => v.shown ++ ", " ++ shownItems rest

/-- The quoted forms of record fields (`shown`), with commas between them. -/
def shownFields : List (String × Value) → String
  | [] => ""
  | [(k, v)] => quoted k ++ ": " ++ v.shown
  | (k, v) :: rest => quoted k ++ ": " ++ v.shown ++ ", " ++ shownFields rest

end

/-- The plain form of a value: a text stands for itself. -/
def display : Value → String
  | text s => s
  | v => v.shown

def text? : Value → Option String
  | text s => some s
  | _ => none

end Value

/-- Named arguments in the order they were given. -/
abbrev Args := List (String × Value)

namespace Args

def get? (args : Args) (name : String) : Option Value :=
  args.lookup name

/-- The argument of a name, or else `fallback`. -/
def getD (args : Args) (name : String) (fallback : Value) : Value :=
  (args.get? name).getD fallback

/-- The argument of a name if it counts as given, or else `fallback`. -/
def givenOr (args : Args) (name : String) (fallback : Value) : Value :=
  match args.get? name with
  | some v => if v.isTruthy then v else fallback
  | none => fallback

def without (args : Args) (names : List String) : Args :=
  args.filter fun a => !names.contains a.1

/-- Sets an argument; a name that is already there keeps its place. -/
def set (args : Args) (name : String) (v : Value) : Args :=
  match args with
  | [] => [(name, v)]
  | (k, old) :: rest =>
    if k == name then (k, v) :: rest else (k, old) :: set rest name v

end Args

end TaskShell

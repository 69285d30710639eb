import TaskShell.Calc.Evaluate
import TaskShell.Options.Parse

/-!
# The calculator program

The calculator evaluates the expression it is given, or else applies a named
operation to one or two numbers.
-/

namespace TaskShell.Calc

open Options

structure Printout where
  out : String
  err : String
  code : Nat
  deriving DecidableEq, Repr

def operationNames : List String :=
  ["add", "sub", "mul", "div", "pow", "mod", "sqrt", "log"]

def operatorOf? : String → Option BinaryOp
  | "add" => some .add
  | "sub" => some .sub
  | "mul" => some .mul
  | "div" => some .div
  | "pow" => some .pow
  | "mod" => some .mod
  | _ => none

def parts : List (Option String × Part) :=
  [(none, .argument ["--input"]
      [("type", .text "str"),
        ("help", .text "Mathematischer Ausdruck, z.B. '2+2*3'")]),
    (none, .argument ["--operation"]
      [("choices", .list (operationNames.map .text)),
        ("help", .text "Operation (add, sub, mul, div, pow, mod, sqrt, log)")]),
    (none, .argument ["--a"] [("type", .text "float"),
      ("help", .text "Erster Wert")]),
    (none, .argument ["--b"] [("type", .text "float"),
      ("help", .text "Zweiter Wert (optional)")])]

def commandLine (prog : String) (columns : Nat) : Except OptionFault Draft :=
  Draft.build prog [("description",
    .text "Kommandozeilen-Rechner mit Argumenten")] columns parts

def numberIn? (fields : List (String × Value)) (name : String) :
    Option Quantity :=
  match fields.lookup name with
  | some (.float x) => some (.float x)
  | _ => none

def operate (name : String) (a b : Option Quantity) :
    Except CalcFault String := do
  match operatorOf? name with
  | some op =>
    match a, b with
    | some a, some b => (← a.apply op b).text
    | _, _ => throw (.value "Operation benötigt --a und --b")
  | none =>
    match a with
    | some a => (← applyFunction name [.number a]).display
    | none => throw (.value "Operation benötigt --a")

def report (result : Except CalcFault String) : Printout :=
  match result with
  | .ok s => ⟨s ++ "\n", "", 0⟩
  | .error f => ⟨"", s!"[Fehler] {f.message}\n", 1⟩

/-- Does what the fields of a command line ask for. -/
def answer (help : String) (fields : List (String × Value)) : Printout :=
  match fields.lookup "input" with
  | some (.text (input)) =>
    if input.isEmpty then byOperation else report (calculate input.toList)
  | _ => byOperation
where
  /-- Applies the named operation; without one prints the help. -/
  byOperation : Printout :=
    match fields.lookup "operation" with
    | some (.text name) =>
      report (operate name (numberIn? fields "a") (numberIn? fields "b"))
    | _ => ⟨help, "", 0⟩

def run (manner : Manner) (prog : String) (columns : Nat)
    (words : List String) : Printout :=
  match commandLine prog columns with
  | .error f => ⟨"", f.message ++ "\n", 1⟩
  | .ok draft =>
    let env : Surroundings := ⟨manner, columns, fun name => .error name⟩
    let help := match draft.parser 0 with
      | .ok p => helpText p columns
      | .error _ => ""
    match (draft.call env (.parse words)).run ⟨"", ""⟩ with
    | (.ok (.fields fields _), _) => answer help fields
    | (.ok (.text s), _) => ⟨s, "", 0⟩
    | (.error (.exit code), console) => ⟨console.out, console.err, code⟩
    | (.error (.fault f), console) =>
      ⟨console.out, console.err ++ f.message ++ "\n", 1⟩

end TaskShell.Calc

import TaskShell.Options.Parse

/-!
# The command line of the shell

The shell takes the number of its workers, a script to run, a script to bundle,
and a bundle to run.
-/

namespace TaskShell.App

open Options

structure Orders where
  workers : Int
  script : Option String
  compile : Option String
  binary : Option String
  deriving DecidableEq, Repr

def programName : String := "app.py"

def arguments : List (Option String × Part) :=
  [(none, .argument ["--thread-count"]
      [("type", .text "int"), ("default", .int 4),
        ("help", .text "Anzahl der Worker Threads")]),
    (none, .argument ["--script"] [("type", .text "str"), ("help",
      .text "Run a LUW script file and exit")]), (none, .argument ["--compile"]
      [("type", .text "str"), ("help",
        .text "Compile a LUW script to a .le binary (no external tools)")]),
    (none, .argument ["--binary"] [("type", .text "str"),
      ("help", .text "Run a compiled LUW binary (.le)")])]

def commandLine (columns : Nat) : Except OptionFault Draft :=
  Draft.build programName [("description", .text "LUW Shell Initializer")]
    columns arguments

/-- The text in a field; an empty one counts as none. -/
def textIn? (fields : List (String × Value)) (name : String) : Option String :=
  match fields.lookup name with
  | some (.text s) => if s.isEmpty then none else some s
  | _ => none

def ordersOf (fields : List (String × Value)) : Orders where
  workers := match fields.lookup "thread_count" with
    | some (.int n) => n
    | _ => 4
  script := textIn? fields "script"
  compile := textIn? fields "compile"
  binary := textIn? fields "binary"

/-- What reading a command line leads to, and what it prints. -/
structure Outcome where
  /-- The `Orders`, or the code with which the shell ends at once. -/
  orders : Except Nat Orders
  console : Console

/-- Reads a command line; words that it does not know are left alone. -/
def readOrders (columns : Nat) (words : List String) : Outcome :=
  match commandLine columns with
  | .error f => ⟨.error 1, ⟨"", f.message ++ "\n"⟩⟩
  | .ok draft =>
    let env : Surroundings := ⟨.installed, columns, fun name => .error name⟩
    match (draft.call env (.known words)).run ⟨"", ""⟩ with
    | (.ok (.fields fields _), console) => ⟨.ok (ordersOf fields), console⟩
    | (.ok (.text _), console) => ⟨.error 0, console⟩
    | (.error (.exit code), console) => ⟨.error code, console⟩
    | (.error (.fault f), console) =>
      ⟨.error 1, { console with err := console.err ++ f.message ++ "\n" }⟩

end TaskShell.App

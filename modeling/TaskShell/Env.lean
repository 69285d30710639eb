import TaskShell.Fault

/-!
# Environment variables

Named texts in the order in which they were first set.
-/

namespace TaskShell

/-- Environment variables in insertion order. -/
abbrev Env := List (String × String)

namespace Env

def get? (env : Env) (name : String) : Option String :=
  env.lookup name

def get (env : Env) (name : String) : String :=
  (env.get? name).getD ""

/-- Sets a variable; one that is already set keeps its place. -/
def set : Env → String → String → Env
  | [], name, value => [(name, value)]
  | (k, old) :: rest, name, value =>
    if k == name then (k, value) :: rest else (k, old) :: set rest name value

def unset (env : Env) (name : String) : Env :=
  env.filter fun entry => entry.1 != name

def assign (env : Env) (name value : String) : Except Fault Env :=
  if name.contains '\x00' || value.contains '\x00' then
    .error (.value .nullByte)
  else if name.contains '=' then
    .error (.value (.other "illegal environment variable name"))
  else if name.isEmpty then .error (.system .invalid [])
  else .ok (env.set name value)

end Env

end TaskShell

import TaskShell.Env
import TaskShell.Path.Posix
import TaskShell.Text.Blank

/-!
# Homes and variables in paths

A leading tilde stands for the home directory of a user, and a dollar sign
before a name for the value of a variable. What is not known stays as it is.
-/

namespace TaskShell.Path

open Text

/-- The home directory of a user; without a name, that of the current one, for
whom the environment comes first. -/
def homeOf (homes : String → Option String) (env : Env) (user : String) :
    Option String :=
  if user.isEmpty then (env.get? "HOME").or (homes "") else homes user

/-- Puts a home directory in place of a leading tilde. -/
def expandHome (homes : String → Option String) (env : Env)
    (p : String) : String :=
  match p.toList with
  | '~' :: rest =>
    let user := rest.takeWhile (· != '/')
    match homeOf homes env (String.ofList user) with
    | none => p
    | some home =>
      let whole := trimEndOf ['/'] home ++ String.ofList (rest.drop user.length)
      if whole.isEmpty then "/" else whole
  | _ => p

def isVariableChar (c : Char) : Bool := c.isAlphanum || c == '_'

/-- The name of a variable after a dollar sign, with the length of what names
it. -/
def variableAt? (cs : List Char) : Option (List Char × Nat) :=
  match cs with
  | '\x7b' :: rest =>
    let name := rest.takeWhile (· != '\x7d')
    if name.length < rest.length then some (name, name.length + 2) else none
  | _ =>
    let name := cs.takeWhile isVariableChar
    if name.isEmpty then none else some (name, name.length)

/-- Puts values in place of variables; `fuel` bounds the number of
characters. -/
def expandFrom (env : Env) : List Char → Nat → List Char
  | cs, 0 => cs
  | [], _ => []
  | '$' :: rest, fuel + 1 =>
    match variableAt? rest with
    | none => '$' :: expandFrom env rest fuel
    | some (name, size) =>
      let value := match env.get? (String.ofList name) with
        | some value => value.toList
        | none => '$' :: rest.take size
      value ++ expandFrom env (rest.drop size) fuel
  | c :: rest, fuel + 1 => c :: expandFrom env rest fuel

def expandVariables (env : Env) (p : String) : String :=
  String.ofList (expandFrom env p.toList p.length)

end TaskShell.Path

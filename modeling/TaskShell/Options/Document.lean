import TaskShell.Options.Parse

/-!
# Command lines as documents

A command line can be described by a document: a list of parts, each a record
that says what is added and where.
-/

namespace TaskShell.Options

def textField? (fields : Args) (name : String) : Option String :=
  textOf (fields.get? name)

/-- The fields of a record; another value has none. -/
def recordOf : Option Value → Args
  | some (.record fields) => fields
  | _ => []

def wordsOf : Option Value → List String
  | some (.list items) => items.map Value.display
  | _ => []

/-- The part that a record describes, with the container it is for. -/
def Part.ofRecord? (fields : Args) : Option (Option String × Part) :=
  let settings := recordOf (fields.get? "kwargs")
  let part : Option Part :=
    if (fields.get? "add").isSome then
      some (.argument (wordsOf (fields.get? "add")) settings)
    else if (fields.get? "defaults").isSome then
      some (.defaults (recordOf (fields.get? "defaults")))
    else
      match textField? fields "group", textField? fields "exclusive",
          textField? fields "subparsers", textField? fields "command" with
      | some title, _, _, _ =>
        some (.group title (textField? fields "description"))
      | _, some name, _, _ =>
        some (.exclusive name (truthOf (fields.get? "required") false))
      | _, _, some name, _ => some (.commands name settings)
      | _, _, _, some name => some (.command name settings)
      | _, _, _, _ => none
  part.map fun part => (textField? fields "in", part)

def Call.ofKind (kind : String) (words : List String) : Call :=
  match kind with
  | "known" => .known words
  | "parse" => .parse words
  | "intermixed" => .mixed words
  | "help" => .help
  | _ => .usage

def Answer.record : Answer → Args
  | .fields given rest =>
    [("args", .record given)] ++ match rest with
      | some words => [("rest", .list (words.map .text))]
      | none => []
  | .text s => [("text", .text s)]

end TaskShell.Options

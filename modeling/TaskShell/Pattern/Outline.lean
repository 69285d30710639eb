import TaskShell.Pattern.Reader
import TaskShell.Value

/-!
# Outlines of patterns

The form of a pattern as a value: every item is a list of the name of its kind
and what belongs to it.
-/

namespace TaskShell.Pattern

def Category.name : Category → String
  | digit => "CATEGORY_DIGIT"
  | notDigit => "CATEGORY_NOT_DIGIT"
  | space => "CATEGORY_SPACE"
  | notSpace => "CATEGORY_NOT_SPACE"
  | word => "CATEGORY_WORD"
  | notWord => "CATEGORY_NOT_WORD"

def Anchor.name : Anchor → String
  | beginning => "AT_BEGINNING"
  | ending => "AT_END"
  | textStart => "AT_BEGINNING_STRING"
  | textEnd => "AT_END_STRING"
  | boundary => "AT_BOUNDARY"
  | notBoundary => "AT_NON_BOUNDARY"

def Greed.name : Greed → String
  | greedy => "MAX_REPEAT"
  | lazy => "MIN_REPEAT"
  | possessive => "POSSESSIVE_REPEAT"

def labelled (name : String) (v : Value) : Value := .list [.text name, v]

def Member.outline : Member → Value
  | literal code => labelled "LITERAL" (.int code)
  | range low high => labelled "RANGE" (.list [.int low, .int high])
  | category c => labelled "CATEGORY" (.text c.name)

def numberOr (n : Option Nat) (fallback : Value) : Value :=
  match n with
  | some n => .int n
  | none => fallback

mutual

def outlineItem : Item → Value
  | .literal code => labelled "LITERAL" (.int code)
  | .notLiteral code => labelled "NOT_LITERAL" (.int code)
  | .any => labelled "ANY" .null
  | .set negated members =>
    labelled "IN" (.list ((if negated then [labelled "NEGATE" .null] else []) ++
      members.map Member.outline))
  | .anchor place => labelled "AT" (.text place.name)
  | .branch alternatives =>
    labelled "BRANCH" (.list [.null, .list (outlineBranches alternatives)])
  | .group number on off body =>
    labelled "SUBPATTERN" (.list [numberOr number .null, .int on, .int off,
      .list (outline body)])
  | .atomic body => labelled "ATOMIC_GROUP" (.list (outline body))
  | .repetition greed low high body =>
    labelled greed.name (.list [.int low, numberOr high (.text "MAXREPEAT"),
      .list (outline body)])
  | .reference n => labelled "GROUPREF" (.int n)
  | .condition n yes none =>
    labelled "GROUPREF_EXISTS" (.list [.int n, .list (outline yes), .null])
  | .condition n yes (some no) =>
    labelled "GROUPREF_EXISTS"
      (.list [.int n, .list (outline yes), .list (outline no)])
  | .look ahead holds body =>
    labelled (if holds then "ASSERT" else "ASSERT_NOT")
      (.list [.int (if ahead then 1 else -1), .list (outline body)])
  | .failure => labelled "FAILURE" (.list [])

def outline : List Item → List Value
  | [] => []
  | item :: rest => outlineItem item :: outline rest

def outlineBranches : List (List Item) → List Value
  | [] => []
  | items :: rest => .list (outline items) :: outlineBranches rest

end

def widthLimit : Nat := 1000000000

/-- What is known of a pattern that was read, by name. -/
def Form.summary (form : Form) : List (String × Value) :=
  let cut (n : Nat) : Value := .int (min n widthLimit)
  [("tree", .list (outline form.items)),
    ("groups", .int (form.widths.length - 1)), ("names",
      .record (form.names.map fun (name, n) => (String.ofList name, .int n))),
      ("flags", .int form.flags),
      ("width", .list [cut form.width.least, cut form.width.greatest])]

end TaskShell.Pattern

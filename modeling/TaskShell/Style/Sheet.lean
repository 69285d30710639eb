import TaskShell.Style.Colors
import TaskShell.Text.Blank
import TaskShell.Text.Quoted
import TaskShell.Text.Search

/-!
# Style sheets

A style sheet gives looks to classes. A style names classes and looks, one after
the other; later ones count more than earlier ones, and a rule for several
classes counts as soon as all of them are named.
-/

namespace TaskShell.Style

open Text

inductive Mark where
  | bold
  | underline
  | strike
  | italic
  | blink
  | reverse
  | hidden
  | dim
  deriving DecidableEq, Repr

def marks : List (String × Mark) :=
  [("bold", .bold), ("underline", .underline), ("strike", .strike),
    ("italic", .italic), ("blink", .blink), ("reverse", .reverse),
    ("hidden", .hidden), ("dim", .dim)]

/-- A look, as far as it is given. An empty colour is that of the terminal. -/
structure Look where
  color : Option String
  ground : Option String
  /-- Marks that are set or taken away, the last one first. -/
  marked : List (Mark × Bool)
  deriving Repr

namespace Look

def none_ : Look := ⟨none, none, []⟩

def plain : Look := ⟨some "", some "", marks.map fun (_, m) => (m, false)⟩

def atop (top base : Look) : Look :=
  ⟨top.color.orElse fun _ => base.color, top.ground.orElse fun _ => base.ground,
    top.marked ++ base.marked⟩

def has (look : Look) (m : Mark) : Bool := (look.marked.lookup m).getD false

end Look

inductive StyleFault where
  | color (name : String)
  | classes (names : String)
  deriving DecidableEq, Repr

def StyleFault.message : StyleFault → String
  | color name =>
    let shown := quoted name
    s!"Wrong color format {shown}"
  | classes names => quoted names

/-- The colour of six hexadecimal digits, or of three that are doubled. -/
def hexColor? : List Char → Option String
  | [a, b, c] => some (String.ofList [a, a, b, b, c, c])
  | cs => if cs.length == 6 then some (String.ofList cs) else none

def readColor (s : String) : Except StyleFault String :=
  let found := (paletteColor? s).orElse fun _ =>
      (namedColors.lookup (lower s)).orElse fun _ =>
    match s.toList with
    | '#' :: digits =>
      (paletteColor? (String.ofList digits)).orElse fun _ => hexColor? digits
    | _ => if s == "" || s == "default" then some s else none
  match found with
  | some c => .ok c
  | none => .error (.color s)

def isIdleWord (s : String) : Bool :=
  ["noinherit", "roman", "sans", "mono"].contains s || startsWith s "border:" ||
    (startsWith s "[" && endsWith s "]")

def addWord (look : Look) (word : String) : Except StyleFault Look := do
  let after (n : Nat) : String := String.ofList (word.toList.drop n)
  if let some m := marks.lookup word then
    return { look with marked := (m, true) :: look.marked }
  if startsWith word "no" then
    if let some m := marks.lookup (after 2) then
      return { look with marked := (m, false) :: look.marked }
  if isIdleWord word then return look
  if startsWith word "bg:" then
    return { look with ground := some (← readColor (after 3)) }
  return { look with
    color :=
      some (← readColor (if startsWith word "fg:" then after 3 else word)) }

def readLook (s : String) : Except StyleFault Look :=
  (words s).foldlM addWord (if contains s "noinherit" then .plain else .none_)

structure Rule where
  classes : List String
  look : Look
  deriving Repr

def isClassText (s : String) : Bool :=
  s.toList.all fun c => c.isLower || c.isDigit || c == '.' || c == '_' ||
    c == '-' || isBlank c

/-- Puts a rule among others; one for the same text takes its place. -/
def putRule : List (String × String) → String × String → List (String × String)
  | [], r => [r]
  | q :: rest, r => if q.1 == r.1 then r :: rest else q :: putRule rest r

def readSheet (rules : List (String × String)) :
    Except StyleFault (List Rule) :=
  (rules.foldl putRule []).mapM fun (names, look) => do
    if !isClassText names then throw (.classes names)
    return ⟨words names, ← readLook look⟩

/-- A class with those that it belongs to: `a.b` belongs to `a`. -/
def withOwners (name : String) : List String :=
  let parts := pieces '.' name
  (List.range parts.length).map fun i => ".".intercalate (parts.take (i + 1))

/-- The looks of the rules that a class completes, the last one first, after
others were named. -/
def completed (sheet : List Rule) (named : List String)
    (new : String) : List Look :=
  let rules := sheet.filter fun r => r.classes.contains new &&
    r.classes.all fun c => c == new || named.contains c
  (rules.map Rule.look).reverse

/-- Names a class: its looks go over those so far. -/
def nameClass (sheet : List Rule) (so : Look × List String) (new : String) :
    Look × List String :=
  ((completed sheet so.2 new).foldr (fun top base => top.atop base) so.1,
    new :: so.2)

/-- Adds a word of a style: classes, by `nameClass`, or a look. -/
def addPart (sheet : List Rule) (so : Look × List String) (part : String) :
    Except StyleFault (Look × List String) :=
  match afterStart? "class:".toList part.toList with
  | some names =>
    .ok (((pieces ',' (lower (String.ofList names))).flatMap withOwners).foldl
      (nameClass sheet) so)
  | none => (readLook part).map fun look => (look.atop so.1, so.2)

def lookOf (sheet : List Rule) (style : String) : Except StyleFault Look := do
  let base := (sheet.filter fun r => r.classes.isEmpty).foldl (fun base r =>
    r.look.atop base) Look.plain
  return (← (words style).foldlM (addPart sheet) (base, [])).1

end TaskShell.Style

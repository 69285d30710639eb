import TaskShell.Env
import TaskShell.Number.Reading
import TaskShell.Options.Basic
import TaskShell.Options.Wrap

/-!
# Help texts

The usage line and the help of a parser. Usage wraps between arguments; the help
of an argument starts in a column of its own, on the next line if the argument's
name is too long.
-/

namespace TaskShell.Options

open Text

/-! ## Placeholders -/

def placeholder? (prog : String) (a : Argument) (key : String) : Option Value :=
  let reading := match a.reading with
    | some r => .text r.name
    | none => .null
  match key with
  | "prog" => some (.text prog)
  | "default" => a.fallback
  | "dest" => a.field.map .text
  | "const" => some a.const
  | "type" => some reading
  | "metavar" => some (a.label.getD .null)
  | "required" => some (.bool a.required)
  | "deprecated" => some (.bool a.deprecated)
  | "option_strings" => some (.list (a.names.map .text))
  | "choices" =>
    match a.allChoices with
    | some choices =>
      some (.text (", ".intercalate (choices.map Value.display)))
    | none => some .null
  | "help" =>
    match a.help with
    | .text s => some (.text s)
    | _ => some .null
  | "nargs" =>
    match a.count with
    | .single => some .null
    | .exactly n => some (.int n)
    | .optional => some (.text "?")
    | .many => some (.text "*")
    | .some_ => some (.text "+")
    | .rest => some (.text "...")
    | .command => some (.text "A...")
    | .suppressed => none
  | _ => none

/-- Replaces the placeholders of a text; nothing if one is not well formed or
not known. -/
def expandFrom (value? : String → Option Value) :
    List Char → Nat → Option (List Char)
  | _, 0 => some []
  | [], _ => some []
  | '%' :: '%' :: rest, fuel + 1 => (expandFrom value? rest fuel).map ('%' :: ·)
  | '%' :: '(' :: rest, fuel + 1 => do
    let key := String.ofList (rest.takeWhile (· != ')'))
    let after := rest.drop (key.length + 1)
    match after with
    | [] => none
    | c :: after =>
      let v ← value? key
      let text ←
        if c == 's' then some v.display
        else if c == 'r' then some v.shown
        else if c == 'd' || c == 'i' then
          match v with
          | .int i => some (toString i)
          | .bool b => some (if b then "1" else "0")
          | _ => none
        else none
      (expandFrom value? after fuel).map (text.toList ++ ·)
  | '%' :: _, _ => none
  | c :: rest, fuel + 1 => (expandFrom value? rest fuel).map (c :: ·)

def expand (value? : String → Option Value) (s : String) : Option String :=
  (expandFrom value? s.toList (s.length + 1)).map String.ofList

def helpSource (layout : Layout) (a : Argument) : Option String :=
  let text := match a.help with
    | .text s => some s
    | _ => none
  if layout == .withDefaults then
    let s := text.getD ""
    let wanted := a.fallback.isSome &&
      (a.isNamed || a.count == .optional || a.count == .many)
    some (if !contains s "%(default)" && wanted then
      s ++ " (default: %(default)s)" else s)
  else text

def expandHelp (layout : Layout) (prog : String) (a : Argument) :
    Option String :=
  match helpSource layout a with
  | none => some ""
  | some s => if s.contains '%' then expand (placeholder? prog a) s else some s

/-! ## Labels -/

def defaultLabel (layout : Layout) (a : Argument) : String :=
  if layout == .withTypes then
    match a.reading with
    | some r => r.name
    | none => "None"
  else
    let field := a.field.getD "==SUPPRESS=="
    if a.isNamed then upper field else field

def wordLabel (layout : Layout) (a : Argument) : String :=
  match a.labelText? with
  | some label => label
  | none =>
    match a.allChoices with
    | some choices => Argument.choiceLabel choices
    | none => defaultLabel layout a

def wordsText (layout : Layout) (a : Argument) : String :=
  let label := wordLabel layout a
  match a.count with
  | .single => label
  | .optional => s!"[{label}]"
  | .many => s!"[{label} ...]"
  | .some_ => s!"{label} [{label} ...]"
  | .rest => "..."
  | .command => s!"{label} ..."
  | .suppressed => ""
  | .exactly n => " ".intercalate (List.replicate n label)

def heading (layout : Layout) (a : Argument) : String :=
  if !a.isNamed then wordLabel layout a
  else
    let names := ", ".intercalate a.names
    if a.count == .exactly 0 then names else names ++ " " ++ wordsText layout a

/-! ## Usage -/

/-- A run of arguments that exclude each other: where it starts and ends, and
whether one is required. -/
structure Bracket where
  start : Nat
  stop : Nat
  required : Bool

def placeIn? (id : Nat) (ids : List Nat) : Option Nat :=
  ids.findIdx? (· == id)

/-- The runs of exclusive arguments that stand side by side among the given
arguments. -/
def brackets (p : Parser) (arguments : List Argument) : List Bracket :=
  let ids := arguments.map (·.id)
  p.exclusives.filterMap fun group =>
    let members := group.members.filterMap p.argument?
    if members.all (·.help == .hidden) then none
    else
      match group.members.mapM (placeIn? · ids) with
      | none => none
      | some places =>
        let start := places.foldl min (places.headD 0)
        let stop := start + group.members.length
        let inside := (ids.drop start).take group.members.length
        if inside.all group.members.contains &&
            group.members.all inside.contains then
          some ⟨start, stop, group.required⟩
        else none

/-- The text of an argument in the usage line; nothing for a hidden one. -/
def usagePart (layout : Layout) (bracketed : Bool) (a : Argument) :
    Option String :=
  if a.help == .hidden then none
  else if !a.isNamed then
    let part := wordsText layout a
    if bracketed && startsWith part "[" && endsWith part "]" then
      some (String.ofList (part.toList.drop 1).dropLast)
    else some part
  else
    let name := a.names.headD ""
    let part :=
      if a.count == .exactly 0 then name else name ++ " " ++ wordsText layout a
    some (if !a.required && !bracketed then s!"[{part}]" else part)

def joinBracket (parts : List (Option String)) (b : Bracket) :
    List (Option String) :=
  let inside := ((parts.drop b.start).take (b.stop - b.start)).filterMap id
  let size := inside.length
  let (opener, closer) :=
    if b.required then (if size > 1 then ("(", ")") else ("", ""))
    else ("[", "]")
  let marked := inside.zipIdx.map fun (part, i) =>
    let part := if i == 0 then opener ++ part else part
    let part := if i + 1 == size then part ++ closer else part
    some (if i + 1 == size then part else part ++ " |")
  parts.take b.start ++ marked ++
    List.replicate (b.stop - b.start - size) none ++ parts.drop b.stop

def usageParts (p : Parser) (arguments : List Argument) : List String :=
  let bs := brackets p arguments
  let members := bs.flatMap fun b =>
    ((arguments.map (·.id)).drop b.start).take (b.stop - b.start)
  let parts :=
    arguments.map fun a => usagePart p.layout (members.contains a.id) a
  let sorted := bs.mergeSort fun a b => a.start ≥ b.start
  (sorted.foldl joinBracket parts).filterMap id

/-- Fills lines with parts. `line` is the current line and `size` its length. -/
def fillParts (width indent : Nat) (line : List String) (size : Nat) :
    List String → List String
  | [] => if line.isEmpty then [] else [" ".intercalate line]
  | part :: rest =>
    if size + 1 + part.length > width && !line.isEmpty then
      " ".intercalate line ::
        fillParts width indent [part] (indent + part.length) rest
    else fillParts width indent (line ++ [part]) (size + 1 + part.length) rest

def partLines (width indent : Nat) (parts : List String) : List String :=
  (fillParts width indent [] (indent - 1) parts).map (copies indent ' ' ++ ·)

/-- The usage text of arguments after a lead such as `usage: `. -/
def usageText (p : Parser) (lead : String) (width : Nat)
    (arguments : List Argument) : String :=
  let named := arguments.filter (·.isNamed)
  let placed := arguments.filter (!·.isNamed)
  let whole := " ".intercalate
    ((p.prog :: usageParts p (named ++ placed)).filter (!·.isEmpty))
  if lead.length + whole.length ≤ width then whole
  else
    let namedParts := usageParts p named
    let placedParts := usageParts p placed
    let lines :=
      if 4 * (lead.length + p.prog.length) ≤ 3 * width then
        let indent := lead.length + p.prog.length + 1
        let first := fun (parts : List String) =>
          match fillParts width indent [] (lead.length - 1) (p.prog :: parts)
              with
          | [] => []
          | l :: rest => l :: rest.map (copies indent ' ' ++ ·)
        if !namedParts.isEmpty then
          first namedParts ++ partLines width indent placedParts
        else if !placedParts.isEmpty then first placedParts
        else [p.prog]
      else
        let indent := lead.length
        let all := partLines width indent (namedParts ++ placedParts)
        let lines :=
          if all.length > 1 then partLines width indent namedParts ++
            partLines width indent placedParts else all
        p.prog :: lines
    "\n".intercalate lines

def usageSection (p : Parser) (lead : String) (width : Nat)
    (arguments : List Argument) : String :=
  let body := match p.usage with
    | some u => (expand (fun key => if key == "prog" then some (.text p.prog)
        else none) u).getD u
    | none =>
      if arguments.isEmpty then p.prog else usageText p lead width arguments
  lead ++ body ++ "\n\n"

/-! ## Sections -/

def paragraph (layout : Layout) (prog : String) (width indent : Nat)
    (s : String) : String :=
  let s := if contains s "%(prog)" then
      (expand (fun key => if key == "prog" then some (.text prog)
        else none) s).getD s
    else s
  let margin := copies indent ' '
  let body :=
    if layout == .rawDescription || layout == .rawText then
      String.join ((linesKept s.toList []).map (margin ++ ·))
    else
      let room := max (width - indent) 11
      joinLines ((wrapText (room - indent) (squeeze s)).map (margin ++ ·))
  body ++ "\n\n"
where
  /-- The lines of a text with their line ends; `line` is the current line,
  nearest character first. -/
  linesKept : List Char → List Char → List String
    | [], line => if line.isEmpty then [] else [String.ofList line.reverse]
    | '\r' :: '\n' :: rest, line =>
      String.ofList ('\n' :: '\r' :: line).reverse :: linesKept rest []
    | c :: rest, line =>
      if isLineBreak c then
        String.ofList (c :: line).reverse :: linesKept rest []
      else linesKept rest (c :: line)

structure Columns where
  width : Nat
  limit : Nat
  longest : Nat

def helpLines (layout : Layout) (width : Nat) (s : String) : List String :=
  if layout == .rawText then lines s else wrapText width (squeeze s)

def entry (layout : Layout) (columns : Columns) (indent : Nat) (head : String)
    (given : Bool) (text : String) :
    String :=
  let position := min (columns.longest + 2) columns.limit
  let room := max (columns.width - position) 11
  let headRoom := position - indent - 2
  let margin := copies indent ' '
  let blank := text.toList.all isBlank
  if !given then margin ++ head ++ "\n"
  else
    let short := head.length ≤ headRoom
    let first := if short then margin ++ padRight headRoom head ++ "  "
      else margin ++ head ++ "\n"
    if blank then if short then first ++ "\n" else first
    else
      match helpLines layout room text with
      | [] => first
      | l :: rest =>
        let lead := if short then "" else copies position ' '
        first ++ lead ++ l ++ "\n" ++
          String.join (rest.map fun l => copies position ' ' ++ l ++ "\n")

def ownEntry (p : Parser) (columns : Columns) (indent : Nat)
    (a : Argument) : String :=
  match a.help with
  | .text s =>
    if s.toList.all isBlank then
      entry p.layout columns indent (heading p.layout a) (!s.isEmpty) ""
    else entry p.layout columns indent (heading p.layout a) true
      ((expandHelp p.layout p.prog a).getD "")
  | .none_ => entry p.layout columns indent (heading p.layout a) false ""
  | .hidden =>
    entry p.layout columns indent (heading p.layout a) true "==SUPPRESS=="

def Listed.argument (item : Listed) : Argument :=
  { Argument.plain item.name with
    label := some (.text item.label), help := item.help }

def argumentEntry (p : Parser) (columns : Columns) (indent : Nat)
    (a : Argument) : String :=
  ownEntry p columns indent a ++
    String.join (a.listed.map fun item =>
      ownEntry p columns (indent + 2) item.argument)

def headingLengths (layout : Layout) (indent : Nat) (a : Argument) : List Nat :=
  if a.help == .hidden then []
  else ((heading layout a).length + indent) :: a.listed.map fun item =>
    item.label.length + indent + 2

/-- Drops line breaks at the ends, and ends with one. -/
def tidy (s : String) : String :=
  let cs := collapse s.toList 0
  let body := trimNewlines cs
  if body.isEmpty && s.isEmpty then "" else String.ofList body ++ "\n"
where
  /-- Cuts runs of line breaks to two. -/
  collapse : List Char → Nat → List Char
    | [], _ => []
    | '\n' :: rest, n =>
      if n ≥ 2 then collapse rest n else '\n' :: collapse rest (n + 1)
    | c :: rest, _ => c :: collapse rest 0
  trimNewlines (cs : List Char) : List Char :=
    ((cs.dropWhile (· == '\n')).reverse.dropWhile (· == '\n')).reverse

/-- Whether the layout names an argument by its reading and the argument has
none. -/
def lacksReading (layout : Layout) (a : Argument) : Bool :=
  layout == .withTypes && a.help != .hidden && a.reading.isNone &&
    a.count != .exactly 0

def readingFault : OptionFault :=
  .member "'NoneType' object has no attribute '__name__'"

def formatUsage (p : Parser) (terminal : Nat) : Except OptionFault String :=
  if p.usage.isNone && p.arguments.any (lacksReading p.layout) then
    .error readingFault
  else .ok (tidy (usageSection p "usage: " (terminal - 2) p.arguments))

/-- What command parsers put before their own names. -/
def commandLead (p : Parser) (terminal : Nat) : Except OptionFault String :=
  if p.positionals.any (lacksReading p.layout) then .error readingFault
  else .ok (trim (tidy
    (usageSection { p with usage := none } "" (terminal - 2) p.positionals)))

def helpText (p : Parser) (terminal : Nat) : String :=
  let width := terminal - 2
  let members := fun (g : Group) => g.members.filterMap p.argument?
  let lengths :=
    p.groups.flatMap fun g => (members g).flatMap (headingLengths p.layout 2)
  let columns : Columns :=
    ⟨width, min 24 (max (width - 20) 4), lengths.foldl max 0⟩
  let text := fun (indent : Nat) (s : Option String) =>
    match s with
    | some s => paragraph p.layout p.prog width indent s
    | none => ""
  let section_ := fun (g : Group) =>
    let entries := (members g).map fun a => if a.help == .hidden then ""
      else argumentEntry p columns 2 a
    let body := text 2 g.description ++ String.join entries
    if body.isEmpty then ""
    else
      let head := match g.title with
        | some title => title ++ ":\n"
        | none => ""
      "\n" ++ head ++ body ++ "\n"
  tidy (usageSection p "usage: " width p.arguments ++ text 0 p.description ++
    String.join (p.groups.map section_) ++ text 0 p.epilog)

/-- The help of a parser, unless the layout cannot name an argument. -/
def formatHelp (p : Parser) (terminal : Nat) : Except OptionFault String :=
  if p.arguments.any (lacksReading p.layout) then .error readingFault
  else .ok (helpText p terminal)

/-- The number of columns of the terminal as the environment gives it, or
eighty. -/
def columnsOf (given : Option Int) : Nat :=
  match given with
  | some n => if n > 0 then n.toNat else 80
  | none => 80

/-! ## The width of the terminal -/

def sizeIn (env : Env) (name : String) : Option Int :=
  (env.get? name).bind fun s =>
    match Number.readInt s with
    | .ok n => some n
    | .error _ => none

/-- Columns and lines of the terminal, where the environment may give either. -/
def terminalSize (env : Env) (fallback : Int × Int) : Int × Int :=
  let pick (name : String) (other : Int) : Int :=
    match sizeIn env name with
    | some n => if n ≤ 0 then other else n
    | none => other
  (pick "COLUMNS" fallback.1, pick "LINES" fallback.2)

def terminalColumns (env : Env) : Nat := columnsOf (sizeIn env "COLUMNS")

end TaskShell.Options

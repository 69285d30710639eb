import TaskShell.Options.Help

/-!
# Building parsers

Parsers are built part by part: arguments, groups, exclusive groups and
commands, each added to a container that an earlier part made. The settings of a
part are dynamic values, so adding a part may be refused.
-/

namespace TaskShell.Options

open Text

def isZero : Value → Bool
  | .int i => i == 0
  | .bool b => !b
  | .float x => x == 0
  | _ => false

def helpOf : Option Value → Help
  | some (.text "==SUPPRESS==") => .hidden
  | some (.text s) => .text s
  | some .null => .none_
  | some v => .text v.display
  | none => .none_

def textOf : Option Value → Option String
  | some .null => none
  | some v => some v.display
  | none => none

def truthOf (v : Option Value) (fallback : Bool) : Bool :=
  match v with
  | some v => v.isTruthy
  | none => fallback

def countOf : Option Value → Except OptionFault Count
  | none | some .null => .ok .single
  | some (.text "?") => .ok .optional
  | some (.text "*") => .ok .many
  | some (.text "+") => .ok .some_
  | some (.text "...") => .ok .rest
  | some (.text "A...") => .ok .command
  | some (.text "==SUPPRESS==") => .ok .suppressed
  | some (.int i) => .ok (.exactly i.toNat)
  | some (.bool b) => .ok (.exactly (if b then 1 else 0))
  | some _ => .error (.value "invalid nargs value")

def readingOf : Option Value → Except OptionFault (Option Reading)
  | none | some .null => .ok none
  | some (.text "str") => .ok (some .text)
  | some (.text "int") => .ok (some .int)
  | some (.text "float") => .ok (some .float)
  | some v => .error (.kind s!"{v.shown} is not callable")

def choicesOf : Option Value → Except OptionFault (Option (List Value))
  | none | some .null => .ok none
  | some (.list items) => .ok (some items)
  | some (.text s) =>
    .ok (some (s.toList.map fun c => .text (String.singleton c)))
  | some (.record fields) => .ok (some (fields.map fun f => .text f.1))
  | some _ => .error (.value "length of metavar tuple does not match nargs")

/-! ## Effects -/

def effectOf : Option Value → Except OptionFault Effect
  | none | some .null => .ok .store
  | some (.text "store") => .ok .store
  | some (.text "store_const") => .ok .storeConst
  | some (.text "store_true") => .ok .storeTrue
  | some (.text "store_false") => .ok .storeFalse
  | some (.text "append") => .ok .append
  | some (.text "append_const") => .ok .appendConst
  | some (.text "count") => .ok .count
  | some (.text "help") => .ok .help
  | some (.text "version") => .ok .version
  | some (.text "parsers") => .ok .commands
  | some (.text "extend") => .ok .extend
  | some v => .error (.value s!"unknown action {v.shown}")

def Effect.maker : Effect → String
  | .store => "_StoreAction"
  | .storeConst => "_StoreConstAction"
  | .storeTrue => "_StoreTrueAction"
  | .storeFalse => "_StoreFalseAction"
  | .append | .extend => "_AppendAction"
  | .appendConst => "_AppendConstAction"
  | .count => "_CountAction"
  | .help => "_HelpAction"
  | .version => "_VersionAction"
  | .commands => "_SubParsersAction"

/-- The settings that an effect takes, apart from names and field. -/
def Effect.settings : Effect → List String
  | .store | .append | .extend =>
    ["nargs", "const", "default", "type", "choices", "required", "help",
      "metavar", "deprecated"]
  | .storeConst | .appendConst =>
    ["const", "default", "required", "help", "metavar", "deprecated"]
  | .storeTrue | .storeFalse | .count =>
    ["default", "required", "help", "deprecated"]
  | .help => ["default", "help", "deprecated"]
  | .version => ["version", "default", "help", "deprecated"]
  | .commands => ["prog", "parser_class", "required", "help", "metavar"]

def Effect.takesWords : Effect → Bool
  | .store | .append | .extend | .commands => true
  | _ => false

def Effect.unknown? (effect : Effect) (settings : Args) : Option String :=
  (settings.find? fun s => !("dest" :: effect.settings).contains s.1).map (·.1)

/-! ## Arguments -/

def refuseValue {α : Type} (message : String) : Except OptionFault α :=
  .error (.value message)

def refuseKind {α : Type} (message : String) : Except OptionFault α :=
  .error (.kind message)

/-- The field and names of an argument by position, with its settings. -/
def positionalSettings (names : List String) (settings : Args) :
    Except OptionFault (String × Args) := do
  let field ← match names, settings.get? "dest" with
    | name :: _, none => pure name
    | _ :: _, some _ =>
      refuseKind
        "dest supplied twice for positional argument, did you mean metavar?"
    | [], some v => pure v.display
    | [], none =>
      refuseKind "_ActionsContainer._get_positional_kwargs() missing 1 required positional argument: 'dest'"
  if (settings.get? "required").isSome then
    refuseKind "'required' is an invalid argument for positionals"
  let count := settings.getD "nargs" .null
  if isZero count then refuseValue "nargs for positionals must be != 0"
  let free := match count with
    | .text s => ["?", "*", "...", "==SUPPRESS=="].contains s
    | _ => false
  let settings := settings.without ["dest"]
  pure (field, if free then settings else settings.set "required" (.bool true))

def isLong (p : Parser) (name : String) : Bool :=
  match name.toList with
  | _ :: c :: _ => p.isPrefixChar c
  | _ => false

def namedField (p : Parser) (names : List String) (settings : Args) :
    Except OptionFault String := do
  names.forM fun name =>
    match name.toList with
    | [] => throw (.index "string index out of range")
    | c :: _ =>
      if p.isPrefixChar c then pure ()
      else
        let shown := quoted name
        let starts := quoted (String.ofList p.prefixes)
        refuseValue s!"invalid option string {shown}: must start with a character {starts}"
  match textOf (settings.get? "dest") with
  | some field => pure field
  | none =>
    let chosen := (names.find? (isLong p)).getD (names.headD "")
    let field := String.ofList (chosen.toList.dropWhile p.isPrefixChar)
    if field.isEmpty then
      let shown := quoted (names.getLastD "")
      refuseKind s!"dest= is required for options like {shown}"
    else pure (replace field "-" "_")

def fallbackOf (p : Parser) (effect : Effect) (field : String)
    (settings : Args) : Option Value :=
  match settings.get? "default" with
  | some v => some v
  | none =>
    match p.defaults.lookup field with
    | some v => some v
    | none =>
      match p.fallback with
      | some v => some v
      | none =>
        match effect with
        | .storeTrue => some (.bool false)
        | .storeFalse => some (.bool true)
        | .help | .version => none
        | _ => some .null

def makeArgument (p : Parser) (names : List String) (settings : Args) :
    Except OptionFault Argument := do
  let byPosition ← match names with
    | [] => pure true
    | [name] =>
      match name.toList with
      | [] => throw (.index "string index out of range")
      | c :: _ => pure (!p.isPrefixChar c)
    | _ => pure false
  let (field, settings, names) ←
    if byPosition then do
      let (field, settings) ← positionalSettings names settings
      pure (field, settings, [])
    else do
      let field ← namedField p names settings
      pure (field, settings.without ["dest"], names)
  let action := settings.get? "action"
  let effect ← effectOf action
  let settings := settings.without ["action"]
  if let some name := effect.unknown? settings then
    let shown := quoted name
    refuseKind
      s!"{effect.maker}.__init__() got an unexpected keyword argument {shown}"
  if effect == .commands then
    refuseKind "_SubParsersAction.__init__() missing 2 required positional arguments: 'prog' and 'parser_class'"
  let const := settings.getD "const" .null
  let words := settings.getD "nargs" .null
  let optional := match words with
    | .text "?" => true
    | _ => false
  if effect.takesWords then
    if isZero words then
      if effect == .store then
        refuseValue ("nargs for store actions must be != 0; if you have nothing to store, actions such as store " ++
          "true or store const may be more appropriate")
      else
        refuseValue ("nargs for append actions must be != 0; if arg strings are not supplying the value to append, " ++
          "the append const action may be more appropriate")
    match const with
    | .null => pure ()
    | _ =>
      if optional then pure ()
      else refuseValue "nargs must be '?' to supply const"
  if names.isEmpty && !effect.takesWords then
    let shown := (action.getD .null).shown
    refuseValue s!"action {shown} is not valid for positional arguments"
  let reading ← readingOf (settings.get? "type")
  let choices ← choicesOf (settings.get? "choices")
  let count ← if effect.takesWords then countOf (settings.get? "nargs")
    else pure (.exactly 0)
  let help := match effect, helpOf (settings.get? "help") with
    | .version, .none_ => .text "show program's version number and exit"
    | _, help => help
  let label := match effect, settings.get? "metavar" with
    | .storeConst, _ | _, none | _, some .null => none
    | _, some v => some v
  let const := match effect with
    | .storeTrue => .bool true
    | .storeFalse => .bool false
    | _ => const
  pure { Argument.plain field with
    id := p.nextId
    names
    effect
    count
    const
    reading
    choices
    help
    label
    fallback := fallbackOf p effect field settings
    required := truthOf (settings.get? "required") false
    version := textOf (settings.get? "version")
    deprecated :=
      effect != .version && truthOf (settings.get? "deprecated") false }

def helpIsSound (p : Parser) (a : Argument) : Bool :=
  match a.help with
  | .text s => s.isEmpty || (expandHelp p.layout p.prog a).isSome
  | _ => true

/-! ## Adding to a parser -/

/-- Whether a text starts like a negative number: a dash, perhaps a point, and a
digit. -/
def startsNegative (s : String) : Bool :=
  match s.toList with
  | '-' :: '.' :: c :: _ => isDecimal c
  | '-' :: c :: _ => isDecimal c
  | _ => false

/-- Whether a text is a negative number: a dash and digits, with or without a
point. -/
def isNegative (s : String) : Bool :=
  match s.toList with
  | '-' :: rest =>
    let whole := rest.takeWhile isDecimal
    let after := rest.dropWhile isDecimal
    match after with
    | [] => !whole.isEmpty
    | ['\n'] => !whole.isEmpty
    | '.' :: places =>
      let places :=
        if places.getLast? == some '\n' then places.dropLast else places
      !places.isEmpty && places.all isDecimal
    | _ => false
  | _ => false

/-- Removes a name from an argument, and the argument itself when it has no
other name. -/
def Parser.dropName (p : Parser) (name : String) (id : Nat) : Parser :=
  let arguments := p.arguments.map fun a =>
    if a.id == id then { a with names := a.names.filter (· != name) } else a
  let empty := arguments.any fun a => a.id == id && a.names.isEmpty
  { p with
    arguments := if empty then arguments.filter (·.id != id) else arguments
    names := p.names.filter (·.1 != name)
    groups := if empty then p.groups.map fun g =>
      { g with members := g.members.filter (· != id) } else p.groups }

def Parser.insert (p : Parser) (a : Argument) (group : Nat) :
    Except OptionFault Parser := do
  let clashes :=
    a.names.filterMap fun name => (p.names.lookup name).map fun id => (name, id)
  if !clashes.isEmpty && !p.replaces then
    let plural := if clashes.length == 1 then "" else "s"
    let list := ", ".intercalate (clashes.map (·.1))
    throw (a.fault s!"conflicting option string{plural}: {list}")
  let p := clashes.foldl (fun p clash => p.dropName clash.1 clash.2) p
  pure { p with
    arguments := p.arguments ++ [a]
    names := a.names.foldl (fun names name => names.filter (·.1 != name) ++
      [(name, a.id)]) p.names
    groups := p.groups.zipIdx.map fun (g, i) =>
      if i == group then { g with members := g.members ++ [a.id] } else g
    hasNegativeNames := p.hasNegativeNames || a.names.any startsNegative
    nextId := p.nextId + 1 }

def ownGroup (a : Argument) : Nat :=
  if a.isNamed then optionGroup else positionalGroup

def parserSettings : List String :=
  ["prog", "usage", "description", "epilog", "parents", "formatter_class",
    "prefix_chars", "fromfile_prefix_chars", "argument_default",
    "conflict_handler", "add_help", "allow_abbrev", "exit_on_error",
    "suggest_on_error", "color"]

def layoutOf : Option Value → Layout
  | some (.text "RawDescriptionHelpFormatter") => .rawDescription
  | some (.text "RawTextHelpFormatter") => .rawText
  | some (.text "ArgumentDefaultsHelpFormatter") => .withDefaults
  | some (.text "MetavarTypeHelpFormatter") => .withTypes
  | _ => .plain

def Parser.ofSettings (prog : String) (settings : Args) :
    Except OptionFault Parser := do
  if let some (name, _) := settings.find? fun s =>
      !parserSettings.contains s.1 then
    let shown := quoted name
    refuseKind
      s!"ArgumentParser.__init__() got an unexpected keyword argument {shown}"
  let prefixes := (settings.getD "prefix_chars" (.text "-")).display.toList
  let handler := settings.getD "conflict_handler" (.text "error")
  let replaces ← match handler with
    | .text "error" => pure false
    | .text "resolve" => pure true
    | v =>
      let shown := v.shown
      refuseValue s!"invalid conflict_resolution value: {shown}"
  let fallback := match settings.get? "argument_default" with
    | some .null | none => none
    | some v => some v
  let base : Parser := {
    prog := (textOf (settings.get? "prog")).getD prog
    usage := textOf (settings.get? "usage")
    description := textOf (settings.get? "description")
    epilog := textOf (settings.get? "epilog")
    layout := layoutOf (settings.get? "formatter_class")
    prefixes
    filePrefixes :=
      (textOf (settings.get? "fromfile_prefix_chars")).map String.toList
    fallback
    replaces
    abbreviates := truthOf (settings.get? "allow_abbrev") true
    exits := truthOf (settings.get? "exit_on_error") true
    suggests := truthOf (settings.get? "suggest_on_error") false
    defaults := []
    arguments := []
    names := []
    groups := [⟨some "positional arguments", none, []⟩,
      ⟨some "options", none, []⟩]
    exclusives := []
    hasNegativeNames := false
    commandGroup := none
    nextId := 0 }
  let lead ← match prefixes with
    | [] => throw (.index "string index out of range")
    | c :: _ => pure (if prefixes.contains '-' then '-' else c)
  let base ←
    if truthOf (settings.get? "add_help") true then
      let help : Argument := { Argument.plain "help" with
        names := [String.ofList [lead, 'h'],
          String.ofList [lead, lead, 'h', 'e', 'l', 'p']]
        effect := .help
        count := .exactly 0
        fallback := none
        help := .text "show this help message and exit" }
      base.insert help optionGroup
    else pure base
  match settings.get? "parents" with
  | some (.list (_ :: _)) =>
    refuseKind "parents must be a list of ArgumentParser"
  | _ => pure base

/-! ## Containers -/

inductive Container where
  | parser (number : Nat)
  | group (number group : Nat)
  | exclusive (number place : Nat)
  | commands (number id : Nat)
  deriving DecidableEq, Repr

inductive Part where
  | argument (names : List String) (settings : Args)
  | group (title : String) (description : Option String)
  | exclusive (name : String) (required : Bool)
  | commands (name : String) (settings : Args)
  | command (name : String) (settings : Args)
  | defaults (settings : Args)
  deriving Repr

/-- A description of a command line that is being built; parser 0 is the main
one. -/
structure Draft where
  parsers : List Parser
  containers : List (String × Container)
  columns : Nat

namespace Draft

def ofSettings (prog : String) (settings : Args) (columns : Nat) :
    Except OptionFault Draft := do
  let p ← Parser.ofSettings prog settings
  pure ⟨[p], [], columns⟩

def parser (d : Draft) (number : Nat) : Except OptionFault Parser :=
  match d.parsers[number]? with
  | some p => .ok p
  | none => .error (.missing (toString number))

def setParser (d : Draft) (number : Nat) (p : Parser) : Draft :=
  { d with parsers := d.parsers.set number p }

def name (d : Draft) (key : String) (c : Container) : Draft :=
  { d with containers := (key, c) :: d.containers }

def Container.number : Container → Nat
  | .parser n | .group n _ | .exclusive n _ | .commands n _ => n

def Container.maker : Container → String
  | .parser _ => "ArgumentParser"
  | .group _ _ => "_ArgumentGroup"
  | .exclusive _ _ => "_MutuallyExclusiveGroup"
  | .commands _ _ => "_SubParsersAction"

/-- The refusal of a part that a container does not take. -/
def lacks {α : Type} (c : Container) (operation : String) :
    Except OptionFault α :=
  let maker := Container.maker c
  .error (.member s!"'{maker}' object has no attribute '{operation}'")

def addArgument (d : Draft) (c : Container) (names : List String)
    (settings : Args) : Except OptionFault Draft := do
  let n := Container.number c
  let p ← d.parser n
  let a ← makeArgument p names settings
  match c with
  | .parser _ =>
    if !helpIsSound p a then refuseValue "badly formed help string"
    let p ← p.insert a (ownGroup a)
    pure (d.setParser n p)
  | .group _ g =>
    let p ← p.insert a g
    pure (d.setParser n p)
  | .exclusive _ x =>
    if a.required then
      refuseValue "mutually exclusive arguments must be optional"
    let group := ((p.exclusives[x]?).bind (·.within)).getD (ownGroup a)
    let p ← p.insert a group
    let exclusives := p.exclusives.zipIdx.map fun (e, i) =>
      if i == x then { e with members := e.members ++ [a.id] } else e
    pure (d.setParser n { p with exclusives })
  | .commands _ _ => lacks c "add_argument"

def addGroup (d : Draft) (c : Container) (title : String)
    (description : Option String) :
    Except OptionFault Draft := do
  match c with
  | .parser n =>
    let p ← d.parser n
    pure ((d.setParser n { p with groups := p.groups ++
      [⟨some title, description, []⟩] }).name title (.group n p.groups.length))
  | .group _ _ | .exclusive _ _ =>
    refuseValue "argument groups cannot be nested"
  | .commands _ _ => lacks c "add_argument_group"

def addExclusive (d : Draft) (c : Container) (key : String) (required : Bool) :
    Except OptionFault Draft := do
  let add := fun (n : Nat) (within : Option Nat) => do
    let p ← d.parser n
    pure ((d.setParser n { p with exclusives := p.exclusives ++
      [⟨required, [], within⟩] }).name key (.exclusive n p.exclusives.length))
  match c with
  | .parser n => add n none
  | .group n g => add n (some g)
  | .exclusive _ _ => refuseValue "mutually exclusive groups cannot be nested"
  | .commands _ _ => lacks c "add_mutually_exclusive_group"

def addCommands (d : Draft) (c : Container) (key : String) (settings : Args) :
    Except OptionFault Draft := do
  match c with
  | .parser n =>
    let p ← d.parser n
    if p.commandGroup.isSome then
      refuseValue "cannot have multiple subparser arguments"
    let titled :=
      (settings.get? "title").isSome || (settings.get? "description").isSome
    let group := if titled then p.groups.length else positionalGroup
    let title := (settings.getD "title" (.text "subcommands")).display
    let p := if titled then
        { p with groups := p.groups ++
          [⟨some title, textOf (settings.get? "description"), []⟩] }
      else p
    let settings := settings.without ["title", "description"]
    let lead ← match textOf (settings.get? "prog") with
      | some prog => pure prog
      | none => commandLead p d.columns
    if let some name := Effect.commands.unknown? settings then
      let shown := quoted name
      refuseKind s!"_SubParsersAction.__init__() got an unexpected keyword argument {shown}"
    let label := match settings.get? "metavar" with
      | none | some .null => none
      | some v => some v
    let a : Argument := { Argument.plain "" with
      id := p.nextId
      field := textOf (settings.get? "dest")
      effect := .commands
      count := .command
      required := truthOf (settings.get? "required") false
      help := helpOf (settings.get? "help")
      label
      commandProg := lead }
    if !helpIsSound p a then refuseValue "badly formed help string"
    let p ← p.insert a group
    pure ((d.setParser n { p with commandGroup := some group }).name key
      (.commands n a.id))
  | _ => lacks c "add_subparsers"

def aliasesOf : Option Value → List String
  | some (.list items) => items.map Value.display
  | some (.text s) => s.toList.map String.singleton
  | _ => []

def addCommand (d : Draft) (c : Container) (key : String) (settings : Args) :
    Except OptionFault Draft := do
  match c with
  | .commands n id =>
    let p ← d.parser n
    let some a := p.argument? id | .error (.missing key)
    let aliases := aliasesOf (settings.get? "aliases")
    let known := fun (name : String) => a.commands.any (·.1 == name)
    if known key then refuseValue s!"conflicting subparser: {key}"
    if let some alias_ := aliases.find? known then
      refuseValue s!"conflicting subparser alias: {alias_}"
    let help := helpOf (settings.get? "help")
    let label := if aliases.isEmpty then key
      else
        let list := ", ".intercalate aliases
        s!"{key} ({list})"
    let item : Listed := ⟨key, label, help⟩
    let own := settings.without ["help", "aliases", "deprecated"]
    let sub ← Parser.ofSettings (a.commandProg ++ " " ++ key) own
    let listed := (settings.get? "help").isSome
    if listed && !helpIsSound sub item.argument then
      refuseValue "badly formed help string"
    let number := d.parsers.length
    let spellings := key :: aliases
    let a := { a with
      commands := a.commands ++ spellings.map fun s => (s, number)
      listed := if listed then a.listed ++ [item] else a.listed
      retired :=
        if truthOf (settings.get? "deprecated") false then
          a.retired ++ spellings
        else a.retired }
    let p := { p with arguments := p.arguments.map fun b =>
      if b.id == id then a else b }
    let d := d.setParser n p
    pure ({ d with parsers := d.parsers ++ [sub] }.name key (.parser number))
  | _ => lacks c "add_parser"

def addDefaults (d : Draft) (c : Container) (settings : Args) :
    Except OptionFault Draft := do
  match c with
  | .commands _ _ => lacks c "set_defaults"
  | _ =>
    let n := Container.number c
    let p ← d.parser n
    let arguments := p.arguments.map fun a =>
      match a.field.bind settings.get? with
      | some v => { a with fallback := some v }
      | none => a
    let defaults := settings.foldl (fun defaults (key, v) =>
      Args.set defaults key v) p.defaults
    pure (d.setParser n { p with arguments, defaults })

/-- Adds a part to the container of a name; without a name, to the main
parser. -/
def add (d : Draft) (into : Option String) (part : Part) :
    Except OptionFault Draft := do
  let c ← match into with
    | none => pure (Container.parser 0)
    | some key =>
      match d.containers.lookup key with
      | some c => pure c
      | none => throw (.missing (quoted key))
  match part with
  | .argument names settings => d.addArgument c names settings
  | .group title description => d.addGroup c title description
  | .exclusive key required => d.addExclusive c key required
  | .commands key settings => d.addCommands c key settings
  | .command key settings => d.addCommand c key settings
  | .defaults settings => d.addDefaults c settings

def build (prog : String) (settings : Args) (columns : Nat)
    (parts : List (Option String × Part)) :
    Except OptionFault Draft := do
  let d ← ofSettings prog settings columns
  parts.foldlM (fun d part => d.add part.1 part.2) d

end Draft

end TaskShell.Options

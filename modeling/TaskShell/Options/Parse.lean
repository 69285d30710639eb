import TaskShell.Options.Build
import TaskShell.Options.Similar

/-!
# Reading command lines

A command line is first marked word by word: a word that names an argument, a
plain word, or the mark `--` after which all words are plain. Arguments then
take as many of the following words as their counts allow, named arguments in
the order they stand, arguments by position as early as possible.
-/

namespace TaskShell.Options

open Text Number

/-! ## Marks and counts -/

inductive Mark where
  | plain
  | name
  | divider
  deriving DecidableEq, Repr

/-- A step in counting words: a number of words of certain marks. -/
inductive CountStep where
  | one (marks : List Mark)
  | optional (marks : List Mark)
  | many (marks : List Mark)

def countSteps (a : Argument) : List CountStep :=
  let dividers := CountStep.many [.divider]
  if a.isNamed then
    match a.count with
    | .single => [.one [.plain]]
    | .optional => [.optional [.plain]]
    | .many => [.many [.plain]]
    | .some_ => [.one [.plain], .many [.plain]]
    | .rest => [.many [.plain, .name]]
    | .command => [.one [.plain], .many [.plain, .name]]
    | .suppressed => []
    | .exactly n => List.replicate n (.one [.plain, .name])
  else
    match a.count with
    | .single => [dividers, .one [.plain], dividers]
    | .optional => [dividers, .optional [.plain], dividers]
    | .many => [dividers, .many [.plain, .divider]]
    | .some_ => [dividers, .one [.plain], .many [.plain, .divider]]
    | .rest => [.many [.plain, .name, .divider]]
    | .command => [dividers, .one [.plain], .many [.plain, .name, .divider]]
    | .suppressed => [dividers]
    | .exactly n =>
      (List.replicate n [dividers, .one [.plain]]).flatten ++ [dividers]

/-- How many words each step takes: earlier steps take as many as they can. -/
def takeSteps : List CountStep → List Mark → Option (List Nat)
  | [], _ => some []
  | .one allowed :: steps, marks =>
    match marks with
    | [] => none
    | m :: rest =>
      if allowed.contains m then (takeSteps steps rest).map (1 :: ·) else none
  | .optional allowed :: steps, marks =>
    let room := min 1 (marks.takeWhile allowed.contains).length
    (List.range (room + 1)).reverse.findSome? fun k =>
      (takeSteps steps (marks.drop k)).map (k :: ·)
  | .many allowed :: steps, marks =>
    let room := (marks.takeWhile allowed.contains).length
    (List.range (room + 1)).reverse.findSome? fun k =>
      (takeSteps steps (marks.drop k)).map (k :: ·)

def total (counts : List Nat) : Nat := counts.foldl (· + ·) 0

def takeCount? (a : Argument) (marks : List Mark) : Option Nat :=
  (takeSteps (countSteps a) marks).map total

/-- Adds up numbers in runs of the given lengths. -/
def sumRuns : List Nat → List Nat → List Nat
  | [], _ => []
  | n :: rest, xs => total (xs.take n) :: sumRuns rest (xs.drop n)

/-- The numbers of words that arguments by position take: as many arguments as
can be served, from the first. -/
def takeCounts (arguments : List Argument) (marks : List Mark) : List Nat :=
  let attempt := fun (n : Nat) =>
    let steps := (arguments.take n).map countSteps
    (takeSteps steps.flatten marks).map fun counts =>
      let sums := sumRuns (steps.map List.length) counts
      if (marks.drop (total sums)).head? == some .name then
        (sums.reverse.dropWhile (· == 0)).reverse
      else sums
  ((List.range arguments.length).reverse.findSome? fun n =>
    attempt (n + 1)).getD []

/-! ## Names -/

structure Candidate where
  /-- The argument; none for a name that is not known. -/
  argument : Option Argument
  name : String
  /-- What stands between the name and its value; none if there is no value in
  the word. -/
  sep : Option String
  value : Option String

def splitEquals (word : String) : Option (String × String) :=
  (splitOnce? '=' word.toList).map fun (a, b) =>
    (String.ofList a, String.ofList b)

/-- The names that a word may abbreviate, or a short name with the rest of the
word as its value. -/
def abbreviations (manner : Manner) (p : Parser) (word : String) :
    List Candidate :=
  let (start, sep, value) := match splitEquals word with
    | some (a, b) => (a, some "=", some b)
    | none => (word, none, none)
  let candidate := fun (name : String) (sep value : Option String) =>
    Candidate.mk (p.named? name) name sep value
  if isLong p word then
    if p.abbreviates then
      (p.names.map (·.1)).filterMap fun name =>
        if startsWith name start then some (candidate name sep value) else none
    else []
  else
    let short := String.ofList (word.toList.take 2)
    let tail := String.ofList (word.toList.drop 2)
    let (start, sep, value) :=
      if manner.cutsShort then (start, sep, value) else (word, none, none)
    (p.names.map (·.1)).filterMap fun name =>
      if name == short then some (candidate name (some "") (some tail))
      else if (p.abbreviates || !manner.cutsShort) && startsWith name start then
        some (candidate name sep value)
      else none

def Manner.isNumber (manner : Manner) (word : String) : Bool :=
  if manner.wholeNumbers then isNegative word else startsNegative word

/-- The ways to read a word as a name; none if the word is plain. -/
def candidates? (manner : Manner) (p : Parser) (word : String) :
    Option (List Candidate) :=
  match word.toList with
  | [] => none
  | c :: rest =>
    if !p.isPrefixChar c then none
    else if let some a := p.named? word then some [⟨some a, word, none, none⟩]
    else if rest.isEmpty then none
    else
      let exact := (splitEquals word).bind fun (name, value) =>
        (p.named? name).map fun a =>
          ([⟨some a, name, some "=", some value⟩] : List Candidate)
      match exact with
      | some found => some found
      | none =>
        let found := abbreviations manner p word
        if !found.isEmpty then some found
        else if manner.isNumber word && !p.hasNegativeNames then none
        else if word.contains ' ' then none
        else some [⟨none, word, none, none⟩]

/-! ## The run of a parser -/

inductive Stop where
  | fault (f : OptionFault)
  | exit (code : Nat)
  deriving DecidableEq, Repr

structure Console where
  out : String
  err : String
  deriving DecidableEq, Repr

abbrev Run := ExceptT Stop (StateM Console)

/-- What a reading depends on besides the parser. -/
structure Surroundings where
  manner : Manner
  columns : Nat
  fileText : String → Except String String

namespace Run

def fail {α : Type} (f : OptionFault) : Run α := throw (.fault f)

def ofExcept {α : Type} : Except OptionFault α → Run α
  | .ok a => pure a
  | .error f => fail f

def print (s : String) : Run Unit :=
  modify fun c => { c with out := c.out ++ s }

def printError (s : String) : Run Unit :=
  modify fun c => { c with err := c.err ++ s }

def usageError {α : Type} (env : Surroundings) (p : Parser)
    (message : String) : Run α := do
  let usage ← ofExcept (formatUsage p env.columns)
  printError usage
  printError s!"{p.prog}: error: {message}\n"
  throw (.exit 2)

end Run

structure FieldValue where
  value : Value
  /-- Whether the value is the fallback of an argument. -/
  untouched : Bool

abbrev Fields := List (String × FieldValue)

def Fields.set (fields : Fields) (name : String) (v : FieldValue) : Fields :=
  if fields.any (·.1 == name) then
    fields.map fun f => if f.1 == name then (name, v) else f
  else fields ++ [(name, v)]

structure Progress where
  fields : Fields
  /-- Words that the parsers of commands did not know. -/
  unknown : List String
  seen : List Nat
  given : List Nat
  warned : List String
  extras : List (String × Mark)
  positionals : List Argument

/-- Whether two values are equal; numbers are compared by value. -/
def sameValue : Value → Value → Bool
  | .text a, .text b => a == b
  | .null, .null => true
  | .int a, .int b => a == b
  | .bool a, .bool b => a == b
  | .float a, .float b => a == b
  | .int a, .float b => Number.ofInt a == b
  | .float a, .int b => a == Number.ofInt b
  | .bool a, .int b => (if a then 1 else 0) == b
  | .int a, .bool b => a == (if b then 1 else 0)
  | .bool a, .float b => (if a then 1.0 else 0.0) == b
  | .float a, .bool b => a == (if b then 1.0 else 0.0)
  | a, b => a.shown == b.shown

def readWord (a : Argument) (word : String) : Except OptionFault Value :=
  let invalid := fun (name : String) =>
    let shown := quoted word
    a.fault s!"invalid {name} value: {shown}"
  match a.reading with
  | none | some .text => .ok (.text word)
  | some .int =>
    match readInt word with
    | .ok i => .ok (.int i)
    | .error _ => .error (invalid "int")
  | some .float =>
    match readFloat word with
    | some x => .ok (.float x)
    | none => .error (invalid "float")

def checkChoice (manner : Manner) (p : Parser) (a : Argument) (v : Value) :
    Except OptionFault Unit :=
  match a.allChoices with
  | none => .ok ()
  | some choices =>
    if choices.any (sameValue v) then .ok ()
    else
      let list := ", ".intercalate (choices.map fun c =>
        if manner.quotedChoices then c.shown else c.display)
      let shown := if manner.quotedChoices then v.shown else quoted v.display
      let texts := choices.filterMap Value.text?
      let near := match v with
        | .text word =>
          if p.suggests && texts.length == choices.length then
            closest? word texts
          else none
        | _ => none
      match near with
      | some word =>
        let meant := quoted word
        .error (a.fault s!"invalid choice: {shown}, maybe you meant {meant}? (choose from {list})")
      | none =>
        .error (a.fault s!"invalid choice: {shown} (choose from {list})")

/-- The value that an argument gets from its words; none if it gets none. -/
def readWords (manner : Manner) (p : Parser) (a : Argument)
    (words : List String) :
    Except OptionFault (Option Value) := do
  let checked := fun (word : String) => do
    let v ← readWord a word
    checkChoice manner p a v
    pure v
  let all := do
    let values ← words.mapM (readWord a)
    values.forM (checkChoice manner p a)
    pure (some (.list values))
  match a.count, words with
  | .optional, [] =>
    match (if a.isNamed then some a.const else a.fallback) with
    | some (.text s) =>
      let v ← readWord a s
      pure (some v)
    | v => pure v
  | .many, [] =>
    if a.isNamed then pure (some (.list []))
    else
      match a.fallback with
      | some .null => pure (some (.list []))
      | v => pure v
  | .single, [word] | .optional, [word] =>
    let v ← checked word
    pure (some v)
  | .rest, _ =>
    let values ← words.mapM (readWord a)
    pure (some (.list values))
  | .command, _ =>
    let values ← words.mapM (readWord a)
    match values with
    | [] => throw (.index "list index out of range")
    | v :: _ =>
      checkChoice manner p a v
      pure (some (.list values))
  | .suppressed, _ => pure none
  | _, _ => all

def itemsOf (operation : String) :
    Option Value → Except OptionFault (List Value)
  | none | some .null => .ok []
  | some (.list items) => .ok items
  | some v =>
    let kind := v.kind
    .error (.member s!"'{kind}' object has no attribute '{operation}'")

def spreadOf : Value → Except OptionFault (List Value)
  | .list items => .ok items
  | .text s => .ok (s.toList.map fun c => .text (String.singleton c))
  | .record fields => .ok (fields.map fun f => .text f.1)
  | v =>
    let kind := v.kind
    .error (.kind s!"'{kind}' object is not iterable")

def countUp : Option Value → Except OptionFault Value
  | none | some .null => .ok (.int 1)
  | some (.int i) => .ok (.int (i + 1))
  | some (.bool b) => .ok (.int (if b then 2 else 1))
  | some (.float x) => .ok (.float (x + 1))
  | some (.text _) =>
    .error (.kind "can only concatenate str (not \"int\") to str")
  | some (.list _) =>
    .error (.kind "can only concatenate list (not \"int\") to list")
  | some (.record _) =>
    .error (.kind "unsupported operand type(s) for +: 'dict' and 'int'")

section

variable (env : Surroundings) (p : Parser)
  (descend : Nat → List String → Run (Fields × List String))

def put (s : Progress) (a : Argument) (v : Value) : Progress :=
  match a.field with
  | some field => { s with fields := s.fields.set field ⟨v, false⟩ }
  | none => s

def warn (message : String) : Run Unit :=
  Run.printError s!"{p.prog}: warning: {message}\n"

def perform (a : Argument) (v : Value) (s : Progress) : Run Progress := do
  let current :=
    (a.field.bind fun name => s.fields.lookup name).map FieldValue.value
  match a.effect with
  | .store => pure (put s a v)
  | .storeConst | .storeTrue | .storeFalse => pure (put s a a.const)
  | .append =>
    let items ← Run.ofExcept (itemsOf "append" current)
    pure (put s a (.list (items ++ [v])))
  | .appendConst =>
    let items ← Run.ofExcept (itemsOf "append" current)
    pure (put s a (.list (items ++ [a.const])))
  | .extend =>
    let items ← Run.ofExcept (itemsOf "extend" current)
    let more ← Run.ofExcept (spreadOf v)
    pure (put s a (.list (items ++ more)))
  | .count =>
    let v ← Run.ofExcept (countUp current)
    pure (put s a v)
  | .help =>
    let text ← Run.ofExcept (formatHelp p env.columns)
    Run.print text
    throw (.exit 0)
  | .version =>
    match a.version with
    | none =>
      Run.fail (.member "'ArgumentParser' object has no attribute 'version'")
    | some text =>
      Run.print (tidy (paragraph p.layout p.prog (env.columns - 2) 0 text))
      throw (.exit 0)
  | .commands =>
    match v with
    | .list (.text name :: rest) =>
      let s := put s a (.text name)
      match a.commands.lookup name with
      | none =>
        let shown := quoted name
        let list := ", ".intercalate (a.commands.map (·.1))
        Run.fail (a.fault s!"unknown parser {shown} (choices: {list})")
      | some number =>
        if a.retired.contains name then
          warn p s!"command '{name}' is deprecated"
        let (fields, rest) ← descend number (rest.map Value.display)
        let fields := fields.foldl (fun all (f : String × FieldValue) =>
          all.set f.1 ⟨f.2.value, false⟩) s.fields
        pure { s with fields, unknown := s.unknown ++ rest }
    | _ => pure s

def rivals (id : Nat) : List Nat :=
  p.exclusives.flatMap fun e =>
    if e.members.contains id then e.members.filter (· != id) else []

def take (a : Argument) (words : List String) (s : Progress) :
    Run Progress := do
  let s := { s with seen := a.id :: s.seen }
  let v ← Run.ofExcept (readWords env.manner p a words)
  let s :=
    if a.isNamed || !words.isEmpty then { s with given := a.id :: s.given }
    else s
  if a.isNamed || !words.isEmpty then
    match (rivals p a.id).find? s.given.contains with
    | some rival =>
      let name := ((p.argument? rival).bind Argument.title?).getD "None"
      Run.fail (a.fault s!"not allowed with argument {name}")
    | none => pure ()
  match v with
  | some v => perform env p descend a v s
  | none => pure s

def countFault (a : Argument) : OptionFault :=
  a.fault (match a.count with
    | .single => "expected one argument"
    | .optional => "expected at most one argument"
    | .some_ => "expected at least one argument"
    | .exactly 1 => "expected 1 argument"
    | .exactly n => s!"expected {n} arguments"
    | .many => "expected * arguments"
    | .rest => "expected ... arguments"
    | .command => "expected A... arguments"
    | .suppressed => "expected ==SUPPRESS== arguments")

def takeCount (a : Argument) (marks : List Mark) : Run Nat :=
  match takeCount? a marks with
  | some n => pure n
  | none => Run.fail (countFault a)

/-- The flags of one word and what remains to be done after them. -/
structure Flags where
  taken : List (Argument × List String × String)
  /-- A rest of the word that no argument took. -/
  extra : Option String
  /-- The number of words that follow and were taken. -/
  used : Nat

/-- Splits a word into flags. `following` are the words after it with their
marks. -/
def splitFlags (following : List (String × Mark))
    (taken : List (Argument × List String × String)) (a : Argument)
    (name : String) (sep value : Option String) : Nat → Run Flags
  | 0 => pure ⟨taken, none, 0⟩
  | fuel + 1 =>
    match value with
    | none => do
      let n ← takeCount a (following.map (·.2))
      pure ⟨taken ++ [(a, (following.take n).map (·.1), name)], none, n⟩
    | some value => do
      let n ← takeCount a [.plain]
      let ignored := fun (_ : Unit) =>
        let shown := quoted value
        a.fault s!"ignored explicit argument {shown}"
      match n, value.toList with
      | 0, c :: rest =>
        if isLong p name then Run.fail (ignored ())
        else if !env.manner.refusesTail && (sep == some "=" || p.isPrefixChar c)
          then Run.fail (ignored ())
        else
          let taken := taken ++ [(a, [], name)]
          let lead := name.toList.headD '-'
          let next := String.ofList [lead, c]
          match p.named? next with
          | some b =>
            match rest with
            | [] => splitFlags following taken b next none none fuel
            | '=' :: tail =>
              if env.manner.refusesTail then
                splitFlags following taken b next (some "")
                  (some (String.ofList rest)) fuel
              else
                splitFlags following taken b next (some "=")
                  (some (String.ofList tail)) fuel
            | _ =>
              splitFlags following taken b next (some "")
                (some (String.ofList rest)) fuel
          | none =>
            if env.manner.refusesTail then Run.fail (ignored ())
            else pure ⟨taken, some (String.ofList (lead :: value.toList)), 0⟩
      | 1, _ => pure ⟨taken ++ [(a, [value], name)], none, 0⟩
      | _, _ => Run.fail (ignored ())

/-- The words of an argument in the installed manner: a first divider among them
is dropped. -/
def dropDivider (a : Argument) (words : List String) : List String :=
  if env.manner.refusesTail && a.count != .rest && a.count != .command then
    words.erase "--"
  else words

def warnOnce (deprecated : Bool) (name message : String) (s : Progress) :
    Run Progress := do
  if deprecated && !s.warned.contains name then
    warn p message
    pure { s with warned := name :: s.warned }
  else pure s

/-- Reads a word that names an argument; gives the number of words used. -/
def takeNamed (word : String) (found : List Candidate)
    (following : List (String × Mark)) (s : Progress) :
    Run (Nat × Progress) := do
  match found with
  | [] => pure (1, s)
  | [c] =>
    match c.argument with
    | none => pure (1, { s with extras := s.extras ++ [(word, .name)] })
    | some a =>
      let flags ← splitFlags env p following [] a c.name c.sep c.value
        (word.length + 1)
      let s := match flags.extra with
        | some extra => { s with extras := s.extras ++ [(extra, .name)] }
        | none => s
      let s ← flags.taken.foldlM (fun s (a, words, name) => do
        let s ← warnOnce p a.deprecated name s!"option '{name}' is deprecated" s
        take env p descend a (dropDivider env a words) s) s
      pure (1 + flags.used, s)
  | _ =>
    let list := ", ".intercalate (found.map (·.name))
    Run.fail (.argument s!"ambiguous option: {word} could match {list}")

def keptWords (a : Argument) (words : List (String × Mark)) : List String :=
  let texts := words.map (·.1)
  match a.count with
  | .command =>
    if (words.head?.map (·.2)) == some .divider then texts.erase "--" else texts
  | .rest => texts
  | _ => if words.any (·.2 == .divider) then texts.erase "--" else texts

/-- Serves arguments by position; gives the number of words used. -/
def takePositionals (words : List (String × Mark)) (s : Progress) :
    Run (Nat × Progress) := do
  let counts := takeCounts s.positionals (words.map (·.2))
  let pairs := s.positionals.zip counts
  let (used, s') ← pairs.foldlM (fun (used, s) (a, n) => do
    let own := keptWords a ((words.drop used).take n)
    let field := a.field.getD "==SUPPRESS=="
    let s ← warnOnce p (a.deprecated && !own.isEmpty) field
      s!"argument '{field}' is deprecated" s
    let s ← take env p descend a own s
    pure (used + n, s)) (0, s)
  pure (used, { s' with positionals := s.positionals.drop counts.length })

/-- A word of the command line: the word, its mark and the ways to read it as a
name. -/
structure MarkedWord where
  word : String
  mark : Mark
  found : List Candidate

def MarkedWord.pair (w : MarkedWord) : String × Mark := (w.word, w.mark)

def markWords (p : Parser) : List String → Run (List MarkedWord)
  | [] => pure []
  | "--" :: rest =>
    pure (⟨"--", .divider, []⟩ :: rest.map fun w => ⟨w, .plain, []⟩)
  | word :: rest => do
    let own ← match candidates? env.manner p word with
      | none => pure ⟨word, .plain, []⟩
      | some found =>
        if env.manner.earlyAmbiguity && found.length > 1 then
          let list := ", ".intercalate (found.map (·.name))
          Run.usageError env p s!"ambiguous option: {word} could match {list}"
        else pure ⟨word, .name, found⟩
    let others ← markWords p rest
    pure (own :: others)

/-- Serves names, and arguments by position before them, until no name is left;
gives the words after that. -/
def serve (mixed : Bool) (words : List MarkedWord) (s : Progress) :
    Nat → Run (List MarkedWord × Progress)
  | 0 => pure (words, s)
  | fuel + 1 => do
    if !words.any (·.mark == .name) then pure (words, s)
    else
      let before := words.takeWhile (·.mark != .name)
      let (used, s) ←
        if mixed || before.isEmpty then pure (0, s)
        else takePositionals env p descend (words.map MarkedWord.pair) s
      if used > 0 then serve mixed (words.drop used) s fuel
      else
        let s := { s with extras := s.extras ++ before.map MarkedWord.pair }
        match words.drop before.length with
        | [] => pure ([], s)
        | w :: rest =>
          let (used, s) ← takeNamed env p descend w.word w.found
            (rest.map MarkedWord.pair) s
          serve mixed (rest.drop (used - 1)) s fuel

/-- Drops the first `n` words that are not names. -/
def dropPlain : Nat → List (String × Mark) → List (String × Mark)
  | 0, words => words
  | _, [] => []
  | n + 1, w :: rest =>
    if w.2 == .name then w :: dropPlain (n + 1) rest else dropPlain n rest

/-- Checks that all required arguments were given, and reads fallbacks that are
texts. -/
def settle (s : Progress) : Run Progress := do
  let (missing, s) ← p.arguments.foldlM
      (fun ((missing, s) : List String × Progress) a => do
    if s.seen.contains a.id then pure (missing, s)
    else if a.required then pure (missing ++ [a.title?.getD "None"], s)
    else
      match a.fallback, a.field with
      | some (.text text), some field =>
        match s.fields.lookup field with
        | some ⟨.text now, true⟩ =>
          if now == text then do
            let v ← Run.ofExcept (readWord a text)
            let same := match v with
              | .text _ => true
              | _ => false
            pure (missing, { s with fields := s.fields.set field ⟨v, same⟩ })
          else pure (missing, s)
        | _ => pure (missing, s)
      | _, _ => pure (missing, s)) ([], s)
  if !missing.isEmpty then
    let list := ", ".intercalate missing
    Run.fail (.argument s!"the following arguments are required: {list}")
  p.exclusives.forM fun e => do
    if e.required && !e.members.any s.given.contains then
      let shown := (e.members.filterMap p.argument?).filter (·.help != .hidden)
      let list := " ".intercalate (shown.map fun a => a.title?.getD "None")
      Run.fail (.argument s!"one of the arguments {list} is required")
  pure s

/-- Replaces words that name files by the lines of those files. -/
def readFiles (starts : List Char) : List String → Nat → Run (List String)
  | words, 0 => pure words
  | words, fuel + 1 => do
    let parts ← words.mapM fun word =>
      match word.toList with
      | c :: rest =>
        if starts.contains c then
          match env.fileText (String.ofList rest) with
          | .ok text => readFiles starts (lines text) fuel
          | .error message => Run.fail (.argument message)
        else pure [word]
      | [] => pure [word]
    pure parts.flatten

def startFields : Fields :=
  let own := p.arguments.foldl (fun (fields : Fields) a =>
    match a.field, a.fallback with
    | some field, some v => if fields.any (·.1 == field) then fields
        else fields ++ [(field, ⟨v, true⟩)]
    | _, _ => fields) []
  p.defaults.foldl (fun (fields : Fields) (name, v) =>
    if fields.any (·.1 == name) then fields
    else fields ++ [(name, ⟨v, true⟩)]) own

def readLine (mixed : Bool) (words : List String) :
    Run (Fields × List String) := do
  let words ← match p.filePrefixes with
    | some starts => readFiles env starts words 100
    | none => pure words
  let marked ← markWords env p words
  let s : Progress := ⟨startFields p, [], [], [], [], [], p.positionals⟩
  let (rest, s) ← serve env p descend mixed marked s (marked.length + 1)
  let rest := rest.map MarkedWord.pair
  let s ←
    if mixed then do
      let extras := s.extras ++ rest
      let (used, s) ←
        takePositionals env p descend (extras.filter (·.2 != .name)) s
      pure { s with extras := dropPlain used extras }
    else do
      let (used, s) ← takePositionals env p descend rest s
      pure { s with extras := s.extras ++ rest.drop used }
  let s ← settle p s
  pure (s.fields, s.extras.map (·.1) ++ s.unknown)

end

/-- Reads a command line with the parser of a number; `fuel` bounds how deep
commands nest. -/
def readKnown (env : Surroundings) (parsers : List Parser) (number : Nat)
    (mixed : Bool) (words : List String) :
    Nat → Run (Fields × List String)
  | 0 => pure ([], [])
  | fuel + 1 =>
    match parsers[number]? with
    | none => Run.fail (.missing (toString number))
    | some p =>
      let body := readLine env p (fun n words =>
        readKnown env parsers n false words fuel) mixed words
      if p.exits then
        tryCatch body fun stop =>
          match stop with
          | .fault (.argument message) => Run.usageError env p message
          | stop => throw stop
      else body

inductive Call where
  /-- Words that no argument takes are given back. -/
  | known (words : List String)
  /-- All words have to be taken. -/
  | parse (words : List String)
  /-- All words have to be taken; those by position may stand between names. -/
  | mixed (words : List String)
  | help
  | usage

inductive Answer where
  | fields (fields : List (String × Value)) (rest : Option (List String))
  | text (s : String)
  deriving Repr

def plainFields (fields : Fields) : List (String × Value) :=
  fields.map fun f => (f.1, f.2.value)

def readAll (env : Surroundings) (d : Draft) (p : Parser) (mixed : Bool)
    (words : List String) : Run Answer := do
  let (fields, rest) ←
    readKnown env d.parsers 0 mixed words (d.parsers.length + 1)
  if rest.isEmpty then pure (.fields (plainFields fields) none)
  else
    let message := "unrecognized arguments: " ++ " ".intercalate rest
    if p.exits then Run.usageError env p message
    else Run.fail (.argument message)

def Draft.call (env : Surroundings) (d : Draft) (c : Call) : Run Answer := do
  let p ← Run.ofExcept (d.parser 0)
  match c with
  | .known words =>
    let (fields, rest) ←
      readKnown env d.parsers 0 false words (d.parsers.length + 1)
    pure (.fields (plainFields fields) (some rest))
  | .parse words => readAll env d p false words
  | .mixed words =>
    match p.positionals.find? fun a =>
        a.count == .command || a.count == .rest with
    | some a =>
      let count := if a.count == .rest then "..." else "A..."
      Run.fail
        (.kind s!"parse_intermixed_args: positional arg with nargs={count}")
    | none => readAll env d p true words
  | .help => do
    let text ← Run.ofExcept (formatHelp p env.columns)
    pure (.text text)
  | .usage => do
    let text ← Run.ofExcept (formatUsage p env.columns)
    pure (.text text)

end TaskShell.Options

import TaskShell.Pattern.Source
import TaskShell.Text.CharNames
import TaskShell.Number.Reading

/-!
# Reading patterns

Reads the text of a pattern into its form. Alternatives that all start alike
share that start, alternatives of single characters become a set, and a group
that neither captures nor changes flags is unfolded in place.
-/

namespace TaskShell.Pattern

open Text Number

/-! ## Escapes -/

def isDigitChar (c : Char) : Bool := '0' ≤ c && c ≤ '9'

def isOctalChar (c : Char) : Bool := '0' ≤ c && c ≤ '7'

def isHexChar (c : Char) : Bool :=
  isDigitChar c || ('a' ≤ c && c ≤ 'f') || ('A' ≤ c && c ≤ 'F')

def isAsciiLetter (c : Char) : Bool :=
  ('a' ≤ c && c ≤ 'z') || ('A' ≤ c && c ≤ 'Z')

def hexCharValue (c : Char) : Nat :=
  if isDigitChar c then c.toNat - '0'.toNat
  else if 'a' ≤ c then c.toNat - 'a'.toNat + 10
  else c.toNat - 'A'.toNat + 10

def digitsValue (base : Nat) (digits : List Char) : Nat :=
  digits.foldl (fun n c => n * base + hexCharValue c) 0

def controlEscape? : Char → Option Nat
  | 'a' => some 7
  | 'b' => some 8
  | 'f' => some 12
  | 'n' => some 10
  | 'r' => some 13
  | 't' => some 9
  | 'v' => some 11
  | '\\' => some 92
  | _ => none

def classEscape? : Char → Option Category
  | 'd' => some .digit
  | 'D' => some .notDigit
  | 's' => some .space
  | 'S' => some .notSpace
  | 'w' => some .word
  | 'W' => some .notWord
  | _ => none

def anchorEscape? (dialect : Dialect) : Char → Option Anchor
  | 'A' => some .textStart
  | 'b' => some .boundary
  | 'B' => some .notBoundary
  | 'Z' => some .textEnd
  | 'z' => if dialect.endMark then some .textEnd else none
  | _ => none

/-- Reads the hexadecimal digits of an escape that takes exactly `count` of
them. -/
def readHexEscape (letter : Char) (count : Nat) : Read Nat := do
  let digits ← Read.takeWhile isHexChar count
  let written := '\\' :: letter :: digits
  if digits.length != count then
    Read.refuseBack written.length (.incompleteEscape written)
  let code := digitsValue 16 digits
  if code > 0x10FFFF then Read.refuseBack written.length (.badEscape written)
  return code

def readNameEscape : Read Nat := do
  if !(← Read.accept '\x7b') then Read.refuse (.missing "\x7b")
  let name ← Read.takeUntil '\x7d' "character name"
  match codeOfName? (String.ofList name) with
  | some code => return code
  | none => Read.refuseBack (name.length + 4) (.unknownCharacter name)

/-- Reads an escape of a numbered or named character, if `c` starts one. -/
def readCodeEscape? (c : Char) : Read (Option Nat) := do
  match c with
  | 'x' => return some (← readHexEscape 'x' 2)
  | 'u' => return some (← readHexEscape 'u' 4)
  | 'U' => return some (← readHexEscape 'U' 8)
  | 'N' => return some (← readNameEscape)
  | _ => return none

/-- Reads any other escape: a letter or a digit is refused, another character
stands for itself. -/
def readPlainEscape (c : Char) : Read Nat := do
  if isAsciiLetter c || isDigitChar c then
    Read.refuseBack 2 (.badEscape ['\\', c])
  return c.toNat

def readSetEscape (c : Char) : Read Member := do
  if let some code := controlEscape? c then return .literal code
  if let some category := classEscape? c then return .category category
  if let some code ← readCodeEscape? c then return .literal code
  if isOctalChar c then
    let digits := c :: (← Read.takeWhile isOctalChar 2)
    let code := digitsValue 8 digits
    if code > 255 then
      Read.refuseBack (digits.length + 1) (.largeOctal ('\\' :: digits))
    return .literal code
  return .literal (← readPlainEscape c)

/-- Refuses a reference to a group that is missing or still open. -/
def readReference (digits : List Char) : Read Item := do
  let number := digitsValue 10 digits
  if number < (← get).widths.length then
    if !(← Read.isClosed number) then
      Read.refuseBack (digits.length + 1) .openGroup
    Read.checkLookbehind number
    return .reference number
  Read.refuseBack digits.length (.noGroup number)

/-- Reads an escape that starts with a digit other than zero: three octal
digits, or a group. -/
def readDigitEscape (c : Char) : Read Item := do
  let more ← Read.takeWhile isDigitChar 1
  match more with
  | [d] =>
    if isOctalChar c && isOctalChar d then
      match ← Read.takeWhile isOctalChar 1 with
      | [e] =>
        let digits := [c, d, e]
        let code := digitsValue 8 digits
        if code > 255 then Read.refuseBack 4 (.largeOctal ('\\' :: digits))
        return .literal code
      | _ => readReference [c, d]
    else readReference [c, d]
  | _ => readReference [c]

def readEscape (dialect : Dialect) (c : Char) : Read Item := do
  if let some place := anchorEscape? dialect c then return .anchor place
  if let some category := classEscape? c then
    return .set false [.category category]
  if let some code := controlEscape? c then return .literal code
  if let some code ← readCodeEscape? c then return .literal code
  if c == '0' then
    return .literal (digitsValue 8 (← Read.takeWhile isOctalChar 2))
  if isDigitChar c then return ← readDigitEscape c
  return .literal (← readPlainEscape c)

/-! ## Character sets -/

/-- The members of a list without repetitions, in the order of their first
places. -/
def distinct (members : List Member) : List Member :=
  members.foldl (fun kept m => if kept.contains m then kept else kept ++ [m]) []

/-- Reads the members of a set that starts at `start`, up to and with the
closing bracket. -/
def readMembers (start : Nat) (members : List Member) : Nat → Read (List Member)
  | 0 => return members
  | fuel + 1 => do
    let openSet {α : Type} : Read α := throw (.at_ .openSet start)
    match ← Read.take with
    | none => openSet
    | some this =>
      if this == .plain ']' && !members.isEmpty then return members
      let first ← match this with
        | .escaped c => readSetEscape c
        | t => pure (Member.literal ((t.text.head?.map Char.toNat).getD 0))
      if !(← Read.accept '-') then
        return ← readMembers start (members ++ [first]) fuel
      match ← Read.take with
      | none => openSet
      | some that =>
        if that == .plain ']' then return members ++ [first, .literal '-'.toNat]
        let second ← match that with
          | .escaped c => readSetEscape c
          | t => pure (Member.literal ((t.text.head?.map Char.toNat).getD 0))
        let bad {α : Type} : Read α :=
          Read.refuseBack (this.text.length + 1 + that.text.length)
            (.badRange this.text that.text)
        match first, second with
        | .literal low, .literal high =>
          if high < low then bad
          readMembers start (members ++ [.range low high]) fuel
        | _, _ => bad

def readSet : Read Item := do
  let start := (← Read.tell) - 1
  let negated ← Read.accept '^'
  let members := distinct (← readMembers start [] ((← get).tokens.length + 1))
  match members with
  | [.literal code] =>
    return if negated then .notLiteral code else .literal code
  | _ => return .set negated members

/-! ## Flags -/

def flagOf? (dialect : Dialect) : Token → Option Nat
  | .plain 'i' => some Flag.ignoreCase
  | .plain 'L' => some Flag.locale
  | .plain 'm' => some Flag.multiline
  | .plain 's' => some Flag.dotAll
  | .plain 'x' => some Flag.verbose
  | .plain 'a' => some Flag.ascii
  | .plain 'u' => some Flag.unicode
  | .plain 't' => if dialect.templateFlag then some Flag.template else none
  | _ => none

def Token.isLetter : Token → Bool
  | .plain c => isNameStart c && c != '_'
  | _ => false

/-- Refuses a token that is no flag where one, or the named end, was
expected. -/
def refuseFlag {α : Type} (t : Token) (expected : String) : Read α :=
  Read.refuseBack t.text.length (if t.isLetter then .unknownFlag
    else .missing expected)

/-- Reads the flags to turn on, from the first letter on, and the token that
ends them. -/
def readFlagsOn (dialect : Dialect) (t : Token) (on : Nat) :
    Nat → Read (Nat × Token)
  | 0 => return (on, t)
  | fuel + 1 => do
    let flag := (flagOf? dialect t).getD 0
    if t == .plain 'L' then Read.refuse .localeFlag
    let on := on ||| flag
    if Flag.has flag Flag.types && on &&& Flag.types != flag then
      Read.refuse .mixedTypes
    match ← Read.take with
    | none => Read.refuse (.missing "-, : or )")
    | some next =>
      if next == .plain ')' || next == .plain '-' || next == .plain ':' then
        return (on, next)
      if (flagOf? dialect next).isNone then refuseFlag next "-, : or )"
      readFlagsOn dialect next on fuel

/-- Reads the flags to turn off, from the first letter on, up to the colon. -/
def readFlagsOff (dialect : Dialect) (t : Token) (off : Nat) : Nat → Read Nat
  | 0 => return off
  | fuel + 1 => do
    let flag := (flagOf? dialect t).getD 0
    if Flag.has flag Flag.types then Read.refuse .fixedTypes
    let off := off ||| flag
    match ← Read.take with
    | none => Read.refuse (.missing ":")
    | some next =>
      if next == .plain ':' then return off
      if (flagOf? dialect next).isNone then refuseFlag next ":"
      readFlagsOff dialect next off fuel

/-- Reads inline flags from their first token on. Flags for the whole pattern
give nothing, flags for a group give what is turned on and off. -/
def readFlags (dialect : Dialect) (t : Token) : Read (Option (Nat × Nat)) := do
  let fuel := (← get).tokens.length + 1
  let (on, last) ← if t == .plain '-' then pure (0, t)
    else readFlagsOn dialect t 0 fuel
  if last == .plain ')' then
    modify fun s => { s with flags := s.flags ||| on }
    return none
  if Flag.has on Flag.template then Read.refuseBack 1 .globalOn
  let off ←
    if last == .plain '-' then do
      match ← Read.take with
      | none => Read.refuse (.missing "flag")
      | some next =>
        if (flagOf? dialect next).isNone then refuseFlag next "flag"
        readFlagsOff dialect next 0 fuel
    else pure 0
  if Flag.has off Flag.template then Read.refuseBack 1 .globalOff
  if Flag.has on off then Read.refuseBack 1 .onAndOff
  return some (on, off)

/-! ## Repetitions -/

def Item.isRepetition : Item → Bool
  | .repetition .. => true
  | _ => false

/-- Reads the counts between braces, after the opening one; nothing if it is a
plain character. -/
def readCounts? : Read (Option (Nat × Option Nat)) := do
  let saved ← get
  if (← Read.peek) == some (.plain '\x7d') then return none
  let fuel := saved.tokens.length
  let low ← Read.takeWhile isDigitChar fuel
  let several ← Read.accept ','
  let high ← if several then Read.takeWhile isDigitChar fuel else pure low
  if !(← Read.accept '\x7d') then
    set saved
    return none
  let least := digitsValue 10 low
  if least ≥ maxRepeat then throw .largeCount
  if high.isEmpty then return some (least, none)
  let greatest := digitsValue 10 high
  if greatest ≥ maxRepeat then throw .largeCount
  if greatest < least then throw (.at_ .reversedCounts saved.position)
  return some (least, some greatest)

/-- What a repetition of an item repeats: a group that does nothing gives its
body. -/
def repeated : Item → List Item
  | .group none 0 0 body => body
  | item => [item]

/-- Puts a repetition in place of the last item, whose mark is the character at
`start`. -/
def repeatLast (start low : Nat) (high : Option Nat) (items : List Item) :
    Read (List Item) := do
  match items.getLast? with
  | none | some (.anchor _) => throw (.at_ .nothingToRepeat start)
  | some last =>
    if last.isRepetition then throw (.at_ .repeatedRepeat start)
    let isLazy ← Read.accept '?'
    let isPossessive ← if isLazy then pure false else Read.accept '+'
    let greed : Greed :=
      if isLazy then .lazy else if isPossessive then .possessive else .greedy
    return items.dropLast ++ [.repetition greed low high (repeated last)]

/-! ## Alternatives -/

/-- Moves a start that all alternatives share out of them; gives the start and
the rests. -/
def sharedStart : Nat → List (List Item) → List Item × List (List Item)
  | 0, alternatives => ([], alternatives)
  | fuel + 1, alternatives =>
    match alternatives with
    | (first :: _) :: _ =>
      if alternatives.all fun items =>
          (items.head?.map first.same).getD false then
        let (start, rest) := sharedStart fuel (alternatives.map List.tail)
        (first :: start, rest)
      else ([], alternatives)
    | _ => ([], alternatives)

/-- The set members of an alternative that accepts one character. -/
def membersOf? : List Item → Option (List Member)
  | [.literal code] => some [.literal code]
  | [.set false members] => some members
  | _ => none

def joinAlternatives : List (List Item) → List Item
  | [items] => items
  | alternatives =>
    let (start, rest) :=
      sharedStart (alternatives.flatten.length + 1) alternatives
    match rest.mapM membersOf? with
    | some members => start ++ [.set false (distinct members.flatten)]
    | none => start ++ [.branch rest]

/-- Unfolds groups that neither capture nor change flags. -/
def unfoldGroups (items : List Item) : List Item :=
  items.flatMap repeated

/-! ## The pattern as a whole -/

/-- What an opening bracket starts, once its options are read. -/
inductive Opening where
  | group (name : Option (List Char)) (captures isAtomic : Bool) (on off : Nat)
  | look (ahead holds : Bool)
  | condition (number : Nat)
  | whole (item : Item)
  | nothing
  | flags

def skipComment (start : Nat) : Nat → Read Unit
  | 0 => return
  | fuel + 1 => do
    match ← Read.take with
    | none => throw (.at_ .openComment start)
    | some t => if t == .plain ')' then return else skipComment start fuel

def readNamedReference : Read Item := do
  let name ← Read.takeUntil ')' "group name"
  Read.checkName name
  match (← get).names.lookup name with
  | none => Read.refuseBack (name.length + 1) (.unknownGroup name)
  | some number =>
    if !(← Read.isClosed number) then
      Read.refuseBack (name.length + 1) .openGroup
    Read.checkLookbehind number
    return .reference number

def conditionNumber? (dialect : Dialect) (name : List Char) : Option Nat :=
  if dialect.looseNumbers then
    match readInt (String.ofList name) with
    | .ok n => if n < 0 then none else some n.toNat
    | .error _ => none
  else if name.all isDigitChar then some (digitsValue 10 name)
  else none

def readCondition (dialect : Dialect) : Read Nat := do
  let name ← Read.takeUntil ')' "group name"
  let back := name.length + 1
  let number ←
    match if isName name then none else conditionNumber? dialect name with
    | none =>
      Read.checkName name
      match (← get).names.lookup name with
      | none => Read.refuseBack back (.unknownGroup name)
      | some number => pure number
    | some number =>
      if number == 0 then Read.refuseBack back .badGroupNumber
      if number ≥ maxGroups then Read.refuseBack back (.noGroup number)
      modify fun s =>
        if (s.asked.lookup number).isSome then s
        else { s with asked := s.asked ++ [(number, s.position - back)] }
      pure number
  Read.checkLookbehind number
  return number

/-- Reads the options after an opening bracket at `start`. -/
def readOpening (dialect : Dialect) (start : Nat) : Read Opening := do
  if !(← Read.accept '?') then return .group none true false 0 0
  let some t ← Read.take | Read.refuse .earlyEnd
  match t with
  | .plain 'P' =>
    if ← Read.accept '<' then
      let name ← Read.takeUntil '>' "group name"
      Read.checkName name
      return .group (some name) true false 0 0
    if ← Read.accept '=' then return .whole (← readNamedReference)
    let some next ← Read.take | Read.refuse .earlyEnd
    Read.refuseBack (next.text.length + 2)
      (.unknownExtension ('P' :: next.text))
  | .plain ':' => return .group none false false 0 0
  | .plain '#' =>
    skipComment start ((← get).tokens.length + 1)
    return .nothing
  | .plain '=' => return .look true true
  | .plain '!' => return .look true false
  | .plain '<' =>
    let some next ← Read.take | Read.refuse .earlyEnd
    match next with
    | .plain '=' => return .look false true
    | .plain '!' => return .look false false
    | _ =>
      Read.refuseBack (next.text.length + 2)
        (.unknownExtension ('<' :: next.text))
  | .plain '(' => return .condition (← readCondition dialect)
  | .plain '>' => return .group none false true 0 0
  | _ =>
    if t == .plain '-' || (flagOf? dialect t).isSome then
      match ← readFlags dialect t with
      | none => return .flags
      | some (on, off) => return .group none false false on off
    Read.refuseBack (t.text.length + 1) (.unknownExtension t.text)

/-- Takes the closing bracket of a part that starts at `start`. -/
def closePart (start : Nat) : Read Unit := do
  if !(← Read.accept ')') then throw (.at_ .openPart start)

def skipLine : Nat → Read Unit
  | 0 => return
  | fuel + 1 => do
    match ← Read.take with
    | none => return
    | some t => if t == .plain '\n' then return else skipLine fuel

def Token.isSkipped : Token → Bool
  | .plain c => [' ', '\t', '\n', '\r', '\x0b', '\x0c'].contains c
  | _ => false

mutual

def readAlternatives (dialect : Dialect) (verbose top : Bool)
    (sofar : List (List Item)) :
    Nat → Read (List Item)
  | 0 => return joinAlternatives sofar
  | fuel + 1 => do
    let items ← readItems dialect verbose (top && sofar.isEmpty) [] fuel
    let sofar := sofar ++ [items]
    if ← Read.accept '|' then
      let flags := (← get).flags
      let verbose := if top then Flag.has flags Flag.verbose else verbose
      readAlternatives dialect verbose top sofar fuel
    else return joinAlternatives sofar

/-- Reads a sequence of items after `items`. Flags for the whole pattern are
allowed if `first` holds and nothing precedes them. -/
def readItems (dialect : Dialect) (verbose first : Bool) (items : List Item) :
    Nat → Read (List Item)
  | 0 => return unfoldGroups items
  | fuel + 1 => do
    match ← Read.peek with
    | none | some (.plain '|') | some (.plain ')') => return unfoldGroups items
    | some this =>
      let _ ← Read.take
      if verbose && this.isSkipped then
        return ← readItems dialect verbose first items fuel
      if verbose && this == .plain '#' then
        skipLine ((← get).tokens.length + 1)
        return ← readItems dialect verbose first items fuel
      let here ← Read.tell
      match this with
      | .escaped c =>
        readItems dialect verbose first (items ++ [← readEscape dialect c]) fuel
      | .dangling => readItems dialect verbose first items fuel
      | .plain '[' =>
        readItems dialect verbose first (items ++ [← readSet]) fuel
      | .plain '.' => readItems dialect verbose first (items ++ [.any]) fuel
      | .plain '^' =>
        readItems dialect verbose first (items ++ [.anchor .beginning]) fuel
      | .plain '$' =>
        readItems dialect verbose first (items ++ [.anchor .ending]) fuel
      | .plain '?' =>
        readItems dialect verbose first
          (← repeatLast (here - 1) 0 (some 1) items) fuel
      | .plain '*' =>
        readItems dialect verbose first
          (← repeatLast (here - 1) 0 none items) fuel
      | .plain '+' =>
        readItems dialect verbose first
          (← repeatLast (here - 1) 1 none items) fuel
      | .plain '\x7b' =>
        match ← readCounts? with
        | none =>
          readItems dialect verbose first
            (items ++ [.literal '\x7b'.toNat]) fuel
        | some (low, high) =>
          readItems dialect verbose first
            (← repeatLast (here - 1) low high items) fuel
      | .plain '(' => readPart dialect verbose first items (here - 1) fuel
      | .plain c =>
        readItems dialect verbose first (items ++ [.literal c.toNat]) fuel

/-- Reads what an opening bracket at `start` begins, and goes on with the
sequence. -/
def readPart (dialect : Dialect) (verbose first : Bool) (items : List Item)
    (start : Nat) :
    Nat → Read (List Item)
  | 0 => return unfoldGroups items
  | fuel + 1 => do
    match ← readOpening dialect start with
    | .nothing => readItems dialect verbose first items fuel
    | .whole item => readItems dialect verbose first (items ++ [item]) fuel
    | .flags =>
      if !first || !items.isEmpty then throw (.at_ .lateFlags start)
      let flags := (← get).flags
      readItems dialect (Flag.has flags Flag.verbose) first items fuel
    | .look ahead holds =>
      let outer := (← get).lookbehind
      if !ahead && outer.isNone then modify fun s =>
        { s with lookbehind := some s.widths.length }
      let body ← readAlternatives dialect verbose false [] fuel
      if !ahead then modify fun s => { s with lookbehind := outer }
      closePart start
      let item :=
        if !holds && dialect.plainFailure && body.isEmpty then .failure
        else .look ahead holds body
      readItems dialect verbose first (items ++ [item]) fuel
    | .condition number =>
      let yes ← readItems dialect verbose false [] fuel
      let no ←
        if ← Read.accept '|' then
          let no ← readItems dialect verbose false [] fuel
          if (← Read.peek) == some (.plain '|') then Read.refuse .thirdBranch
          pure (some no)
        else pure none
      closePart start
      readItems dialect verbose first (items ++ [.condition number yes no]) fuel
    | .group name captures isAtomic on off =>
      let number ← if captures then (some <$> Read.openGroup name)
        else pure none
      let inner :=
        (verbose || Flag.has on Flag.verbose) && !Flag.has off Flag.verbose
      let body ← readAlternatives dialect inner false [] fuel
      closePart start
      if let some n := number then Read.closeGroup n body
      let item :=
        if isAtomic then Item.atomic body else .group number on off body
      readItems dialect verbose first (items ++ [item]) fuel

end

structure Form where
  items : List Item
  /-- The widths of the groups by number, from group zero on, which has none. -/
  widths : List (Option Width)
  names : List (List Char × Nat)
  flags : Nat

def Form.width (form : Form) : Width :=
  (Pattern.width form.widths form.items).cut

def readWhole (dialect : Dialect) : Read Form := do
  Read.checkNext
  let tokens := (← get).tokens
  let items ← readAlternatives dialect false true [] (3 * tokens.length + 3)
  let s ← get
  if Flag.has s.flags Flag.ascii && Flag.has s.flags Flag.unicode then
    throw .typeClash
  let flags :=
    if Flag.has s.flags Flag.ascii then s.flags else s.flags ||| Flag.unicode
  if (← Read.peek).isSome then Read.refuse .unbalanced
  match s.asked.find? fun (number, _) => number ≥ s.widths.length with
  | some (number, position) => throw (.at_ (.noGroup number) position)
  | none => return ⟨items, s.widths, s.names, flags⟩

def read (dialect : Dialect) (pattern : List Char) : Except PatternFault Form :=
  (readWhole dialect).run' ⟨tokensOf pattern, 0, 0, [], [none], none, []⟩

end TaskShell.Pattern

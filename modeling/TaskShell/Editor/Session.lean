import TaskShell.Editor.Bindings

/-!
# Editing a line

Keys arrive in groups. All keys of a group are acted on, then the completions
that were asked for are looked up, and then the line is shown.
-/

namespace TaskShell.Editor

/-- What is shown of a line: the line with its cursor, the menu and the start of
a selection; or the text that was accepted. -/
inductive View where
  | line (document : Document) (menu : Option Menu) (selection : Option Nat)
  | accepted (text : List Char)
  deriving DecidableEq, Repr

namespace State

variable (completions : List Char → List Completion)

def call (s : State) (b : Binding × Nat) (keys : List KeyPress) : State :=
  let e : Event := ⟨s.count, keys, s.last == some b.2⟩
  let s := { s with count := none }
  let s := if b.1.command == .ignore && keys.any (·.key == .report) then s
    else s.edit Buffer.save
  let wasTeaching := s.teaching.isSome
  let s := { b.1.command.run completions e s with last := some b.2 }
  if wasTeaching && b.1.command != .repeatTaught then
    { s with teaching := s.teaching.map (· ++ keys) }
  else s

/-- The best binding for some of the keys that are held, trying more keys
first. -/
def firstFit (s : State) : Nat → Option ((Binding × Nat) × Nat)
  | 0 => none
  | n + 1 =>
    match best? (fitting s ((s.held.take (n + 1)).map KeyPress.key)) with
    | some b => some (b, n + 1)
    | none => s.firstFit n

/-- Acts on the keys that are held, as far as they cannot become a longer
sequence. `fuel` bounds the number of commands. -/
def actOnHeld : Nat → State → State
  | 0, s => s
  | fuel + 1, s =>
    if s.held.isEmpty || s.outcome.isSome then s
    else
      let keys := s.held.map KeyPress.key
      let found := fitting s keys
      let eager := found.filter fun b => b.1.eager
      if eager.isEmpty && mayExtend s keys then s
      else
        match best? (if eager.isEmpty then found else eager) with
        | some b => { s.call completions b s.held with held := [] }
        | none =>
          match s.firstFit s.held.length with
          | some (b, n) =>
            actOnHeld fuel { s.call completions b (s.held.take n)
              with held := s.held.drop n }
          | none => actOnHeld fuel { s with held := s.held.drop 1 }

/-- Acts on the keys that wait until the editing ends. `fuel` bounds the number
of keys. -/
def actOnQueue : Nat → State → State
  | 0, s => s
  | fuel + 1, s =>
    if s.outcome.isSome then s
    else
      match s.queue with
      | [] => s
      | k :: rest =>
        let s := { s with queue := rest, held := s.held ++ [k] }
        actOnQueue fuel (s.actOnHeld completions (s.held.length + 1))

/-- A bound on the keys of a queue: taught keys may be repeated, and may be
taught again while they are. -/
def keyBound (s : State) : Nat :=
  (s.taught.length + (s.teaching.getD []).length + s.queue.length + 1) * Nat.pow
    2 (s.queue.length + 1)

def actOnGroup (s : State) (input : List Char) : State :=
  let (keys, scanner) := s.scanner.group input
  let s := { s with scanner, queue := s.queue ++ keys }
  let s := s.actOnQueue completions s.keyBound
  let search := { (if s.searching then s.search.load s.queries else s.search)
    with requests := [] }
  { s with search, main := s.main.settle completions }

/-- What is shown of the line, unless its editing was broken off. -/
def view (s : State) : Option View :=
  match s.outcome with
  | none =>
    some (.line s.main.document s.main.menu
      (s.main.selection.map Selection.origin))
  | some (.accepted text) => some (.accepted text)
  | some _ => none

/-- Edits a line with groups of keys, and gives what is shown after each. -/
def editLine (s : State) : List (List Char) → List View × State
  | [] => ([], s)
  | group :: rest =>
    let s := s.actOnGroup completions group
    let shown := s.view.toList
    if s.outcome.isSome then (shown, s)
    else
      let (more, s) := s.editLine rest
      (shown ++ more, s)

end State

end TaskShell.Editor

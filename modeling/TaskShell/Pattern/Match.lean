import TaskShell.Pattern.Reader

/-!
# Searching

Finds out whether a pattern occurs in a text. Alternatives are tried in order
and repetitions in the order of their greed, so references see what the leftmost
choice captured.
-/

namespace TaskShell.Pattern

open Text

/-! ## Kin of small letters -/

def kinTable : List (Nat × List Nat) :=
  [(0x69, [0x131]), (0x73, [0x17F]), (0xB5, [0x3BC]), (0x131, [0x69]),
    (0x17F, [0x73]), (0x345, [0x3B9, 0x1FBE]), (0x390, [0x1FD3]),
    (0x3B0, [0x1FE3]), (0x3B2, [0x3D0]), (0x3B5, [0x3F5]), (0x3B8, [0x3D1]),
    (0x3B9, [0x345, 0x1FBE]), (0x3BA, [0x3F0]), (0x3BC, [0xB5]),
    (0x3C0, [0x3D6]), (0x3C1, [0x3F1]), (0x3C2, [0x3C3]), (0x3C3, [0x3C2]),
    (0x3C6, [0x3D5]), (0x3D0, [0x3B2]), (0x3D1, [0x3B8]), (0x3D5, [0x3C6]),
    (0x3D6, [0x3C0]), (0x3F0, [0x3BA]), (0x3F1, [0x3C1]), (0x3F5, [0x3B5]),
    (0x432, [0x1C80]), (0x434, [0x1C81]), (0x43E, [0x1C82]), (0x441, [0x1C83]),
    (0x442, [0x1C84, 0x1C85]), (0x44A, [0x1C86]), (0x463, [0x1C87]),
    (0x1C80, [0x432]), (0x1C81, [0x434]), (0x1C82, [0x43E]), (0x1C83, [0x441]),
    (0x1C84, [0x442, 0x1C85]), (0x1C85, [0x442, 0x1C84]), (0x1C86, [0x44A]),
    (0x1C87, [0x463]), (0x1C88, [0xA64B]), (0x1E61, [0x1E9B]), (0x1E9B,
      [0x1E61]), (0x1FBE, [0x345, 0x3B9]), (0x1FD3, [0x390]), (0x1FE3, [0x3B0]),
      (0xA64B, [0x1C88]), (0xFB05, [0xFB06]), (0xFB06, [0xFB05])]

/-- The letters that count as the same small letter, the letter itself first. -/
def kinOf (code : Nat) : List Nat :=
  code :: (kinTable.lookup code).getD []

/-! ## Single characters -/

def smallForm (flags : Nat) (code : Nat) : Nat :=
  if Flag.has flags Flag.ascii then
    if 65 ≤ code && code ≤ 90 then code + 32 else code
  else (foldOf (Char.ofNat code)).toNat

/-- The code points that count as equal to a code point when case does not
matter. -/
def caseForms (flags : Nat) (code : Nat) : List Nat :=
  if Flag.has flags Flag.ascii then
    let small := smallForm flags code
    if 97 ≤ small && small ≤ 122 then [small, small - 32] else [small]
  else
    (kinOf (smallForm flags code)).flatMap fun small =>
      match upperOf (Char.ofNat small) with
      | [c] => [small, c.toNat]
      | _ => [small]

def Category.has (flags : Nat) (c : Char) : Category → Bool
  | digit => if Flag.has flags Flag.ascii then isDigitChar c else isDecimal c
  | notDigit =>
    !(if Flag.has flags Flag.ascii then isDigitChar c else isDecimal c)
  | space =>
    if Flag.has flags Flag.ascii then (Token.plain c).isSkipped else isBlank c
  | notSpace => !(if Flag.has flags Flag.ascii then (Token.plain c).isSkipped
      else isBlank c)
  | word =>
    if Flag.has flags Flag.ascii then
      c == '_' || isDigitChar c || isAsciiLetter c
    else isWordChar c
  | notWord =>
    !(if Flag.has flags Flag.ascii then
      c == '_' || isDigitChar c || isAsciiLetter c else isWordChar c)

def sameChar (flags : Nat) (code : Nat) (c : Char) : Bool :=
  c.toNat == code ||
    (Flag.has flags Flag.ignoreCase &&
      (kinOf (smallForm flags code)).contains (smallForm flags c.toNat))

def Member.has (flags : Nat) (c : Char) : Member → Bool
  | literal code => sameChar flags code c
  | range low high =>
    (low ≤ c.toNat && c.toNat ≤ high) ||
      (Flag.has flags Flag.ignoreCase &&
        (caseForms flags c.toNat).any fun code => low ≤ code && code ≤ high)
  | category k => k.has flags c

/-- Whether an item that takes exactly one character accepts it; nothing for
other items. -/
def Item.acceptsChar? (flags : Nat) (item : Item) (c : Char) : Option Bool :=
  match item with
  | .literal code => some (sameChar flags code c)
  | .notLiteral code => some (!sameChar flags code c)
  | .any => some (Flag.has flags Flag.dotAll || c != '\n')
  | .set negated members => some (members.any (·.has flags c) != negated)
  | _ => none

/-! ## Places -/

def wordAt (flags : Nat) (text : Array Char) (i : Nat) : Bool :=
  (text[i]?.map fun c => Category.word.has flags c).getD false

/-- Whether an index is between a word and what is not one. -/
def atBoundary (flags : Nat) (text : Array Char) (i : Nat) : Bool :=
  (i != 0 && wordAt flags text (i - 1)) != wordAt flags text i

def Anchor.holds (flags : Nat) (text : Array Char) (i : Nat) : Anchor → Bool
  | beginning =>
    i == 0 || (Flag.has flags Flag.multiline && text[i - 1]? == some '\n')
  | ending =>
    i == text.size || (text[i]? == some '\n' &&
      (i + 1 == text.size || Flag.has flags Flag.multiline))
  | textStart => i == 0
  | textEnd => i == text.size
  | boundary => text.size != 0 && atBoundary flags text i
  | notBoundary => text.size != 0 && !atBoundary flags text i

/-! ## Sequences -/

structure Spot where
  index : Nat
  groups : List (Nat × Nat × Nat)
  deriving Repr

/-- The pieces of a text from an index on that equal the piece from `low` to
`high`, under the flags. -/
def samePiece (flags : Nat) (text : Array Char) (i low high : Nat) : Bool :=
  (List.range (high - low)).all fun k =>
    match text[low + k]?, text[i + k]? with
    | some a, some b =>
      a == b || (Flag.has flags Flag.ignoreCase && sameChar flags a.toNat b)
    | _, _ => false

/-- How many characters from an index on a one-character item accepts, at most
`limit`. -/
def runLength (flags : Nat) (text : Array Char) (item : Item)
    (i : Nat) : Nat → Nat
  | 0 => 0
  | limit + 1 =>
    match text[i]? with
    | none => 0
    | some c =>
      if item.acceptsChar? flags c == some true then
        1 + runLength flags text item (i + 1) limit
      else 0

/-- The first length from `from_` downwards to `low` that the continuation
accepts. -/
def tryLongest (low : Nat) (k : Nat → Option Spot) : Nat → Option Spot
  | 0 => if low == 0 then k 0 else none
  | n + 1 =>
    if n + 1 < low then none
    else match k (n + 1) with
      | some s => some s
      | none => tryLongest low k n

/-- The first length from `low` upwards, over `count` steps, that the
continuation accepts. -/
def tryShortest (k : Nat → Option Spot) (low : Nat) : Nat → Option Spot
  | 0 => k low
  | count + 1 =>
    match k low with
    | some s => some s
    | none => tryShortest k (low + 1) count

def Item.isSingle : Item → Bool
  | .literal _ | .notLiteral _ | .any | .set _ _ => true
  | _ => false

/-- Matches items in sequence from a spot on, then continues with `k`. -/
def run (widths : List (Option Width)) (text : Array Char) :
    Nat → Nat → List Item → Spot → (Spot → Option Spot) → Option Spot
  | 0, _, _, _, _ => none
  | _ + 1, _, [], s, k => k s
  | fuel + 1, flags, item :: rest, s, k =>
    let go := fun s => run widths text fuel flags rest s k
    match item with
    | .literal _ | .notLiteral _ | .any | .set _ _ =>
      match text[s.index]? with
      | none => none
      | some c =>
        if item.acceptsChar? flags c == some true then
          go { s with index := s.index + 1 }
        else none
    | .anchor place => if place.holds flags text s.index then go s else none
    | .branch alternatives =>
      alternatives.findSome? fun items => run widths text fuel flags items s go
    | .group number on off body =>
      let inner := (flags ||| on) &&& (0xFFFF - off)
      let inner :=
        if Flag.has on Flag.types then
          (inner &&& (0xFFFF - Flag.types)) ||| (on &&& Flag.types)
        else inner
      run widths text fuel inner body s fun s' =>
        match number with
        | none => go s'
        | some n => go { s' with groups := (n, s.index, s'.index) :: s'.groups }
    | .atomic body =>
      match run widths text fuel flags body s some with
      | some s' => go s'
      | none => none
    | .repetition greed low high body =>
      match body with
      | [one] =>
        if one.isSingle then
          let limit := match high with
            | some h => min h (text.size - s.index)
            | none => text.size - s.index
          let most := runLength flags text one s.index limit
          let at_ := fun n => go { s with index := s.index + n }
          if most < low then none
          else match greed with
            | .greedy => tryLongest low at_ most
            | .lazy => tryShortest at_ low (most - low)
            | .possessive => at_ most
        else repeatRun widths text fuel flags greed low high body s k rest
      | _ => repeatRun widths text fuel flags greed low high body s k rest
    | .reference number =>
      match s.groups.lookup number with
      | none => none
      | some (low, high) =>
        if samePiece flags text s.index low high then
          go { s with index := s.index + (high - low) }
        else none
    | .condition number yes no =>
      if (s.groups.lookup number).isSome then
        run widths text fuel flags yes s go
      else run widths text fuel flags (no.getD []) s go
    | .look ahead holds body =>
      let back := if ahead then 0 else (width widths body).least
      let found :=
        if s.index < back then none
        else run widths text fuel flags body { s
          with index := s.index - back } some
      match found, holds with
      | some s', true => go { s' with index := s.index }
      | none, false => go s
      | _, _ => none
    | .failure => none
where
  /-- Repeats a body that is not a single character. -/
  repeatRun (widths : List (Option Width)) (text : Array Char)
    (fuel flags : Nat) (greed : Greed)
      (low : Nat) (high : Option Nat) (body : List Item) (s : Spot)
      (k : Spot → Option Spot) (rest : List Item) : Option Spot :=
    match fuel with
    | 0 => none
    | fuel + 1 =>
      let leave := fun s => run widths text fuel flags rest s k
      let once :=
        fun (k : Spot → Option Spot) => run widths text fuel flags body s k
      let next := .repetition greed (low - 1) (high.map (· - 1)) body
      if low > 0 then
        if greed == .possessive then
          match once some with
          | some s' => run widths text fuel flags (next :: rest) s' k
          | none => none
        else once fun s' => run widths text fuel flags (next :: rest) s' k
      else if high == some 0 then leave s
      else
        let again := fun s' =>
          if s'.index == s.index then none
          else run widths text fuel flags (next :: rest) s' k
        match greed with
        | .greedy =>
          match once again with
          | some found => some found
          | none => leave s
        | .lazy =>
          match leave s with
          | some found => some found
          | none => once again
        | .possessive =>
          match once some with
          | some s' => if s'.index == s.index then leave s'
              else run widths text fuel flags (next :: rest) s' k
          | none => leave s

mutual

def itemWeight : Item → Nat
  | .branch alternatives => 1 + weightAll alternatives
  | .group _ _ _ body | .atomic body | .look _ _ body => 1 + weight body
  | .repetition _ low _ body => 2 + (low + 1) * (weight body + 2)
  | .condition _ yes no =>
    1 + weight yes + (match no with | some items => weight items | none => 0)
  | _ => 1

def weight : List Item → Nat
  | [] => 1
  | item :: rest => itemWeight item + weight rest

/-- The `weight` of alternatives: how many steps they can take at one place of
the text. -/
def weightAll : List (List Item) → Nat
  | [] => 1
  | items :: rest => weight items + weightAll rest

end

def Form.occursIn (form : Form) (text : List Char) : Bool :=
  let chars := text.toArray
  let fuel := (weight form.items + 2) * (chars.size + 2) * 2
  (List.range (chars.size + 1)).any fun i =>
    (run form.widths chars fuel form.flags form.items ⟨i, []⟩ some).isSome

mutual

def itemFixed (widths : List (Option Width)) : Item → Bool
  | .branch alternatives => allFixed widths alternatives
  | .group _ _ _ body | .atomic body | .repetition _ _ _ body =>
    fixed widths body
  | .condition _ yes no =>
    fixed widths yes &&
      (match no with | some items => fixed widths items | none => true)
  | .look ahead _ body =>
    let w := (width widths body).cut
    (ahead || w.least == w.greatest) && fixed widths body
  | _ => true

def fixed (widths : List (Option Width)) : List Item → Bool
  | [] => true
  | item :: rest => itemFixed widths item && fixed widths rest

def allFixed (widths : List (Option Width)) : List (List Item) → Bool
  | [] => true
  | items :: rest => fixed widths items && allFixed widths rest

end

def compile (pattern : List Char) : Except PatternFault Form := do
  let form ← read .search pattern
  if fixed form.widths form.items then return form else throw .freeLookbehind

end TaskShell.Pattern

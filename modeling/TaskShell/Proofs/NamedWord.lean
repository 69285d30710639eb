import TaskShell.Options.Parse
import Mathlib.Data.List.Basic

/-!
# A named argument and its word

A command line of two words, the name of an argument and a word for it. If the
word is plain, the argument takes it; if the word could itself be a name, the
argument finds no word and the program ends with its usage.
-/

namespace TaskShell.Options

open List

variable {word help : String} {found : List Candidate}

/-- The argument of a name takes one word as it is, and the parser asks for
nothing else. -/
structure TakesWord (p : Parser) (name : String) (a : Argument)
    (field : String) : Prop where
  noFiles : p.filePrefixes = none
  noPositionals : p.positionals = []
  noRivals : p.exclusives = []
  free : ∀ b ∈ p.arguments, b.required = false ∧
    ∀ text, b.fallback ≠ some (.text text)
  exits : p.exits = true
  dash : ∃ c rest, name.toList = c :: rest ∧ p.isPrefixChar c = true
  notDivider : name ≠ "--"
  named : p.named? name = some a
  isNamed : a.isNamed = true
  single : a.count = .single
  stores : a.effect = .store
  asText : a.reading = some .text
  noChoices : a.allChoices = none
  current : a.deprecated = false
  hasField : a.field = some field

section

variable {env : Surroundings} {p : Parser}
  {descend : Nat → List String → Run (Fields × List String)}
variable {name field : String} {a : Argument}

private theorem foldlM_of_idle {α β : Type} {f : β → α → Run β} {x : β}
    {items : List α} (h : ∀ b ∈ items, f x b = pure x) :
    items.foldlM f x = pure x := by
  induction items with
  | nil => rfl
  | cons b items ih =>
    rw [foldlM_cons, h b mem_cons_self, pure_bind]
    exact ih fun c hc => h c (mem_cons_of_mem _ hc)

theorem settle_of_free (hfree : ∀ b ∈ p.arguments, b.required = false ∧
    ∀ text, b.fallback ≠ some (.text text))
    (hrivals : p.exclusives = []) (s : Progress) : settle p s = pure s := by
  unfold settle
  rw [foldlM_of_idle (x := ([], s)), hrivals, pure_bind]
  · rfl
  · intro b hb
    obtain ⟨hrequired, hfallback⟩ := hfree b hb
    dsimp only
    split
    · rfl
    · rw [hrequired]
      split
      · contradiction
      · split
        · next text field htext _ => exact absurd htext (hfallback text)
        · rfl

theorem takePositionals_of_nil {s : Progress} (hs : s.positionals = [])
    (words : List (String × Mark)) :
    takePositionals env p descend words s = pure (0, s) := by
  have hcounts : takeCounts [] (words.map (·.2)) = [] := rfl
  unfold takePositionals
  rw [hs, hcounts]
  simp only [zip_nil_right, foldlM_nil, pure_bind, drop_nil]
  rw [← hs]

theorem serve_name (w : MarkedWord) (hw : w.mark = .name)
    (rest : List MarkedWord) (s : Progress) (fuel : Nat) :
    serve env p descend false (w :: rest) s (fuel + 1) =
      takeNamed env p descend w.word w.found (rest.map MarkedWord.pair) s >>=
        fun r =>
        serve env p descend false (rest.drop (r.1 - 1)) r.2 fuel := by
  have hany : (w :: rest).any (·.mark == .name) = true := by
    rw [any_cons, hw]
    rfl
  have hbefore : (w :: rest).takeWhile (·.mark != .name) = [] := by
    rw [takeWhile_cons, hw]
    rfl
  conv => lhs; unfold serve
  rw [hany, hbefore]
  simp only [Bool.not_true, Bool.false_eq_true, if_false, Bool.false_or,
    isEmpty_nil, if_true, pure_bind, Nat.lt_irrefl, gt_iff_lt, map_nil,
    append_nil, length_nil, drop_zero]

theorem fault_is_argument (a : Argument) (message : String) :
    ∃ text, a.fault message = .argument text := by
  unfold Argument.fault
  split
  · exact ⟨_, rfl⟩
  · exact ⟨_, rfl⟩

theorem formatUsage_of_plain (hlayout : p.layout = .plain) (columns : Nat) :
    ∃ text, formatUsage p columns = .ok text := by
  have hnone : p.arguments.any (lacksReading p.layout) = false := by
    rw [any_eq_false]
    intro b _
    rw [hlayout]
    exact Bool.false_ne_true
  unfold formatUsage
  rw [hnone, Bool.and_false, if_neg Bool.false_ne_true]
  exact ⟨_, rfl⟩

theorem run_bind_of_error {α β : Type} {x : Run α} {console console' : Console}
    {stop : Stop} (h : x.run console = (.error stop, console'))
    (f : α → Run β) : (x >>= f).run console = (.error stop, console') := by
  show ExceptT.bindCont f (x.run console).1 (x.run console).2 = _
  rw [h]
  rfl

/-! ## The argument -/

variable (h : TakesWord p name a field)
include h

theorem TakesWord.candidates (manner : Manner) :
    candidates? manner p name = some [⟨some a, name, none, none⟩] := by
  obtain ⟨c, rest, hname, hc⟩ := h.dash
  unfold candidates?
  rw [hname]
  dsimp only
  rw [hc, h.named]
  rfl

theorem TakesWord.countSteps : countSteps a = [.one [.plain]] := by
  unfold Options.countSteps
  rw [h.isNamed, h.single]
  rfl

theorem TakesWord.rivals : rivals p a.id = [] := by
  unfold Options.rivals
  rw [h.noRivals]
  rfl

theorem takeNamed_of_name (word : String) (s : Progress) :
    takeNamed env p descend name [⟨some a, name, none, none⟩] [(word, .name)]
      s = Run.fail (countFault a) := by
  have hcount : takeCount a [.name] = Run.fail (countFault a) := by
    unfold takeCount takeCount?
    rw [h.countSteps]
    rfl
  have hflags : splitFlags env p [(word, .name)] [] a name none none
      (name.length + 1) = Run.fail (countFault a) := by
    unfold splitFlags
    exact congrArg (· >>= _) hcount
  unfold takeNamed
  dsimp only
  rw [hflags]
  rfl

variable (hne : word ≠ "--")
include hne

theorem takeNamed_of_plain (s : Progress) :
    takeNamed env p descend name [⟨some a, name, none, none⟩]
      [(word, .plain)] s =
      pure (2, put { s with
        seen := a.id :: s.seen, given := a.id :: s.given } a (.text word)) := by
  have hcount : takeCount a [.plain] = pure 1 := by
    unfold takeCount takeCount?
    rw [h.countSteps]
    rfl
  have hflags : splitFlags env p [(word, .plain)] [] a name none none
      (name.length + 1) = pure ⟨[(a, [word], name)], none, 1⟩ := by
    unfold splitFlags
    exact (congrArg (· >>= _) hcount).trans (pure_bind _ _)
  have hkept : dropDivider env a [word] = [word] := by
    unfold dropDivider
    rw [erase_of_not_mem (by simpa using Ne.symm hne), ite_self]
  have hread : readWords env.manner p a [word] = .ok (some (.text word)) := by
    unfold readWords readWord checkChoice
    rw [h.single, h.asText, h.noChoices]
    rfl
  have htake : take env p descend a [word] s =
      pure (put { s with
        seen := a.id :: s.seen, given := a.id :: s.given } a (.text word)) := by
    unfold take
    rw [hread]
    dsimp only [Run.ofExcept]
    rw [pure_bind, h.isNamed, h.rivals]
    simp only [Bool.true_or, if_true, find?_nil]
    unfold perform
    rw [h.stores]
  unfold takeNamed
  dsimp only
  rw [hflags, pure_bind]
  simp only [foldlM_cons, foldlM_nil, warnOnce, h.current, Bool.false_and,
    Bool.false_eq_true, if_false, pure_bind, hkept, htake]

/-! ## A plain word -/

section

variable (hword : candidates? env.manner p word = none)
include hword

private theorem markWords_of_plain :
    markWords env p [name, word] = pure
      [⟨name, .name, [⟨some a, name, none, none⟩]⟩, ⟨word, .plain, []⟩] := by
  have hname := h.notDivider
  simp only [markWords, h.candidates, hword, length_singleton, Nat.lt_irrefl,
    gt_iff_lt, decide_false, Bool.and_false, Bool.false_eq_true,
    if_false, pure_bind]

/-- `readLine` gives the argument its word if the parser has no positional
arguments. -/
theorem readLine_of_plain :
    readLine env p descend false [name, word] =
      pure ((startFields p).set field ⟨.text word, false⟩, []) := by
  have hput : ∀ s : Progress, put s a (.text word) =
      { s with fields := s.fields.set field ⟨.text word, false⟩ } := by
    intro s
    unfold put
    rw [h.hasField]
  unfold readLine
  rw [h.noFiles]
  dsimp only
  rw [pure_bind, markWords_of_plain h hne hword, pure_bind, h.noPositionals]
  rw [serve_name _ rfl]
  show (takeNamed env p descend name _ [(word, .plain)] _ >>= _) >>= _ = _
  rw [takeNamed_of_plain h hne, pure_bind, hput]
  show (pure _ >>= _) = _
  rw [pure_bind]
  dsimp only
  rw [if_neg Bool.false_ne_true, takePositionals_of_nil rfl, pure_bind,
    pure_bind, settle_of_free h.free h.noRivals, pure_bind]
  rfl

theorem readKnown_of_plain (others : List Parser) (fuel : Nat) :
    readKnown env (p :: others) 0 false [name, word] (fuel + 1) =
      pure ((startFields p).set field ⟨.text word, false⟩, []) := by
  unfold readKnown
  dsimp only [getElem?_cons_zero]
  rw [readLine_of_plain h hne hword, h.exits]
  rfl

variable (env)

theorem parse_of_plain (columns : Nat) :
    Draft.call env ⟨[p], [], columns⟩ (.parse [name, word]) =
      pure (.fields (plainFields
        ((startFields p).set field ⟨.text word, false⟩)) none) := by
  show (readKnown env [p] 0 false [name, word] (1 + 1) >>= _) = _
  rw [readKnown_of_plain h hne hword [] 1, pure_bind]
  rfl

theorem known_of_plain (columns : Nat) :
    Draft.call env ⟨[p], [], columns⟩ (.known [name, word]) =
      pure (.fields (plainFields
        ((startFields p).set field ⟨.text word, false⟩)) (some [])) := by
  show (readKnown env [p] 0 false [name, word] (1 + 1) >>= _) = _
  rw [readKnown_of_plain h hne hword [] 1, pure_bind]

end

/-! ## A word that could be a name -/

variable (hword : candidates? env.manner p word = some found)
variable (hone : found.length ≤ 1)
include hword hone

private theorem markWords_of_name :
    markWords env p [name, word] = pure
      [⟨name, .name, [⟨some a, name, none, none⟩]⟩, ⟨word, .name, found⟩] := by
  have hname := h.notDivider
  have hlength : ¬ 1 < found.length := by omega
  simp only [markWords, h.candidates, hword, length_singleton, Nat.lt_irrefl,
    gt_iff_lt, decide_false, Bool.and_false, Bool.false_eq_true, if_false,
    pure_bind, hlength]

/-- If the word could be a name (`candidates?`), the argument has none. -/
theorem readLine_of_name :
    readLine env p descend false [name, word] = Run.fail (countFault a) := by
  unfold readLine
  rw [h.noFiles]
  dsimp only
  rw [pure_bind, markWords_of_name h hne hword hone, pure_bind]
  rw [serve_name _ rfl]
  show (takeNamed env p descend name _ [(word, .name)] _ >>= _) >>= _ = _
  rw [takeNamed_of_name h]
  rfl

/-- `readKnown` ends the program with code 2 at a word that could be a name. -/
theorem readKnown_of_name (hlayout : p.layout = .plain)
    (others : List Parser) (fuel : Nat) (console : Console) :
    ∃ console', (readKnown env (p :: others) 0 false [name, word]
      (fuel + 1)).run console = (.error (.exit 2), console') := by
  obtain ⟨message, hmessage⟩ : ∃ message, countFault a = .argument message :=
    fault_is_argument a _
  obtain ⟨usage, husage⟩ := formatUsage_of_plain hlayout env.columns
  have hstop : ∀ console, ∃ console',
      (Run.usageError env p message : Run (Fields × List String)).run console =
        (.error (.exit 2), console') := by
    intro console
    unfold Run.usageError
    rw [husage]
    exact ⟨_, rfl⟩
  unfold readKnown
  dsimp only [getElem?_cons_zero]
  rw [readLine_of_name h hne hword hone, h.exits, hmessage]
  exact hstop console

variable (env)

theorem parse_of_name (hlayout : p.layout = .plain) (columns : Nat)
    (console : Console) :
    ∃ console', (Draft.call env ⟨[p], [], columns⟩ (.parse [name, word])).run
      console = (.error (.exit 2), console') := by
  obtain ⟨console', hstop⟩ :=
    readKnown_of_name h hne hword hone hlayout [] 1 console
  exact ⟨console', run_bind_of_error hstop _⟩

end

/-! ## Words that are no names -/

open Text

theorem candidates?_of_head {p : Parser}
    (h : ∀ c, word.toList.head? = some c → p.isPrefixChar c = false)
    (manner : Manner) : candidates? manner p word = none := by
  unfold candidates?
  split
  · rfl
  · next c rest hword =>
    rw [h c (by rw [hword]; rfl)]
    rfl

theorem splitOnce?_of_not_mem {sep : Char} {cs : List Char} (h : sep ∉ cs) :
    splitOnce? sep cs = none := by
  induction cs with
  | nil => rfl
  | cons c cs ih =>
    rw [mem_cons, not_or] at h
    have hc : (c == sep) = false := by
      rw [beq_eq_false_iff_ne]
      exact Ne.symm h.1
    rw [splitOnce?, hc, ih h.2]
    rfl

/-- A word that no name begins with, nor with its first two characters. -/
structure Unlike (p : Parser) (word : String) : Prop where
  noEquals : '=' ∉ word.toList
  noStart : ∀ name ∈ p.names.map (·.1), startsWith name word = false
  noShort : ∀ name ∈ p.names.map (·.1),
    name ≠ String.ofList (word.toList.take 2)

theorem Unlike.splitEquals {p : Parser} (h : Unlike p word) :
    splitEquals word = none := by
  unfold Options.splitEquals
  rw [splitOnce?_of_not_mem h.noEquals]
  rfl

theorem Unlike.named? {p : Parser} (h : Unlike p word) :
    p.named? word = none := by
  have hlookup : p.names.lookup word = none := by
    rw [lookup_eq_none_iff]
    intro entry hentry
    have hstart := h.noStart entry.1 (mem_map_of_mem hentry)
    rw [bne_iff_ne]
    intro hsame
    rw [hsame, startsWith, Bool.eq_false_iff] at hstart
    exact hstart ( isPrefixOf_iff_prefix.2 (prefix_refl _))
  unfold Parser.named?
  rw [hlookup]
  rfl

theorem Unlike.abbreviations {p : Parser} (h : Unlike p word)
    (manner : Manner) :
    abbreviations manner p word = [] := by
  have hstart : ∀ name ∈ p.names.map (·.1), ¬ startsWith name word = true := by
    intro name hname
    rw [h.noStart name hname]
    exact Bool.false_ne_true
  unfold Options.abbreviations
  rw [h.splitEquals]
  dsimp only
  split
  · split
    · rw [filterMap_eq_nil_iff]
      intro name hname
      rw [if_neg (hstart name hname)]
    · rfl
  · rw [ite_self, filterMap_eq_nil_iff]
    intro name hname
    have hshort : (name == String.ofList (word.toList.take 2)) = false := by
      rw [beq_eq_false_iff_ne]
      exact h.noShort name hname
    dsimp only
    rw [hshort, h.noStart name hname, Bool.and_false]
    rfl

/-- A word with a dash in front that is `Unlike` all names is a name all the
same, an unknown one, unless it is a negative number or has a blank in it. -/
theorem candidates?_of_unlike {p : Parser} {c d : Char} {rest : List Char}
    (h : Unlike p word) (hword : word.toList = c :: d :: rest)
    (hdash : p.isPrefixChar c = true) (hnegative : p.hasNegativeNames = false)
    (manner : Manner) : candidates? manner p word =
      if manner.isNumber word = true ∨ ' ' ∈ word.toList then none
        else some [⟨none, word, none, none⟩] := by
  have hblank : word.contains ' ' = true ↔ ' ' ∈ word.toList := by
    rw [String.contains_char_eq]
    simp
  unfold candidates?
  rw [hword]
  dsimp only
  rw [hdash, h.named?, h.splitEquals, h.abbreviations, hnegative, ← hword]
  show (if (manner.isNumber word && !false) = true then none
    else if word.contains ' ' = true then none else _) = _
  rw [Bool.not_false, Bool.and_true]
  by_cases hnumber : manner.isNumber word = true
  · rw [if_pos hnumber, if_pos (.inl hnumber)]
  · by_cases hspace : ' ' ∈ word.toList
    · rw [if_neg hnumber, if_pos (hblank.2 hspace), if_pos (.inr hspace)]
    · rw [if_neg hnumber, if_neg (mt hblank.1 hspace),
        if_neg (not_or.2 ⟨hnumber, hspace⟩)]

/-! ## Building the parser -/

def helpArgument : Argument :=
  { Argument.plain "help" with
    names := ["-h", "--help"]
    effect := .help
    count := .exactly 0
    fallback := none
    help := .text "show this help message and exit" }

def wordArgument (id : Nat) (name field : String) (reading : Option Reading)
    (help : String) : Argument :=
  { Argument.plain field with
    id := id, names := [name], reading := reading, help := .text help }

def namedParser (prog description : String)
    (arguments : List Argument) : Parser where
  prog := prog
  usage := none
  description := some description
  epilog := none
  layout := .plain
  prefixes := ['-']
  filePrefixes := none
  fallback := none
  replaces := false
  abbreviates := true
  exits := true
  suggests := false
  defaults := []
  arguments := helpArgument :: arguments
  names := (helpArgument :: arguments).flatMap fun a =>
    a.names.map fun name => (name, a.id)
  groups := [⟨some "positional arguments", none, []⟩,
    ⟨some "options", none, 0 :: arguments.map (·.id)⟩]
  exclusives := []
  hasNegativeNames := false
  commandGroup := none
  nextId := arguments.length + 1

theorem isPrefixChar_named (prog description : String)
    (arguments : List Argument) (c : Char) :
    (namedParser prog description arguments).isPrefixChar c = (c == '-') := by
  show List.elem c ['-'] = _
  rw [elem_cons, elem_nil]
  cases c == '-' with
  | true => rfl
  | false => rfl

/-- An argument of a `namedParser` takes its word if the others ask for
nothing. -/
theorem takesWord_of_named {prog description name field : String} {id : Nat}
    {arguments : List Argument} {letters : List Char}
    (hname : name.toList = '-' :: letters) (hne : name ≠ "--")
    (hfree : ∀ b ∈ arguments, b.required = false ∧
      ∀ text, b.fallback ≠ some (.text text))
    (hpositionals : (namedParser prog description arguments).positionals = [])
    (hnamed : (namedParser prog description arguments).named? name =
      some (wordArgument id name field (some .text) help)) :
    TakesWord (namedParser prog description arguments) name
      (wordArgument id name field (some .text) help) field where
  noFiles := rfl
  noPositionals := hpositionals
  noRivals := rfl
  free := by
    have hhelp : helpArgument.required = false ∧
        ∀ text, helpArgument.fallback ≠ some (.text text) := ⟨rfl, nofun⟩
    exact forall_mem_cons.2 ⟨hhelp, hfree⟩
  exits := rfl
  dash := ⟨'-', letters, hname, rfl⟩
  notDivider := hne
  named := hnamed
  isNamed := rfl
  single := rfl
  stores := rfl
  asText := rfl
  noChoices := rfl
  current := rfl
  hasField := rfl

theorem helpIsSound_of_plain {p : Parser} {a : Argument}
    (hlayout : p.layout = .plain) (hhelp : a.help = .text help)
    (hplain : '%' ∉ help.toList) : helpIsSound p a = true := by
  have hcontains : help.contains '%' = false := by
    rw [String.contains_char_eq]
    simpa using hplain
  have hsource : helpSource .plain a = some help := by
    unfold helpSource
    rw [hhelp]
    rfl
  unfold helpIsSound expandHelp
  rw [hhelp, hlayout, hsource]
  dsimp only
  rw [hcontains]
  simp

theorem add_argument {p p' : Parser} {a : Argument} {names : List String}
    {settings : Args} (columns : Nat)
    (hmake : makeArgument p names settings = .ok a)
    (hsound : helpIsSound p a = true)
    (hinsert : p.insert a (ownGroup a) = .ok p') :
    Draft.add ⟨[p], [], columns⟩ none (.argument names settings) =
      .ok ⟨[p'], [], columns⟩ := by
  show (do
    let b ← makeArgument p names settings
    if !helpIsSound p b then refuseValue "badly formed help string"
    let q ← p.insert b (ownGroup b)
    pure (Draft.setParser ⟨[p], [], columns⟩ 0 q)) = _
  rw [hmake]
  show (do
    if !helpIsSound p a then refuseValue "badly formed help string"
    let q ← p.insert a (ownGroup a)
    pure (Draft.setParser ⟨[p], [], columns⟩ 0 q)) = _
  rw [hsound, hinsert]
  rfl

/-- `addAll` goes on with the other parts once an argument by name is added. -/
theorem addAll_named {prog description : String} {arguments : List Argument}
    {a : Argument} {names : List String} {settings : Args}
    (hmake : makeArgument (namedParser prog description arguments) names
      settings = .ok a)
    (hhelp : a.help = .text help) (hplain : '%' ∉ help.toList)
    (hinsert : (namedParser prog description arguments).insert a (ownGroup a) =
      .ok (namedParser prog description (arguments ++ [a])))
    (columns : Nat) (rest : List (Option String × Part)) :
    ((none, .argument names settings) :: rest).foldlM (fun (d : Draft) part =>
      d.add part.1 part.2)
        ⟨[namedParser prog description arguments], [], columns⟩ =
      rest.foldlM (fun (d : Draft) part => d.add part.1 part.2)
        ⟨[namedParser prog description (arguments ++ [a])], [], columns⟩ := by
  rw [foldlM_cons,
    add_argument columns hmake (helpIsSound_of_plain rfl hhelp hplain) hinsert]
  rfl

end TaskShell.Options

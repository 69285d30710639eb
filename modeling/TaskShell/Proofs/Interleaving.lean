import TaskShell.Proofs.Innermost

/-!
# What the words of a command line are

Behind its command, a command line is a sequence of positional words and of
flags with their values. The scan for the arguments, the one for the positional
words, the one for their places and the one for the number of words find the
same sequence: each of them is a view of it, and each word of the line belongs
to one of its members.
-/

namespace TaskShell

open List

theorem Args.get?_set (args : Args) (name other : String) (v : Value) :
    (args.set name v).get? other = if other = name then some v
      else args.get? other := by
  have hcons : ∀ (k : String) (u : Value) (rest : Args),
      Args.get? ((k, u) :: rest) other = if other = k then some u
        else Args.get? rest other := by
    intro k u rest
    unfold Args.get?
    by_cases h : other = k
    · rw [if_pos h, lookup_cons, beq_iff_eq.2 h]
    · rw [if_neg h, lookup_cons, beq_eq_false_iff_ne.2 h]
  induction args with
  | nil => exact hcons name v []
  | cons entry rest ih =>
    obtain ⟨k, old⟩ := entry
    rw [Args.set, hcons]
    by_cases hk : k = name
    · rw [if_pos (beq_iff_eq.2 hk), hcons, hk]
      split <;> rfl
    · rw [if_neg (mt beq_iff_eq.1 hk), hcons, ih]
      by_cases h : other = k
      · rw [if_pos h, if_neg (by rw [h]; exact hk), if_pos h]
      · rw [if_neg h, if_neg h]

namespace Shell

/-! ## Members of a command line -/

/-- A positional word, or a flag with its value. -/
inductive Given where
  | word (text : String)
  | flag (mark value : String)

namespace Given

def words : Given → List String
  | .word text => [text]
  | .flag mark value => [mark, value]

def word? : Given → Option String
  | .word text => some text
  | .flag _ _ => none

def pair? : Given → Option (String × String)
  | .word _ => none
  | .flag mark value => some (mark, value)

def valueFor (name : String) : Given → Option String
  | .word _ => none
  | .flag mark value => if name = flagName mark then some value else none

end Given

/-- The members of a command line behind its command, in order. A word that
looks like a flag takes the word after it, whatever that looks like; without one
it is positional. -/
def givens : List String → List Given
  | [] => []
  | [word] => [.word word]
  | word :: value :: rest =>
    if isFlag word then .flag word value :: givens rest
    else .word word :: givens (value :: rest)

/-- The `givens` of a command line spell it out. -/
theorem flatMap_words_givens (words : List String) :
    (givens words).flatMap Given.words = words := by
  fun_induction givens words with
  | case1 => rfl
  | case2 word => rfl
  | case3 word value rest hflag ih => rw [flatMap_cons, ih]; rfl
  | case4 word value rest hflag ih => rw [flatMap_cons, ih]; rfl

theorem filterMap_word?_givens (words : List String) :
    (givens words).filterMap Given.word? = positionalFrom words := by
  fun_induction givens words with
  | case1 => rfl
  | case2 word => rfl
  | case3 word value rest hflag ih =>
    rw [positionalFrom, if_pos hflag, ← ih]; rfl
  | case4 word value rest hflag ih =>
    rw [positionalFrom, if_neg hflag, ← ih]; rfl

theorem filterMap_pair?_givens (words : List String) :
    (givens words).filterMap Given.pair? = flagPairs words := by
  fun_induction givens words with
  | case1 => rfl
  | case2 word => rfl
  | case3 word value rest hflag ih => rw [flagPairs, if_pos hflag, ← ih]; rfl
  | case4 word value rest hflag ih => rw [flagPairs, if_neg hflag, ← ih]; rfl

private theorem givens_ne_nil (word : String) (rest : List String) :
    givens (word :: rest) ≠ [] := by
  cases rest with
  | nil => exact cons_ne_nil _ _
  | cons value rest =>
    rw [givens]
    split <;> exact cons_ne_nil _ _

theorem isFlag_of_mem_givens (words : List String) :
    (∀ mark value, Given.flag mark value ∈ givens words → isFlag mark = true) ∧
      ∀ text, Given.word text ∈ (givens words).dropLast →
        isFlag text = false := by
  fun_induction givens words with
  | case1 =>
    exact ⟨fun _ _ h => absurd h not_mem_nil, fun _ h => absurd h not_mem_nil⟩
  | case2 word =>
    refine ⟨fun mark value h => ?_, fun _ h => absurd h not_mem_nil⟩
    cases mem_singleton.1 h
  | case3 word value rest hflag ih =>
    refine ⟨fun mark v h => ?_, fun text h => ?_⟩
    · rcases mem_cons.1 h with heq | h
      · cases heq
        exact hflag
      · exact ih.1 mark v h
    · cases hrest : givens rest with
      | nil =>
        rw [hrest] at h
        cases h
      | cons first others =>
        rw [hrest, dropLast_cons_cons, ← hrest] at h
        exact ih.2 text ((mem_cons.1 h).resolve_left fun heq => by cases heq)
  | case4 word value rest hflag ih =>
    have hne := givens_ne_nil value rest
    refine ⟨fun mark v h => ih.1 mark v
      ((mem_cons.1 h).resolve_left fun heq => by cases heq), fun text h => ?_⟩
    rw [dropLast_cons_of_ne_nil hne] at h
    rcases mem_cons.1 h with heq | h
    · cases heq
      exact Bool.eq_false_iff.2 hflag
    · exact ih.2 text h

/-! ## Views -/

/-- Of the values that a flag is given, `setFlags` keeps the last one. -/
theorem get?_setFlags (members : List Given) (name : String) : ∀ args : Args,
    (setFlags args (members.filterMap Given.pair?)).get? name =
      ((members.filterMap (Given.valueFor name)).getLast?.map Value.text).or
        (args.get? name) := by
  induction members with
  | nil => exact fun args => rfl
  | cons member members ih =>
    intro args
    cases member with
    | word text => exact ih args
    | flag mark value =>
      have hset := ih (args.set (flagName mark) (.text value))
      rw [Args.get?_set] at hset
      have hvalue : (Given.flag mark value).valueFor name = if name =
          flagName mark then some value else none := rfl
      change (setFlags (args.set (flagName mark) (.text value))
        (members.filterMap Given.pair?)).get? name = _
      rw [hset, filterMap_cons, hvalue]
      by_cases h : name = flagName mark
      · rw [if_pos h, if_pos h]
        dsimp only
        rw [getLast?_cons]
        cases (members.filterMap (Given.valueFor name)).getLast? <;> rfl
      · rw [if_neg h, if_neg h]

/-- `argsOf` gives the values that the flags are given last and, unless a flag
takes their place, the positional words. -/
theorem get?_argsOf_cons (command : String) (words : List String)
    (name : String) :
    (argsOf (command :: words)).get? name =
      (((givens words).filterMap (Given.valueFor name)).getLast?.map
        Value.text).or
        (if name = "str" ∧ (givens words).filterMap Given.word? ≠ [] then
          some (.text (" ".intercalate ((givens words).filterMap Given.word?)))
              else none) := by
  have hflags : ∀ n, (flagArgs words).get? n =
      ((givens words).filterMap (Given.valueFor n)).getLast?.map
        Value.text := by
    intro n
    rw [flagArgs, ← filterMap_pair?_givens, get?_setFlags]
    exact Option.or_none
  rw [argsOf_cons, ← filterMap_word?_givens, ← hflags]
  generalize (givens words).filterMap Given.word? = found
  by_cases hfound : found = []
  · rw [hfound, isEmpty_nil, Bool.true_or, if_pos rfl, if_neg fun h => h.2 rfl,
      Option.or_none]
  · rw [isEmpty_eq_false_iff.2 hfound, Bool.false_or]
    cases hstr : (flagArgs words).get? "str" with
    | some v =>
      -- a flag with the name `str` takes the place of the positional words
      rw [Option.isSome_some, if_pos rfl]
      by_cases hname : name = "str"
      · rw [hname, hstr, Option.some_or]
      · rw [if_neg fun h => hname h.1, Option.or_none]
    | none =>
      rw [Option.isSome_none, if_neg Bool.false_ne_true, Args.get?_set]
      by_cases hname : name = "str"
      · rw [if_pos hname, if_pos ⟨hname, hfound⟩, hname, hstr, Option.none_or]
      · rw [if_neg hname, if_neg fun h => hname h.1, Option.or_none]

theorem map_getElem?_positionalPlaces (command : String) (words : List String) :
    (positionalPlaces (command :: words)).map ((command :: words)[·]?) =
      (positionals (command :: words)).map some := by
  refine ext_getElem? fun k => ?_
  rw [getElem?_map, getElem?_map]
  have hlength : (positionalPlaces (command :: words)).length =
      (positionals (command :: words)).length :=
    length_placesFrom words 1
  cases hplace : (positionalPlaces (command :: words))[k]? with
  | none =>
    rw [List.getElem?_eq_none_iff, hlength,
      ← List.getElem?_eq_none_iff] at hplace
    rw [hplace]
    rfl
  | some place =>
    obtain ⟨hle, hword⟩ := getElem?_placesFrom hplace
    have hlt : k < (positionals (command :: words)).length := by
      rw [← hlength]
      exact (List.getElem?_eq_some_iff.1 hplace).1
    have hshift : (command :: words)[place]? = words[place - 1]? := by
      obtain ⟨i, rfl⟩ := Nat.exists_eq_add_of_le' hle
      exact getElem?_cons_succ
    rw [Option.map_some, hshift]
    change words[place - 1]? = (positionals (command :: words))[k]? at hword
    rw [hword, getElem?_eq_getElem hlt, Option.map_some]

private theorem substitute_eq {parts : List String} {text : Option String}
    {c : Located} (h : locate? parts text = some c) (v : Value) :
    substitute parts c v = parts.take c.first ++ [v.display] := by
  obtain ⟨before, innermost, place, -, -, -, -, hsearch, hinner, hwords⟩ :=
    locate?_search h
  obtain ⟨hlt, -⟩ := List.getElem?_eq_some_iff.1 hsearch.found
  -- the innermost command takes all the words from its place on
  have hconsumed : consumed c.words = parts.length - place := by
    have hlength := length_drop (i := place) (l := parts)
    cases hcons : parts.drop place with
    | nil =>
      rw [hcons] at hlength
      simp at hlength
      omega
    | cons word rest =>
      rw [hwords, hcons, consumed_cons, ← length_cons (a := word),
        ← hcons, hlength]
  have hend : parts.length ≤ max (place + consumed c.words - 1) c.last + 1 := by
    have hmax := Nat.le_max_left (place + consumed c.words - 1) c.last
    omega
  unfold substitute
  dsimp only
  rw [hinner, Option.getD_some, drop_eq_nil_of_le hend, append_nil]

/-- **The scans of a command line agree and lose nothing.** Behind its command,
every command line is the concatenation of its members: a flag takes the next
word whatever that looks like, and a word that looks like a flag and takes none
is the last one. The scan for the arguments and the one for the positional words
find the flags and the words among the members in order, the places of the words
increase and bear them, and no word is left over. Of the values that a flag is
given the last one is the argument of its name, and the positional words, if
there are any, are the argument `str` unless a flag has this name; there are no
other arguments. So a chain is replaced together with all that stands behind
it. -/
theorem scans_agree (command : String) (words : List String) :
    (givens words).flatMap Given.words = words ∧
    (∀ mark value, Given.flag mark value ∈ givens words → isFlag mark = true) ∧
    (∀ text, Given.word text ∈ (givens words).dropLast → isFlag text = false) ∧
    collect words [] [] =
      (setFlags [] ((givens words).filterMap Given.pair?),
        (givens words).filterMap Given.word?) ∧
    positionals (command :: words) = (givens words).filterMap Given.word? ∧
    (positionalPlaces (command :: words)).Pairwise (· < ·) ∧
    (positionalPlaces (command :: words)).map ((command :: words)[·]?) =
      (positionals (command :: words)).map some ∧
    (∀ name, (argsOf (command :: words)).get? name =
      (((givens words).filterMap (Given.valueFor name)).getLast?.map
        Value.text).or
        (if name = "str" ∧ positionals (command :: words) ≠ [] then
          some (.text (" ".intercalate (positionals (command :: words))))
            else none)) ∧
    consumed (command :: words) = (command :: words).length ∧
    ∀ text c v, locate? (command :: words) text = some c →
      substitute (command :: words) c v =
        (command :: words).take c.first ++ [v.display] := by
  obtain ⟨hflags, hplain⟩ := isFlag_of_mem_givens words
  have hfound :
      positionals (command :: words) = (givens words).filterMap Given.word? :=
    (filterMap_word?_givens words).symm
  refine ⟨flatMap_words_givens words, hflags, hplain, ?_, hfound,
    placesFrom_increasing words 1, map_getElem?_positionalPlaces command words,
    fun name => ?_, ?_, fun text c v hc => substitute_eq hc v⟩
  · rw [collect_eq, filterMap_pair?_givens, filterMap_word?_givens]
    rfl
  · rw [hfound]
    exact get?_argsOf_cons command words name
  · rw [consumed_cons, length_cons]

/-- A flag whose value looks like a flag, one that is given twice, and one
without a value. -/
theorem scans_agree_dangling :
    Given.flag "--a" "--b" ∈ givens ["--a", "--b", "x", "upper", "--a", "y",
      "--c"] ∧ isFlag "--a" = true ∧
    Given.word "x" ∈ (givens ["--a", "--b", "x", "upper", "--a", "y",
      "--c"]).dropLast ∧ isFlag "x" = false ∧
    (argsOf ["echo", "--a", "--b", "x", "upper", "--a", "y", "--c"]).get? "a" =
      some (.text "y") ∧
    (argsOf ["echo", "--a", "--b", "x", "upper", "--a", "y", "--c"]).get?
      "str" = some (.text "x upper --c") ∧
    locate? ["echo", "--a", "--b", "x", "upper", "--a", "y", "--c"] none =
      some ⟨["upper"], 4, 4, some 4, ["upper", "--a", "y", "--c"]⟩ ∧
    substitute ["echo", "--a", "--b", "x", "upper", "--a", "y", "--c"]
      ⟨["upper"], 4, 4, some 4, ["upper", "--a", "y", "--c"]⟩ (.text "V") =
        ["echo", "--a", "--b", "x", "V"] := by
  obtain ⟨-, hflags, hplain, -, -, -, -, hargs, -, hreplaced⟩ :=
    scans_agree "echo" ["--a", "--b", "x", "upper", "--a", "y", "--c"]
  have hflag : Given.flag "--a" "--b" ∈
      givens ["--a", "--b", "x", "upper", "--a", "y", "--c"] := mem_cons_self
  have hword : Given.word "x" ∈
      (givens ["--a", "--b", "x", "upper", "--a", "y", "--c"]).dropLast :=
    mem_cons_of_mem _ mem_cons_self
  exact ⟨hflag, hflags _ _ hflag, hword, hplain _ hword, hargs "a", hargs "str",
    rfl, hreplaced none _ _ rfl⟩

end Shell

end TaskShell

import TaskShell.Proofs.Declining

/-!
# The innermost command of a chain

The innermost command of a chain is run with the words behind it. Its place is
not kept while the chain is read: its name is looked for once more in the
command line, and the first place that bears it counts. For a composed line the
search begins with the first word of the chain, and for a part of a line right
behind the first word. So the innermost command is found at the last word of the
chain unless the same name stands before it on the way, as another command of
the chain or as the value of a flag. In that case it is given words that belong
to the chain.
-/

namespace TaskShell.Shell

open Act List

variable {words : List String} {i k p : Nat} {name : String}

/-! ## Places of positional words -/

theorem getElem?_placesFrom (h : (placesFrom i words)[k]? = some p) :
    i ≤ p ∧ words[p - i]? = (positionalFrom words)[k]? := by
  fun_induction placesFrom i words generalizing k with
  | case1 i => cases h
  | case2 i word =>
    cases k with
    | zero =>
      obtain rfl := Option.some.inj h
      simp [positionalFrom]
    | succ k => cases h
  | case3 i word value rest hflag ih =>
    obtain ⟨hle, hword⟩ := ih h
    have hplace : p - i = (p - (i + 2)) + 2 := by omega
    refine ⟨by omega, ?_⟩
    rw [hplace, positionalFrom, if_pos hflag, ← hword]
    rfl
  | case4 i word value rest hflag ih =>
    rw [positionalFrom, if_neg hflag]
    cases k with
    | zero =>
      obtain rfl := Option.some.inj h
      simp
    | succ k =>
      obtain ⟨hle, hword⟩ := ih h
      have hplace : p - i = (p - (i + 1)) + 1 := by omega
      refine ⟨by omega, ?_⟩
      rw [hplace, getElem?_cons_succ, getElem?_cons_succ, hword]

theorem placesFrom_increasing (words : List String) (i : Nat) :
    (placesFrom i words).Pairwise (· < ·) := by
  fun_induction placesFrom i words with
  | case1 i => exact List.Pairwise.nil
  | case2 i word => exact pairwise_singleton _ _
  | case3 i word value rest hflag ih => exact ih
  | case4 i word value rest hflag ih =>
    refine List.Pairwise.cons ?_ ih
    intro p hp
    obtain ⟨k, hk⟩ := mem_iff_getElem?.1 hp
    have hle := (getElem?_placesFrom hk).1
    omega

theorem place_lt_place {j q : Nat} (hjk : j < k)
    (hp : (placesFrom i words)[j]? = some p)
    (hq : (placesFrom i words)[k]? = some q) : p < q := by
  obtain ⟨hj, rfl⟩ := List.getElem?_eq_some_iff.1 hp
  obtain ⟨hk, rfl⟩ := List.getElem?_eq_some_iff.1 hq
  exact pairwise_iff_getElem.1 (placesFrom_increasing words i) j k hj hk hjk

theorem place_le_place {j q : Nat} (hjk : j ≤ k)
    (hp : (placesFrom i words)[j]? = some p)
    (hq : (placesFrom i words)[k]? = some q) : p ≤ q := by
  rcases Nat.eq_or_lt_of_le hjk with rfl | hlt
  · rw [hp] at hq
    exact Nat.le_of_eq (Option.some.inj hq)
  · exact Nat.le_of_lt (place_lt_place hlt hp hq)

/-! ## Chains and where they stand -/

/-- The chain that starts with the positional word of number `before`: a run of
links that ends before a word that is none. Its first and its last word stand at
`first` and `last` in the command line. -/
structure ChainAt (text : Option String) (parts : List String) (before : Nat)
    (chain : List String) (first last : Nat) :
    Prop where
  nonempty : chain ≠ []
  links : ∀ word ∈ chain, isLink text word = true
  run : ∃ after, (positionals parts).drop before = chain ++ after ∧
    ∀ word, after.head? = some word → isLink text word = false
  firstPlace : (positionalPlaces parts)[before]? = some first
  lastPlace : (positionalPlaces parts)[before + chain.length - 1]? = some last

/-- `firstChain` starts behind words that are no links. -/
theorem firstChain_spec {text : Option String} {chain : List String} {n : Nat}
    (h : firstChain text words i = some (n, chain)) :
    ∃ k, n = i + k ∧ chain = (words.drop k).takeWhile (isLink text) ∧
      ∀ word ∈ words.take k, isLink text word = false := by
  fun_induction firstChain text words i with
  | case1 i => cases h
  | case2 word rest i hlink =>
    obtain ⟨rfl, rfl⟩ := Prod.mk.inj (Option.some.inj h)
    exact ⟨0, rfl, rfl, by simp⟩
  | case3 word rest i hlink ih =>
    obtain ⟨k, hn, hchain, hbefore⟩ := ih h
    refine ⟨k + 1, by omega, hchain, ?_⟩
    rw [take_succ_cons]
    exact forall_mem_cons.2 ⟨Bool.eq_false_iff.2 hlink, hbefore⟩

theorem chainAt_of_takeWhile {text : Option String} {parts chain : List String}
    {before : Nat}
    (h : ((positionals parts).drop before).takeWhile (isLink text) = chain)
    (hne : chain ≠ []) :
    ∃ first last, ChainAt text parts before chain first last := by
  have hsplit : (positionals parts).drop before =
      chain ++ ((positionals parts).drop before).dropWhile (isLink text) := by
    rw [← h, takeWhile_append_dropWhile]
  have hpos : 0 < chain.length := length_pos_iff.2 hne
  have hlength : before + chain.length ≤ (positionals parts).length := by
    have hsum := congrArg List.length hsplit
    rw [length_drop, length_append] at hsum
    omega
  -- there are as many places as positional words
  have hplaces : (positionalPlaces parts).length = (positionals parts).length :=
    length_placesFrom _ 1
  obtain ⟨first, hfirst⟩ : ∃ first,
      (positionalPlaces parts)[before]? = some first :=
    ⟨_, getElem?_eq_getElem (by omega)⟩
  obtain ⟨last, hlast⟩ : ∃ last,
      (positionalPlaces parts)[before + chain.length - 1]? = some last :=
    ⟨_, getElem?_eq_getElem (by omega)⟩
  refine ⟨first, last, hne, ?_, ⟨_, hsplit, ?_⟩, hfirst, hlast⟩
  · rw [← h]
    exact all_eq_true.1 all_takeWhile
  · intro word hhead
    have hnot :=
      head?_dropWhile_not (isLink text) ((positionals parts).drop before)
    rw [hhead] at hnot
    simpa using hnot

section Chain

variable {text : Option String} {parts chain : List String}
  {before first last : Nat} (h : ChainAt text parts before chain first last)
include h

theorem ChainAt.getElem?_last : parts[last]? = chain.getLast? := by
  obtain ⟨after, hsplit, -⟩ := h.run
  obtain ⟨hle, hat⟩ := getElem?_placesFrom h.lastPlace
  have hpos : 0 < chain.length := length_pos_iff.2 h.nonempty
  have hindex : 1 + (last - 1) = last := by omega
  have hnumber :
      before + chain.length - 1 = before + (chain.length - 1) := by omega
  calc parts[last]?
      = (parts.drop 1)[last - 1]? := by rw [getElem?_drop, hindex]
    _ = (positionals parts)[before + (chain.length - 1)]? := by
      rw [hat, hnumber]; rfl
    _ = (chain ++ after)[chain.length - 1]? := by rw [← hsplit, getElem?_drop]
    _ = chain.getLast? := by
      rw [getElem?_append_left (by omega), getLast?_eq_getElem?]

theorem ChainAt.one_le_first : 1 ≤ first := (getElem?_placesFrom h.firstPlace).1

theorem ChainAt.first_le_last : first ≤ last := by
  have hpos : 0 < chain.length := length_pos_iff.2 h.nonempty
  exact place_le_place (by omega) h.firstPlace h.lastPlace

end Chain

/-! ## The search for the innermost command -/

/-- How a name is looked for from `start` on that is known to stand at `last`:
it is found at `place`, the first place that bears it, and this is `last`
exactly if the name does not stand before it. -/
structure SearchEnds (parts : List String) (name : String)
    (start last place : Nat) : Prop where
  start_le : start ≤ place
  le_last : place ≤ last
  found : parts[place]? = some name
  passed : name ∉ (parts.take place).drop start
  exact_iff : place = last ↔ name ∉ (parts.take last).drop start

theorem mem_drop_take {parts : List String} {start stop : Nat} :
    name ∈ (parts.take stop).drop start ↔ ∃ i, start ≤ i ∧ i < stop ∧
      parts[i]? = some name := by
  rw [mem_iff_getElem?]
  constructor
  · rintro ⟨k, hk⟩
    rw [getElem?_drop, getElem?_take] at hk
    split at hk
    · next hlt => exact ⟨start + k, by omega, hlt, hk⟩
    · cases hk
  · rintro ⟨i, hstart, hstop, hi⟩
    refine ⟨i - start, ?_⟩
    rw [getElem?_drop, Nat.add_sub_cancel' hstart, getElem?_take,
      if_pos hstop, hi]

/-- **The search for a name ends** at the first place that bears it
(`SearchEnds`). -/
theorem search_ends {parts : List String} {start last : Nat}
    (hle : start ≤ last) (hlast : parts[last]? = some name) :
    ∃ place, placeFrom? parts name start = some place ∧
      SearchEnds parts name start last place := by
  have hfound : ((parts.drop start).findIdx? (· == name)).isSome := by
    rw [findIdx?_isSome, any_eq_true]
    refine ⟨name, mem_iff_getElem?.2 ⟨last - start, ?_⟩, beq_self_eq_true name⟩
    rw [getElem?_drop, Nat.add_sub_cancel' hle, hlast]
  obtain ⟨k, hk⟩ := Option.isSome_iff_exists.1 hfound
  obtain ⟨hlt, hname, hbefore⟩ := findIdx?_eq_some_iff_getElem.1 hk
  have hplace : parts[k + start]? = some name := by
    rw [Nat.add_comm, ← getElem?_drop, getElem?_eq_getElem hlt]
    exact congrArg some (by simpa using hname)
  -- no earlier place bears the name
  have hpassed : ∀ i, start ≤ i → i < k + start → parts[i]? ≠ some name := by
    intro i hstart hi heq
    have hnot := hbefore (i - start) (by omega)
    rw [← Nat.add_sub_cancel' hstart, ← getElem?_drop,
      List.getElem?_eq_some_iff] at heq
    obtain ⟨_, heq⟩ := heq
    rw [heq] at hnot
    simp at hnot
  have hstop : k + start ≤ last :=
    Nat.le_of_not_lt fun hgt => hpassed last hle hgt hlast
  have hnone : name ∉ (parts.take (k + start)).drop start := by
    rw [mem_drop_take]
    rintro ⟨i, hstart, hi, heq⟩
    exact hpassed i hstart hi heq
  refine ⟨k + start, by rw [placeFrom?, hk]; rfl,
    ⟨Nat.le_add_left _ _, hstop, hplace, hnone, ?_⟩⟩
  constructor
  · intro h
    rwa [← h]
  · intro h
    refine Nat.le_antisymm hstop (Nat.le_of_not_lt fun hgt => h ?_)
    exact mem_drop_take.2 ⟨k + start, Nat.le_add_left _ _, hgt, hplace⟩

/-! ## What the innermost command is run with -/

/-- An action whose first command is the named one, run with the arguments of
some words that start with it. -/
def RunsFirst {α : Type} (name : String) (words : List String)
    (act : Act α) : Prop :=
  ∀ w, ∃ later, (act w).2.calls = w.calls ++ callOf name (argsOf words) :: later

theorem RunsFirst.bind {α β : Type} {x : Act α} {f : α → Act β}
    (h : RunsFirst name words x) (hf : ∀ a, ∃ own, Direct True own (f a)) :
    RunsFirst name words (x >>= f) := by
  intro w
  obtain ⟨later, hlater⟩ := h w
  rcases bind_cases x f w with ⟨a, t, ht, hrun⟩ | ⟨e, t, ht, hrun⟩
  · rw [ht] at hlater
    obtain ⟨own, hown⟩ := hf a
    obtain ⟨calls, hcalls, -⟩ := hown.runs t
    refine ⟨later ++ calls, ?_⟩
    rw [hrun, hcalls, hlater, append_assoc, cons_append]
  · rw [ht] at hlater
    exact ⟨later, by rw [hrun, hlater]⟩

private theorem runsFirst_runOrDecline (h : isKnown name = true)
    (words : List String) :
    RunsFirst name words (runOrDecline name (argsOf words)) := by
  have hattempt : RunsFirst name words
      (Act.attempt (runNamed name (argsOf words))) := fun w =>
    ⟨[], runNamed_notes h (argsOf words) w⟩
  refine hattempt.bind fun outcome => ⟨[], ?_⟩
  cases outcome with
  | ok v => exact direct_pure v
  | error f => exact direct_pure none

/-- `runChain` begins with the innermost command of its chain. -/
theorem runsFirst_runChain (h : isKnown name = true) (chain : List String)
    (hwords : words.head? = some name) :
    RunsFirst name words (runChain chain words) := by
  obtain ⟨rest, rfl⟩ := head?_eq_some_iff.1 hwords
  refine (runsFirst_runOrDecline h (name :: rest)).bind
    fun result => ⟨chain.dropLast.reverse, ?_⟩
  cases result with
  | none => exact direct_pure none
  | some v => exact direct_runThrough _ v

/-- The chain that `locate?` gives stands where it is said to, and its innermost
command is looked for from its first word on. -/
theorem locate?_search {parts : List String} {text : Option String}
    {c : Located} (h : locate? parts text = some c) :
    ∃ before innermost place, ChainAt text parts before c.chain c.first c.last ∧
      (∀ word ∈ (positionals parts).take before, isLink text word = false) ∧
      c.chain.getLast? = some innermost ∧ isKnown innermost = true ∧
      SearchEnds parts innermost c.first c.last place ∧ c.inner = some place ∧
      c.words = parts.drop place := by
  simp only [locate?, Option.bind_eq_bind, Option.bind_eq_some_iff,
    Option.some.injEq] at h
  obtain ⟨⟨n, chain⟩, hchain, first, hfirst, innermost, hlast, rfl⟩ := h
  dsimp only at hfirst hlast ⊢
  obtain ⟨hne, hlinks⟩ := firstChain_links hchain
  obtain ⟨before, hn, hrun, hbefore⟩ := firstChain_spec hchain
  obtain rfl : n = before := by omega
  obtain ⟨first', last, hat⟩ := chainAt_of_takeWhile hrun.symm hne
  obtain rfl : first = first' := by
    rw [hat.firstPlace] at hfirst
    exact (Option.some.inj hfirst).symm
  obtain ⟨place, hplace, hsearch⟩ :=
    search_ends hat.first_le_last (hat.getElem?_last.trans hlast)
  rw [hplace, hat.lastPlace]
  exact ⟨n, innermost, place, hat, hbefore, hlast,
    isKnown_of_isLink (hlinks innermost (mem_of_getLast? hlast)),
    hsearch, rfl, rfl⟩

/-- `runComposed` begins with the innermost command of the chain, on the words
from where it was found. -/
theorem runsFirst_runComposed {parts : List String} {text : Option String}
    {c : Located} (h : locate? parts text = some c)
    (hname : isKnown name = true) (hwords : c.words.head? = some name)
    (command : String) :
    RunsFirst name c.words (runComposed command parts text) := by
  unfold runComposed
  rw [h]
  refine (runsFirst_runChain hname c.chain hwords).bind
    fun inner => ⟨[command], ?_⟩
  cases inner with
  | none => exact direct_pure none
  | some v => exact (direct_runOrDecline _ _).andThen fun _ => direct_pure _

/-- The chain that `runInner` runs starts with its first positional word, and
its innermost command is looked for from the second word on. -/
theorem runInner_search {parts : List String} {text : Option String}
    (h : innerNames parts text ≠ []) :
    ∃ first last innermost place,
      ChainAt text parts 0 (innerNames parts text).reverse first last ∧
      (innerNames parts text).head? = some innermost ∧
      SearchEnds parts innermost 1 last place ∧
      RunsFirst innermost (parts.drop place) (runInner parts text) := by
  obtain ⟨chain, hchain⟩ : ∃ chain,
    (positionals parts).takeWhile (isLink text) = chain := ⟨_, rfl⟩
  have hnames : innerNames parts text = chain.reverse := by
    rw [innerNames, hchain]
  have hne : chain ≠ [] := by
    rintro rfl
    exact h hnames
  obtain ⟨first, last, hat⟩ : ∃ first last,
    ChainAt text parts 0 chain first last := chainAt_of_takeWhile hchain hne
  have hlast := getLast?_eq_some_getLast hne
  generalize chain.getLast hne = innermost at hlast
  have hstart := Nat.le_trans hat.one_le_first hat.first_le_last
  obtain ⟨place, hplace, hsearch⟩ :=
    search_ends hstart (hat.getElem?_last.trans hlast)
  refine ⟨first, last, innermost, place, ?_, ?_, hsearch, ?_⟩
  · rw [hnames, reverse_reverse]
    exact hat
  · rw [hnames, head?_reverse, hlast]
  · have hknown :=
      isKnown_of_isLink (hat.links innermost (mem_of_getLast? hlast))
    have hhead : (parts.drop place).head? = some innermost := by
      rw [head?_drop, hsearch.found]
    unfold runInner
    simp only [hchain, hlast, hplace]
    exact (runsFirst_runChain hknown chain hhead).bind
      fun _ => ⟨[], direct_pure _⟩

/-- **Where the innermost command of a chain is found.** Whenever a composed
line has a chain, it is the first run of links among the positional words, and
whenever a part of a line has one, it is the run right behind its first word.
The innermost command is the first command that is run, with the words from the
place on at which its name is found. That is the last word of the chain, and the
command is run with exactly the words behind the chain, if and only if its name
does not stand before it: not between the first and the last word of the chain
of a composed line, and not between the first word and the last word of the
chain of a part of a line. -/
theorem innermost_place_iff (parts : List String) (text : Option String) :
    (∀ c, locate? parts text = some c → ∃ before innermost place,
      ChainAt text parts before c.chain c.first c.last ∧
      (∀ word ∈ (positionals parts).take before, isLink text word = false) ∧
      c.chain.getLast? = some innermost ∧ c.inner = some place ∧
      c.words = parts.drop place ∧
      (∀ command, RunsFirst innermost (parts.drop place)
        (runComposed command parts text)) ∧
      SearchEnds parts innermost c.first c.last place ∧
      (c.words = parts.drop c.last ↔
        innermost ∉ (parts.take c.last).drop c.first)) ∧
    (innerNames parts text ≠ [] → ∃ first last innermost place,
      ChainAt text parts 0 (innerNames parts text).reverse first last ∧
      (innerNames parts text).head? = some innermost ∧
      RunsFirst innermost (parts.drop place) (runInner parts text) ∧
      SearchEnds parts innermost 1 last place ∧
      (parts.drop place = parts.drop last ↔
        innermost ∉ (parts.take last).drop 1)) := by
  -- words dropped up to two places are the same only if the places are
  have hdrop : ∀ {name start last place},
    SearchEnds parts name start last place → parts[last]? = some name →
      (parts.drop place = parts.drop last ↔
        name ∉ (parts.take last).drop start) := by
    intro name start last place hsearch hlast
    rw [← hsearch.exact_iff]
    constructor
    · intro heq
      have hlength := congrArg List.length heq
      obtain ⟨hlt, -⟩ := List.getElem?_eq_some_iff.1 hlast
      have hle := hsearch.le_last
      rw [length_drop, length_drop] at hlength
      omega
    · rintro rfl
      rfl
  constructor
  · intro c hc
    obtain ⟨before, innermost, place, hat, hbefore, hlast, hknown, hsearch,
      hinner, hwords⟩ := locate?_search hc
    have hhead : c.words.head? = some innermost := by
      rw [hwords, head?_drop, hsearch.found]
    refine ⟨before, innermost, place, hat, hbefore, hlast, hinner, hwords,
      ?_, hsearch, ?_⟩
    · intro command
      rw [← hwords]
      exact runsFirst_runComposed hc hknown hhead command
    · rw [hwords]
      exact hdrop hsearch (hat.getElem?_last.trans hlast)
  · intro hne
    obtain ⟨first, last, innermost, place, hat, hname, hsearch, hruns⟩ :=
      runInner_search hne
    refine ⟨first, last, innermost, place, hat, hname, hruns, hsearch,
      hdrop hsearch ?_⟩
    rw [hat.getElem?_last, getLast?_reverse, hname]

/-- Flags before the chain and between its words do not matter as long as their
values have other names. -/
theorem innermost_place_iff_flags :
    RunsFirst "upper" ["upper", "ab"] (runComposed "echo" ["echo", "--tag", "x",
      "reverse", "--to", "y", "upper", "ab"] none) ∧
      RunsFirst "upper" ["upper", "ab"] (runInner ["echo", "--tag", "x",
        "reverse", "--to", "y", "upper", "ab"] none) := by
  obtain ⟨hcomposed, hinner⟩ := innermost_place_iff ["echo", "--tag", "x",
    "reverse", "--to", "y", "upper", "ab"] none
  constructor
  · obtain ⟨before, innermost, place, -, -, hlast, hplace, -, hruns, -⟩ :=
      hcomposed ⟨["reverse", "upper"], 3, 6, some 6, ["upper", "ab"]⟩ rfl
    obtain rfl : "upper" = innermost := Option.some.inj hlast
    obtain rfl : 6 = place := Option.some.inj hplace
    exact hruns "echo"
  · obtain ⟨first, last, innermost, place, hat, hlast, hruns, hsearch, -⟩ :=
      hinner (by decide)
    obtain rfl : "upper" = innermost := Option.some.inj hlast
    obtain rfl : 6 = last := Option.some.inj hat.lastPlace
    obtain rfl : place = 6 := hsearch.exact_iff.2 (by decide)
    exact hruns

/-- A chain that ends with the name it starts with: the innermost command is
found at the first word of the chain and is given the rest of the chain as its
text. On the words behind the chain it would have come to another value. -/
theorem innermost_misplaced_repeated :
    ChainAt none ["echo", "upper", "reverse", "upper", "ab"] 0 ["upper",
      "reverse", "upper"] 1 3 ∧
      RunsFirst "upper" ["upper", "reverse", "upper", "ab"]
        (runInner ["echo", "upper", "reverse", "upper", "ab"] none) ∧
      (runComposed "echo" ["echo", "upper", "reverse", "upper", "ab"] none
        default).1 = .ok (some "BA REPPU ESREVER") ∧
      (runInner ["echo", "upper", "reverse", "upper", "ab"] none default).1 =
        .ok (some "BA REPPU ESREVER") ∧
      (runChain ["upper", "reverse", "upper"] ["upper", "ab"] default).1 =
        .ok (some (.text "BA")) := by
  refine ⟨?_, ?_, rfl, rfl, rfl⟩
  · exact ⟨by decide, by decide, ⟨["ab"], rfl, by decide⟩, rfl, rfl⟩
  · have hne : innerNames ["echo", "upper", "reverse", "upper", "ab"] none ≠
        [] := by decide
    obtain ⟨first, last, innermost, place, -, hlast, hsearch, hruns⟩ :=
      runInner_search hne
    obtain rfl : "upper" = innermost := Option.some.inj hlast
    obtain rfl : place = 1 := by
      have hplace : 1 ≤ place := hsearch.start_le
      have hpassed := hsearch.passed
      rw [mem_drop_take] at hpassed
      refine Nat.le_antisymm (Nat.le_of_not_lt fun hlt => hpassed ?_) hplace
      exact ⟨1, Nat.le_refl 1, hlt, rfl⟩
    exact hruns

end TaskShell.Shell

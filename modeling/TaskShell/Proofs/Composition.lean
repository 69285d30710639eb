import TaskShell.Proofs.Action
import TaskShell.Proofs.Scan

/-!
# Composed commands

A command line `outer pre c₁ … cₙ after`, in which `c₁ … cₙ` is a chain, runs
`cₙ` on the words after it, each other command of the chain on the text of the
result after it, and `outer` on the words of `pre` with the result of `c₁` as
one more positional word. The code keeps several views of the one list of words:
the positional words, their places, the first place of the innermost command,
and the number of words it takes. The lemmas below say what each view shows of
such a line; that they fit together is then a calculation.
-/

namespace TaskShell.Shell

open List

variable {name : String} {args : Args} {w w' : World} {v : Value}

/-! ## Names -/

theorem mem_table_of_isKnown (h : isKnown name = true) :
    name ∈ Command.table.map (·.1) ++ builtinNames := by
  simp only [isKnown, Bool.or_eq_true, Command.ofName?, lookup_isSome_iff] at h
  simpa using h

private theorem isFlag_of_table :
    (Command.table.map (·.1) ++ builtinNames).all (fun name => !isFlag name) =
      true := by decide

theorem isFlag_of_isKnown (h : isKnown name = true) : isFlag name = false := by
  simpa using all_eq_true.1 isFlag_of_table name (mem_table_of_isKnown h)

theorem isKnown_of_isLink {text : Option String} {word : String}
    (h : isLink text word = true) :
    isKnown word = true := by
  simp only [isLink, Bool.and_eq_true] at h
  exact h.1

/-! ## Where a chain stands -/

section Chain

variable {text : Option String} {chain : List String}
  (hc : ∀ c ∈ chain, isLink text c = true)
include hc

theorem dangles_chain : dangles chain = false := by
  fun_induction dangles chain with
  | case1 => rfl
  | case2 word =>
    exact isFlag_of_isKnown (isKnown_of_isLink (hc word (by simp)))
  | case3 word value rest hf ih =>
    rw [isFlag_of_isKnown (isKnown_of_isLink (hc word (by simp)))] at hf
    contradiction
  | case4 word value rest hf ih =>
    exact ih fun c hm => hc c (mem_cons_of_mem _ hm)

theorem positionalFrom_chain : positionalFrom chain = chain := by
  induction chain with
  | nil => rfl
  | cons word rest ih =>
    have hw := isFlag_of_isKnown (isKnown_of_isLink (hc word (by simp)))
    rw [positionalFrom_cons hw, ih fun c hm => hc c (mem_cons_of_mem _ hm)]

theorem placesFrom_chain :
    ∀ i, placesFrom i chain = List.range' i chain.length := by
  induction chain with
  | nil => intro i; rfl
  | cons word rest ih =>
    intro i
    have hw := isFlag_of_isKnown (isKnown_of_isLink (hc word (by simp)))
    rw [placesFrom_cons hw, ih fun c hm => hc c (mem_cons_of_mem _ hm)]
    rfl

/-- `firstChain` starts at the first link and ends before the next word that is
none. -/
theorem firstChain_append (before after : List String)
    (hb : ∀ p ∈ before, isLink text p = false) (hne : chain ≠ [])
    (ha : ∀ p, after.head? = some p → isLink text p = false) :
    ∀ i, firstChain text (before ++ (chain ++ after)) i =
      some (i + before.length, chain) := by
  induction before with
  | nil =>
    intro i
    have hstop : after.takeWhile (isLink text) = [] := by
      cases after with
      | nil => rfl
      | cons p rest => simp [ha p rfl]
    have htake : (chain ++ after).takeWhile (isLink text) = chain := by
      rw [takeWhile_append_of_pos hc, hstop, append_nil]
    cases chain with
    | nil => contradiction
    | cons word rest =>
      have hw := hc word (by simp)
      simp only [nil_append, cons_append, firstChain, hw, if_true]
      simpa using htake
  | cons p rest ih =>
    intro i
    have hp := hb p (by simp)
    simp only [cons_append, firstChain, hp, Bool.false_eq_true, if_false]
    rw [ih fun q hq => hb q (mem_cons_of_mem _ hq)]
    simp only [length_cons]
    congr 2
    omega

end Chain

theorem placeFrom?_append (before passed after : List String) (word : String)
    (h : word ∉ passed) :
    placeFrom? (before ++ (passed ++ word :: after)) word before.length =
      some (before.length + passed.length) := by
  have hidx : (passed ++ word :: after).findIdx? (· == word) =
      some passed.length := by
    rw [findIdx?_append, findIdx?_eq_none_iff.2, findIdx?_cons]
    · simp
    · intro x hx
      rw [beq_eq_false_iff_ne]
      rintro rfl
      exact h hx
  rw [placeFrom?, drop_left, hidx, Option.map_some, Nat.add_comm]

/-! ## A composed line -/

/-- What makes `pre ++ chain ++ after` the words of a composed line: the chain
is the first one, it ends before the words after it, and it names no command
twice. -/
structure Composed (text : Option String)
    (pre chain after : List String) : Prop where
  /-- No positional word before the chain starts one. -/
  free : ∀ p ∈ positionalFrom pre, isLink text p = false
  /-- The words before the chain do not end on a flag without a value. -/
  closed : dangles pre = false
  links : ∀ c ∈ chain, isLink text c = true
  distinct : chain.Nodup
  /-- The first positional word after the chain does not belong to it. -/
  stops : ∀ p, (positionalFrom after).head? = some p → isLink text p = false

section Line

variable {text : Option String} {outer inner : String}
  {pre init after : List String} (h : Composed text pre (init ++ [inner]) after)
include h

theorem positionals_line :
    positionals (outer :: (pre ++ (init ++ [inner]) ++ after)) =
    positionalFrom pre ++ ((init ++ [inner]) ++ positionalFrom after) := by
  rw [positionals, drop_succ_cons, drop_zero, append_assoc,
    positionalFrom_append _ _ h.closed, positionalFrom_append _ _
    (dangles_chain h.links), positionalFrom_chain h.links]

private theorem positionalPlaces_line :
    positionalPlaces (outer :: (pre ++ (init ++ [inner]) ++ after)) =
    placesFrom 1 pre ++ (List.range' (1 + pre.length) (init.length + 1) ++
      placesFrom (1 + pre.length + (init.length + 1)) after) := by
  rw [positionalPlaces, drop_succ_cons, drop_zero, append_assoc,
    placesFrom_append _ _ h.closed,
    placesFrom_append _ _ (dangles_chain h.links), placesFrom_chain h.links]
  simp

/-- `locate?` finds the chain where it stands, and its innermost command with
all the words after it. -/
theorem locate?_chain :
    locate? (outer :: (pre ++ (init ++ [inner]) ++ after)) text =
    some ⟨init ++ [inner], pre.length + 1, pre.length + 1 + init.length,
      some (pre.length + 1 + init.length), inner :: after⟩ := by
  have hfirst : firstChain text (positionalFrom pre ++
    ((init ++ [inner]) ++ positionalFrom after)) 0 =
      some ((positionalFrom pre).length, init ++ [inner]) := by
    rw [firstChain_append h.links _ _ h.free (by simp) h.stops, Nat.zero_add]
  -- the places of the chain come right after those of the positional words
  -- before it
  have hplace : ∀ k, k ≤ init.length →
      (positionalPlaces (outer :: (pre ++ (init ++ [inner]) ++
        after)))[(positionalFrom pre).length + k]? =
        some (pre.length + 1 + k) := by
    intro k hk
    rw [positionalPlaces_line h, getElem?_append_right
      (by rw [length_placesFrom]; omega), length_placesFrom,
      getElem?_append_left (by simp; omega), List.getElem?_range' (by omega)]
    simp
    omega
  have hinner : placeFrom? (outer :: (pre ++ (init ++ [inner]) ++ after)) inner
      (pre.length + 1) = some (pre.length + 1 + init.length) := by
    have hni : inner ∉ init :=
      fun hm => (nodup_append.1 h.distinct).2.2 inner hm inner (by simp) rfl
    simpa using placeFrom?_append (outer :: pre) init after inner hni
  have hwords : (outer :: (pre ++ (init ++ [inner]) ++ after)).drop
      (pre.length + 1 + init.length) = inner :: after := by
    have : outer :: (pre ++ (init ++ [inner]) ++ after) =
        (outer :: pre ++ init) ++ inner :: after := by simp
    rw [this, List.drop_left' (by simp; omega)]
  have hlast : (positionalFrom pre).length + (init ++ [inner]).length - 1 =
      (positionalFrom pre).length + init.length := by
    simp
  simp only [locate?, positionals_line h, hfirst, Option.bind_eq_bind,
    Option.bind_some, hlast, hplace init.length (Nat.le_refl _),
    getLast?_concat]
  have hzero := hplace 0 (Nat.zero_le _)
  simp only [Nat.add_zero] at hzero
  simp only [hzero, Option.bind_some, hinner, hwords, Option.getD_some]

omit h in
/-- `substitute` puts a value in place of the chain and of all the words after
it. -/
theorem substitute_chain (v : Value) :
    substitute (outer :: (pre ++ (init ++ [inner]) ++ after))
    ⟨init ++ [inner], pre.length + 1, pre.length + 1 + init.length,
      some (pre.length + 1 + init.length),
      inner :: after⟩ v = outer :: (pre ++ [v.display]) := by
  have hkeep : (outer :: (pre ++ (init ++ [inner]) ++ after)).take
      (pre.length + 1) = outer :: pre := by
    simp
  have hdrop : ∀ k, pre.length + 1 + init.length + (after.length + 1) - 1 ≤ k →
      (outer :: (pre ++ (init ++ [inner]) ++ after)).drop (k + 1) = [] := by
    intro k hk
    refine drop_eq_nil_of_le ?_
    simp
    omega
  simp only [substitute, Option.getD_some, consumed_cons, hkeep]
  rw [hdrop _ (Nat.le_max_left _ _)]
  simp

end Line

/-! ## Running a chain -/

/-- What `runNamed` notes. -/
def callOf (name : String) (args : Args) : Call :=
  ⟨(Builtin.ofName? name).isSome, name, .record args⟩

theorem runNamed_calls (h : runNamed name args w = (.ok (some v), w')) :
    w'.calls = w.calls ++ [callOf name args] := by
  have hw : w' = (runNamed name args w).2 := by rw [h]
  unfold callOf
  rcases hb : Builtin.ofName? name with _ | b
  · rcases hcmd : Command.ofName? name with _ | c
    · rw [runNamed_of_none hb hcmd] at h
      cases h
    · rw [hw, runNamed_of_command hb hcmd]
      exact congrArg World.calls
        (Act.bind_pure_snd (runCommand name c (.record args)) some w)
  · rw [hw, runNamed_of_some hb]
    exact (congrArg World.calls
      (Act.bind_pure_snd (runBuiltin name b args) some w)).trans
        ((Act.builtin_local b args).calls _)

/-- Commands, from the innermost on, hand their results on: the first is run
with some arguments and each other one with the text of the result before it. No
command fails; `calls` are the commands that are run, with their arguments. -/
inductive Relay : List String → Args → World → List Call → Value → World → Prop
  | last {name : String} {args : Args} {w w' : World} {v : Value}
      (run : runNamed name args w = (.ok (some v), w')) :
        Relay [name] args w [callOf name args] v w'
  | next {name other : String} {rest : List String} {args : Args}
      {w w₁ w' : World} {u v : Value} {calls : List Call}
      (run : runNamed name args w = (.ok (some u), w₁))
      (others :
        Relay (other :: rest) [("str", .text u.display)] w₁ calls v w') :
      Relay (name :: other :: rest) args w (callOf name args :: calls) v w'

theorem Relay.calls {names : List String} {calls : List Call}
    (h : Relay names args w calls v w') : w'.calls = w.calls ++ calls := by
  induction h with
  | last run => exact runNamed_calls run
  | next run _ ih => rw [ih, runNamed_calls run, append_assoc, singleton_append]

theorem runOrDecline_of_ok (h : runNamed name args w = (.ok (some v), w')) :
    runOrDecline name args w = (.ok (some v), w') := by
  simp [runOrDecline, h]

/-- `runThrough` runs the others on the result of the first. -/
theorem Relay.runThrough {names : List String} {calls : List Call}
    (h : Relay names args w calls v w') :
    ∀ name rest, names = name :: rest → ∃ u w₁,
      runNamed name args w = (.ok (some u), w₁) ∧
      Shell.runThrough rest u w₁ = (.ok (some v), w') := by
  induction h with
  | last run =>
    rintro _ _ ⟨⟩
    exact ⟨_, _, run, rfl⟩
  | next run _ ih =>
    rintro _ _ ⟨⟩
    obtain ⟨u, w₁, hu, hrest⟩ := ih _ _ rfl
    refine ⟨_, _, run, ?_⟩
    rw [Shell.runThrough, Act.bind_of_ok (runOrDecline_of_ok hu)]
    exact hrest

theorem Relay.runChain {init after : List String} {inner : String}
    {calls : List Call}
    (h : Relay (inner :: init.reverse) (argsOf (inner :: after)) w calls v w') :
    Shell.runChain (init ++ [inner]) (inner :: after) w =
      (.ok (some v), w') := by
  obtain ⟨u, w₁, hu, hrest⟩ := h.runThrough _ _ rfl
  simp only [Shell.runChain]
  rw [Act.bind_of_ok (runOrDecline_of_ok hu)]
  simpa using hrest

/-- The arguments of the outer command: the flags before the chain and, unless
one of them is named `str`, the positional words before the chain with the value
of the chain as one more. -/
def outerArgs (pre : List String) (value : String) : Args :=
  if ((flagArgs pre).get? "str").isSome then flagArgs pre
  else flagArgs pre ++
    [("str", .text (" ".intercalate (positionalFrom pre ++ [value])))]

/-- **Composition.** If no command of a composed line fails, the line has the
text of the result of the outer command as its value. The innermost command is
run with the words after it, each other command of the chain with the text of
the result after it, and the outer command with the words before the chain and
the text of the result of the chain, which is one word and never a flag. Nothing
else is run. -/
theorem runComposed_relays {text : Option String} {outer inner : String}
    {pre init after : List String}
    (h : Composed text pre (init ++ [inner]) after) {w w₁ w₂ : World}
    {calls : List Call} {v r : Value}
    (hchain :
      Relay (inner :: init.reverse) (argsOf (inner :: after)) w calls v w₁)
    (houter : runNamed outer (outerArgs pre v.display) w₁ =
      (.ok (some r), w₂)) :
    runComposed outer (outer :: (pre ++ (init ++ [inner]) ++ after)) text w =
      (.ok (some r.display), w₂) ∧
      w₂.calls =
        w.calls ++ calls ++ [callOf outer (outerArgs pre v.display)] := by
  have hargs : argsOf (outer :: (pre ++ [v.display])) =
      outerArgs pre v.display := argsOf_snoc _ _ _ h.closed
  constructor
  · simp only [runComposed, locate?_chain h]
    rw [Act.bind_of_ok hchain.runChain]
    dsimp only
    rw [substitute_chain, hargs, Act.bind_of_ok (runOrDecline_of_ok houter)]
    rfl
  · rw [runNamed_calls houter, hchain.calls]

/-- A value that looks like a flag is handed on as a word, behind a flag of the
outer command and a word of its own. -/
theorem runComposed_relays_flagLike :
    Composed none ["--tag", "x", "hi"]
      (["reverse"] ++ ["basename"]) ["a/cba--"] ∧
      ∃ w₂ : World,
        runComposed "reverse"
          ["reverse", "--tag", "x", "hi", "reverse", "basename", "a/cba--"]
          none default = (.ok (some "cba-- ih"), w₂) ∧
        w₂.calls = [⟨false, "basename", .record [("str", .text "a/cba--")]⟩,
          ⟨false, "reverse", .record [("str", .text "cba--")]⟩,
          ⟨false, "reverse",
            .record [("tag", .text "x"), ("str", .text "hi --abc")]⟩] := by
  have h : Composed none ["--tag", "x", "hi"]
      (["reverse"] ++ ["basename"]) ["a/cba--"] :=
    ⟨by decide, by decide, by decide, by decide, by decide⟩
  obtain ⟨w₁, hinner⟩ : ∃ w',
    runNamed "basename" (argsOf ["basename", "a/cba--"]) default =
      (.ok (some (.text "cba--")), w') := ⟨_, rfl⟩
  obtain ⟨w₂, hnext⟩ : ∃ w', runNamed "reverse" [("str", .text "cba--")] w₁ =
      (.ok (some (.text "--abc")), w') := ⟨_, rfl⟩
  obtain ⟨w₃, houter⟩ : ∃ w',
    runNamed "reverse" (outerArgs ["--tag", "x", "hi"] "--abc") w₂ =
      (.ok (some (.text "cba-- ih")), w') := ⟨_, rfl⟩
  have hrun := runComposed_relays h (.next hinner (.last hnext)) houter
  exact ⟨h, w₃, hrun.1, hrun.2⟩

end TaskShell.Shell

import TaskShell.Proofs.Failure
import TaskShell.Proofs.Innermost

/-!
# Fallbacks that chains do not need

Reading a chain asks for places, for the last of its words and for the place of
its innermost command, and running it asks for a builtin or a command at each
name. Each of these answers may be missing as far as its type goes, and there is
something that is done in that case. None of it is ever reached: what is asked
for is there, for every command line. A chain that is found is thus declined for
two reasons only, that a command fails or that the outer command is not known.
-/

namespace TaskShell.Shell

open Act List

variable {name : String} {text : Option String} {parts : List String}

/-! ## Names -/

/-- **What is handled**: `callBuiltin` leaves exactly the names unhandled that
are not in `builtinNames`, whatever the arguments are. -/
theorem callBuiltin_eq_none_iff (name : String) (args : Args) (w : World) :
    (callBuiltin name args w).1 = .ok none ↔ name ∉ builtinNames := by
  rw [← contains_iff_mem, ← isSome_ofName?]
  cases hb : Builtin.ofName? name with
  | none =>
    rw [callBuiltin_of_none hb]
    exact iff_of_true rfl Bool.false_ne_true
  | some b =>
    rw [callBuiltin_of_some hb]
    refine iff_of_false ?_ (not_not_intro rfl)
    rcases bind_cases (runBuiltin name b args) (fun v => pure (some v)) w
      with ⟨v, t, -, hrun⟩ | ⟨f, t, -, hrun⟩
    · rw [hrun]
      intro heq
      cases heq
    · rw [hrun]
      intro heq
      cases heq

/-- `callBuiltin` answers if it is given texts. -/
theorem callBuiltin_answers (h : name ∈ builtinNames) {args : Args}
    (hargs : Texts args) (w : World) :
    ∃ v w', callBuiltin name args w = (.ok (some v), w') := by
  obtain ⟨b, hb⟩ : ∃ b, Builtin.ofName? name = some b := by
    rw [← Option.isSome_iff_exists, isSome_ofName?, contains_iff_mem]
    exact h
  have hdirect : Direct True [name] (runBuiltin name b args) :=
    direct_runBuiltin name b fun _ => hargs
  obtain ⟨v, w', hrun⟩ := hdirect.sure_of trivial w
  refine ⟨v, w', ?_⟩
  rw [callBuiltin_of_some hb, bind_of_ok hrun]
  rfl

/-- A link is one of `builtinNames`, or there is a `Command` of its name. -/
theorem found_of_isLink (h : isLink text name = true) :
    name ∈ builtinNames ∨ ∃ c, Command.ofName? name = some c := by
  have hknown := isKnown_of_isLink h
  rw [isKnown, Bool.or_eq_true, contains_iff_mem,
    Option.isSome_iff_exists] at hknown
  exact hknown.symm

/-- `runNamed` runs a link: it has a result, or it fails. -/
theorem runNamed_ne_none (h : isLink text name = true)
    (args : Args) (w : World) :
    (runNamed name args w).1 ≠ .ok none := by
  rcases runNamed_known (isKnown_of_isLink h) args w with ⟨v, hv⟩ | ⟨f, hf⟩
  · rw [hv]
    intro heq
    cases heq
  · rw [hf]
    intro heq
    cases heq

/-! ## Finding a chain -/

private theorem firstChain_eq_none_iff {words : List String} {i : Nat} :
    firstChain text words i = none ↔
    ∀ word ∈ words, isLink text word = false := by
  fun_induction firstChain text words i with
  | case1 i => simp
  | case2 word rest i hlink => simp [hlink]
  | case3 word rest i hlink ih =>
    rw [ih, forall_mem_cons, Bool.eq_false_iff.2 hlink, and_iff_right rfl]

/-- **`locate?` misses a chain only where there is none**: the places and the
words that are asked for on the way are there. -/
theorem locate?_eq_none_iff (parts : List String) (text : Option String) :
    locate? parts text = none ↔
    ∀ word ∈ positionals parts, isLink text word = false := by
  rw [← firstChain_eq_none_iff (i := 0)]
  cases hfirst : firstChain text (positionals parts) 0 with
  | none =>
    refine iff_of_true ?_ rfl
    simp [locate?, hfirst]
  | some found =>
    obtain ⟨n, chain⟩ := found
    obtain ⟨hne, -⟩ := firstChain_links hfirst
    obtain ⟨before, hn, hrun, -⟩ := firstChain_spec hfirst
    obtain rfl : n = before := by omega
    obtain ⟨first, last, hat⟩ := chainAt_of_takeWhile hrun.symm hne
    refine iff_of_false ?_ (Option.some_ne_none _)
    simp [locate?, hfirst, hat.firstPlace, getLast?_eq_some_getLast hne]

/-- `placeFrom?` finds the innermost command of the chain of a part of a
line. -/
theorem placeFrom?_innermost {innermost : String}
    (h : ((positionals parts).takeWhile (isLink text)).getLast? =
      some innermost) :
    ∃ place, placeFrom? parts innermost 1 = some place ∧ place < parts.length ∧
      (parts.drop place).head? = some innermost := by
  have hne : (positionals parts).takeWhile (isLink text) ≠ [] := by
    intro hnil
    rw [hnil] at h
    cases h
  obtain ⟨first, last, hat⟩ : ∃ first last, ChainAt text parts 0 _ first last :=
    chainAt_of_takeWhile rfl hne
  have hstart := Nat.le_trans hat.one_le_first hat.first_le_last
  obtain ⟨place, hplace, hsearch⟩ :=
    search_ends hstart (hat.getElem?_last.trans h)
  refine ⟨place, hplace, (List.getElem?_eq_some_iff.1 hsearch.found).1, ?_⟩
  rw [head?_drop, hsearch.found]

/-! ## Giving a chain up -/

/-- Some commands were run one after the other (`BrokenOff`) up to one that
failed. -/
def FailedAt (names : List String) (w w' : World) : Prop :=
  ∃ before last f, BrokenOff names (before ++ [last]) w w' ∧
    (make last (replay before w)).1 = .error f

/-- `runComposed` declines a line with a chain only if a command fails or the
outer one is not known. -/
theorem failedAt_runComposed {command : String} {c : Located} {w w' : World}
    (hc : locate? parts text = some c)
    (h : runComposed command parts text w = (.ok none, w')) :
    FailedAt (composedNames command parts text) w w' ∨
    isKnown command = false := by
  have hnames :
      composedNames command parts text = c.chain.reverse ++ [command] := by
    rw [composedNames, hc]
  obtain ⟨calls, hbroken⟩ := brokenOff_runComposed h
  rcases hbroken.stopped with hnil | ⟨before, last, f, rfl, hfails⟩ |
    ⟨name, hname, hunknown⟩
  · rw [hnames] at hnil
    simp at hnil
  · exact .inl ⟨before, last, f, hbroken, hfails⟩
  · rw [hnames] at hname
    obtain ⟨-, hlast⟩ := List.append_inj' hname rfl
    rw [singleton_inj.1 hlast]
    exact .inr hunknown

/-- `runInner` declines the chain of a part of a line only if a command
fails. -/
theorem failedAt_runInner {w w' : World} (hne : innerNames parts text ≠ [])
    (h : runInner parts text w = (.ok none, w')) :
    FailedAt (innerNames parts text) w w' := by
  obtain ⟨calls, hbroken⟩ := brokenOff_runInner h
  rcases hbroken.stopped with hnil | ⟨before, last, f, rfl, hfails⟩ |
    ⟨name, hname, hunknown⟩
  · exact absurd hnil hne
  · exact ⟨before, last, f, hbroken, hfails⟩
  · -- all names of the chain are known
    have hmem : name ∈ innerNames parts text := by
      rw [hname]
      simp
    have hlink := all_eq_true.1 all_takeWhile name (mem_reverse.1 hmem)
    rw [isKnown_of_isLink hlink] at hunknown
    cases hunknown

/-- **The fallbacks of chains are never reached.** A composed line has a chain
as soon as one of its positional words is a link. The chain stands where it is
said to, with a place for its first and its last word, both of them in the
command line; its innermost command is found from the first word of the chain
on, and the words it is run with start with it. It is found in the chain of a
part of a line as well. A link is one of `builtinNames` or the name of a
command, and run with any arguments in any world it has a result or fails:
`callBuiltin` handles exactly the names of that list, and a builtin answers
whatever texts it is given. So a chain that is found and is not run to its end
was given up at a command that failed, or because the outer command is not
known. -/
theorem chains_need_no_fallback (command : String) (parts : List String)
    (text : Option String) :
    (locate? parts text = none ↔
      ∀ word ∈ positionals parts, isLink text word = false) ∧
    (∀ c, locate? parts text = some c → ∃ before innermost place,
      ChainAt text parts before c.chain c.first c.last ∧ c.last < parts.length ∧
      c.chain.getLast? = some innermost ∧ c.inner = some place ∧
      c.first ≤ place ∧ place ≤ c.last ∧
      c.words = parts.drop place ∧ c.words.head? = some innermost) ∧
    (∀ innermost, ((positionals parts).takeWhile (isLink text)).getLast? =
      some innermost →
      ∃ place, placeFrom? parts innermost 1 = some place ∧
        place < parts.length ∧ (parts.drop place).head? = some innermost) ∧
    (∀ name, isLink text name = true →
      ∀ args w, (runNamed name args w).1 ≠ .ok none) ∧
    (∀ name, isLink text name = true → name ∈ builtinNames ∨
      ∃ c, Command.ofName? name = some c) ∧
    (∀ name args w, (callBuiltin name args w).1 = .ok none ↔
      name ∉ builtinNames) ∧
    (∀ name ∈ builtinNames, ∀ args, Texts args →
      ∀ w, ∃ v w', callBuiltin name args w = (.ok (some v), w')) ∧
    (∀ c w w', locate? parts text = some c →
      runComposed command parts text w = (.ok none, w') →
      FailedAt (composedNames command parts text) w w' ∨
      isKnown command = false) ∧
    (∀ w w', innerNames parts text ≠ [] →
      runInner parts text w = (.ok none, w') →
      FailedAt (innerNames parts text) w w') := by
  refine ⟨locate?_eq_none_iff parts text, fun c hc => ?_,
    fun _ => placeFrom?_innermost,
    fun _ hlink => runNamed_ne_none hlink, fun _ => found_of_isLink,
    callBuiltin_eq_none_iff, fun _ hname _ => callBuiltin_answers hname,
    fun _ _ _ => failedAt_runComposed, fun _ _ => failedAt_runInner⟩
  obtain ⟨before, innermost, place, hat, -, hlast, -, hsearch, hinner,
    hwords⟩ := locate?_search hc
  obtain ⟨hlt, -⟩ := List.getElem?_eq_some_iff.1 (hat.getElem?_last.trans hlast)
  refine ⟨before, innermost, place, hat, hlt, hlast, hinner, hsearch.start_le,
    hsearch.le_last, hwords, ?_⟩
  rw [hwords, head?_drop, hsearch.found]

/-- A chain behind a flag whose only command fails: it is found, and both kinds
give it up there. -/
theorem chains_need_no_fallback_fails :
    isLink none "uname" = true ∧ (runNamed "uname" [] default).1 ≠ .ok none ∧
    locate? ["upper", "--tag", "x", "uname", "b"] none =
      some ⟨["uname"], 3, 3, some 3, ["uname", "b"]⟩ ∧
    innerNames ["upper", "--tag", "x", "uname", "b"] none = ["uname"] ∧
    (∃ place, placeFrom? ["upper", "--tag", "x", "uname", "b"] "uname" 1 =
      some place ∧ place < 5) ∧
    Texts [("str", .text "a")] ∧ (∃ v w',
      callBuiltin "echo" [("str", .text "a")] default = (.ok (some v), w')) ∧
    ∃ w', runComposed "upper" ["upper", "--tag", "x", "uname", "b"] none
      default = (.ok none, w') ∧
      runInner ["upper", "--tag", "x", "uname", "b"] none default =
        (.ok none, w') ∧
      FailedAt ["uname", "upper"] default w' ∧
      FailedAt ["uname"] default w' := by
  obtain ⟨-, -, hplace, hlinks, -, -, hanswers, hcomposed, hinner⟩ :=
    chains_need_no_fallback "upper" ["upper", "--tag", "x", "uname", "b"] none
  have hlocate : locate? ["upper", "--tag", "x", "uname", "b"] none =
      some ⟨["uname"], 3, 3, some 3, ["uname", "b"]⟩ := rfl
  have htexts : Texts [("str", .text "a")] := by
    intro arg harg
    exact ⟨"a", by rw [mem_singleton.1 harg]⟩
  obtain ⟨place, hfound, hlt, -⟩ := hplace "uname" rfl
  obtain ⟨v, w₁, hv⟩ := hanswers "echo" (by decide) _ htexts default
  obtain ⟨w', hrun, hpart⟩ : ∃ w',
    runComposed "upper" ["upper", "--tag", "x", "uname", "b"] none default =
      (.ok none, w') ∧
      runInner ["upper", "--tag", "x", "uname", "b"] none default =
        (.ok none, w') := ⟨_, rfl, rfl⟩
  refine ⟨by decide, hlinks "uname" (by decide) _ _, hlocate, rfl,
    ⟨place, hfound, hlt⟩, htexts, ⟨v, w₁, hv⟩, w', hrun, hpart, ?_,
    hinner default w' (by decide) hpart⟩
  exact (hcomposed _ default w' hlocate hrun).resolve_right (by decide)

end TaskShell.Shell

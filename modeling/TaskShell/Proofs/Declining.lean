import TaskShell.Proofs.Naming

/-!
# Declined chains

A chain is declined if one of its commands fails, or if the outer command fails
or is not known. The line is then taken as a plain command, but the commands
that were run before are not taken back: what a declined chain leaves behind is
the world after the commands it got to. These are the first ones of the chain,
from right to left, each run once, and all of them but the last had a result.
Only a line without a chain is declined with nothing done.

The world after some commands is written as a `replay` of what was noted of
them. That a chain stops where it does is a derivation (`Declined`) that follows
the commands one by one; the rest is read off it by induction.

## Main results

* `hands_runChain` - a chain stops at a command that fails, or hands its result
  on to the outer command.
* `Declined.brokenOff` - what is known of the world after commands that stopped.
* `declined_replays` - what either kind of chain leaves behind when it is
  declined.
-/

namespace TaskShell.Shell

open Act List

variable {name : String} {chain parts : List String} {text : Option String}

/-! ## Commands run again -/

def make (call : Call) : Act (Option Value) :=
  match call.args with
  | .record args => runNamed call.name args
  | _ => pure none

/-- The world after some calls are made (`make`), whatever comes of them. -/
def replay (calls : List Call) (w : World) : World :=
  calls.foldl (fun w call => (make call w).2) w

@[simp] theorem make_callOf (name : String) (args : Args) :
    make (callOf name args) = runNamed name args := rfl

@[simp] theorem replay_nil (w : World) : replay [] w = w := rfl

@[simp] theorem replay_cons (call : Call) (calls : List Call) (w : World) :
    replay (call :: calls) w = replay calls (make call w).2 := rfl

private theorem runNamed_unknown (h : isKnown name = false)
    (args : Args) (w : World) :
    runNamed name args w = (.ok none, w) := by
  simp only [isKnown_eq, Bool.or_eq_false_iff, Option.isSome_eq_false_iff,
    Option.isNone_iff_eq_none] at h
  rw [runNamed_of_none h.2 h.1]
  rfl

theorem runOrDecline_unknown (h : isKnown name = false) (args : Args)
    (w : World) : runOrDecline name args w = (.ok none, w) := by
  simp [runOrDecline, runNamed_unknown h]

/-- `runNamed` notes a known command also if it fails. -/
theorem runNamed_notes (h : isKnown name = true) (args : Args) (w : World) :
    (runNamed name args w).2.calls = w.calls ++ [callOf name args] := by
  unfold callOf
  rcases hb : Builtin.ofName? name with _ | b
  · rcases hcmd : Command.ofName? name with _ | c
    · simp [isKnown_eq, hb, hcmd] at h
    · rw [runNamed_of_command hb hcmd]
      exact congrArg World.calls
        (bind_pure_snd (runCommand name c (.record args)) some w)
  · rw [runNamed_of_some hb]
    exact (congrArg World.calls
      (bind_pure_snd (runBuiltin name b args) some w)).trans
        ((builtin_local b args).calls _)

theorem runNamed_known (h : isKnown name = true) (args : Args) (w : World) :
    (∃ v, (runNamed name args w).1 = .ok (some v)) ∨
    ∃ f, (runNamed name args w).1 = .error f := by
  have hresult : ∀ act : Act Value,
    (∃ v, ((act >>= fun v => pure (some v)) w).1 = .ok (some v)) ∨
      ∃ f, ((act >>= fun v => pure (some v)) w).1 = .error f := by
    intro act
    rcases bind_cases act (fun v => pure (some v)) w
      with ⟨v, t, -, hrun⟩ | ⟨f, t, -, hrun⟩
    · exact .inl ⟨v, by rw [hrun]; rfl⟩
    · exact .inr ⟨f, by rw [hrun]⟩
  rcases hb : Builtin.ofName? name with _ | b
  · rcases hcmd : Command.ofName? name with _ | c
    · simp [isKnown_eq, hb, hcmd] at h
    · rw [runNamed_of_command hb hcmd]
      exact hresult _
  · rw [runNamed_of_some hb]
    exact hresult _

/-- `runOrDecline` hands on a result, or the command fails, or it is not known
and nothing is done. -/
theorem runOrDecline_cases (name : String) (args : Args) (w : World) :
    (∃ v w', runNamed name args w = (.ok (some v), w') ∧
      runOrDecline name args w = (.ok (some v), w')) ∨
      (∃ f w', isKnown name = true ∧ runNamed name args w = (.error f, w') ∧
        runOrDecline name args w = (.ok none, w')) ∨
        (isKnown name = false ∧ runOrDecline name args w = (.ok none, w)) := by
  rcases hrun : runNamed name args w with ⟨outcome, w'⟩
  cases hk : isKnown name with
  | false => exact .inr (.inr ⟨rfl, runOrDecline_unknown hk args w⟩)
  | true =>
    rcases runNamed_known hk args w with ⟨v, hv⟩ | ⟨f, hf⟩
    · obtain rfl : outcome = .ok (some v) := by rw [← hv, hrun]
      exact .inl ⟨v, w', rfl, runOrDecline_of_ok hrun⟩
    · obtain rfl : outcome = .error f := by rw [← hf, hrun]
      exact .inr (.inl ⟨f, w', rfl, rfl, by simp [runOrDecline, hrun]⟩)

/-! ## How a chain stops -/

/-- Commands are run one after the other until one of them fails or the last one
turns out to be unknown; `calls` are those that were run. -/
inductive Declined : List String → List Call → World → World → Prop
  | fails {name : String} {rest : List String} {args : Args} {w w' : World}
      {f : Fault} (known : isKnown name = true)
      (run : runNamed name args w = (.error f, w')) :
        Declined (name :: rest) [callOf name args] w w'
  | unknown {name : String} {w : World} (unknown : isKnown name = false) :
      Declined [name] [] w w
  | next {name : String} {rest : List String} {args : Args} {w w₁ w' : World}
      {v : Value} {calls : List Call}
      (known : isKnown name = true) (run : runNamed name args w =
        (.ok (some v), w₁))
      (others : Declined rest calls w₁ w') :
        Declined (name :: rest) (callOf name args :: calls) w w'

/-- An action that runs some known commands one after the other and hands on a
result: it gives up where one of them fails, or leaves it to the commands after
them how the whole stops. -/
def Hands (names : List String) (act : Act (Option Value)) : Prop :=
  ∀ tail w, (∃ calls w', act w = (.ok none, w') ∧
    Declined (names ++ tail) calls w w') ∨ ∃ v w₁, act w = (.ok (some v), w₁) ∧
      ∀ later w', Declined tail later w₁ w' →
        ∃ calls, Declined (names ++ tail) calls w w'

theorem hands_pure (v : Value) : Hands [] (pure (some v)) :=
  fun _ w => .inr ⟨v, w, rfl, fun later _ h => ⟨later, h⟩⟩

theorem hands_runOrDecline (h : isKnown name = true) (args : Args) :
    Hands [name] (runOrDecline name args) := by
  intro tail w
  rcases runOrDecline_cases name args w with ⟨v, w₁, hrun, hdone⟩ |
    ⟨f, w₁, -, hrun, hdone⟩ | ⟨hno, -⟩
  · exact .inr ⟨v, w₁, hdone, fun later w' hlater => ⟨_, .next h hrun hlater⟩⟩
  · exact .inl ⟨_, w₁, hdone, .fails h hrun⟩
  · rw [h] at hno
    cases hno

theorem Hands.bind {names others : List String} {act : Act (Option Value)}
    {f : Option Value → Act (Option Value)}
    (h : Hands names act) (hnone : f none = pure none)
    (hsome : ∀ v, Hands others (f (some v))) :
    Hands (names ++ others) (act >>= f) := by
  intro tail w
  rw [append_assoc]
  rcases h (others ++ tail) w with ⟨calls, w', hrun, hstop⟩ | ⟨v, w₁, hrun, hgo⟩
  · exact .inl ⟨calls, w', by rw [bind_of_ok hrun, hnone]; rfl, hstop⟩
  · rw [bind_of_ok hrun]
    rcases hsome v tail w₁ with ⟨later, w', hlater, hstop⟩ |
      ⟨u, w₂, hlater, hgo'⟩
    · obtain ⟨calls, hcalls⟩ := hgo later w' hstop
      exact .inl ⟨calls, w', hlater, hcalls⟩
    · refine .inr ⟨u, w₂, hlater, fun last w' hlast => ?_⟩
      obtain ⟨later, hstop⟩ := hgo' last w' hlast
      exact hgo later w' hstop

private theorem hands_runThrough {names : List String}
    (h : ∀ name ∈ names, isKnown name = true) :
    ∀ v, Hands names (runThrough names v) := by
  induction names with
  | nil => exact hands_pure
  | cons name rest ih =>
    intro v
    exact (hands_runOrDecline (h name (by simp)) _).bind rfl (ih fun n hn =>
      h n (mem_cons_of_mem _ hn))

/-- `runChain` hands on what a chain gives whose innermost command stands first
among its words. -/
theorem hands_runChain {words : List String} (hne : chain ≠ [])
    (hhead : words.head? = chain.getLast?)
    (h : ∀ name ∈ chain, isKnown name = true) :
    Hands chain.reverse (runChain chain words) := by
  cases words with
  | nil => exact absurd (getLast?_eq_none_iff.1 hhead.symm) hne
  | cons name rest =>
    obtain ⟨init, rfl⟩ := getLast?_eq_some_iff.1 hhead.symm
    rw [reverse_append, reverse_singleton]
    refine (hands_runOrDecline (h name (by simp)) _).bind rfl fun v => ?_
    rw [dropLast_concat]
    exact hands_runThrough (fun n hn => h n (by simp at hn; simp [hn])) v

/-! ## What a declined chain leaves behind -/

/-- The world after a chain that stopped: a `replay` of the commands that were
run, and nothing is undone. -/
structure BrokenOff (names : List String) (calls : List Call)
    (w w' : World) : Prop where
  world : w' = replay calls w
  noted : w'.calls = w.calls ++ calls
  /-- The commands that were run are the first of the names, each once and in
  their order. -/
  first : calls.map Call.name <+: names
  /-- Something was run, unless there was nothing to run. -/
  started : calls = [] → names = []
  /-- A command after which another was run had a result. -/
  earlier : ∀ before call after, calls = before ++ call :: after → after ≠ [] →
    ∃ v, (make call (replay before w)).1 = .ok (some v)
  /-- There was nothing to run, or the last command that was run failed, or the
  one after it is not known. -/
  stopped : names = [] ∨ (∃ before last f, calls = before ++ [last] ∧
    (make last (replay before w)).1 = .error f) ∨
    ∃ name, names = calls.map Call.name ++ [name] ∧ isKnown name = false

theorem brokenOff_nil (w : World) : BrokenOff [] [] w w where
  world := rfl
  noted := (append_nil _).symm
  first := nil_prefix
  started _ := rfl
  earlier := by simp
  stopped := .inl rfl

section Stopped

variable {names : List String} {calls : List Call} {w w' : World}
  (h : Declined names calls w w')
include h

theorem Declined.world : w' = replay calls w := by
  induction h with
  | fails known run => rw [replay_cons, make_callOf, run, replay_nil]
  | unknown unknown => rfl
  | next known run others ih => rw [replay_cons, make_callOf, run, ih]

theorem Declined.noted : w'.calls = w.calls ++ calls := by
  induction h with
  | fails known run => rw [← runNamed_notes known, run]
  | unknown unknown => rw [append_nil]
  | next known run others ih =>
    rw [ih, append_cons, ← runNamed_notes known, run]

theorem Declined.first : calls.map Call.name <+: names := by
  induction h with
  | fails known run => exact ⟨_, rfl⟩
  | unknown unknown => exact nil_prefix
  | next known run others ih => exact (prefix_cons_inj _).2 ih

theorem Declined.earlier :
    ∀ before call after, calls = before ++ call :: after → after ≠ [] →
    ∃ v, (make call (replay before w)).1 = .ok (some v) := by
  induction h with
  | fails known run =>
    intro before call after hcalls hafter
    have hlength := congrArg List.length hcalls
    simp only [length_append, length_cons, length_nil] at hlength
    exact absurd (length_eq_zero_iff.1 (by omega)) hafter
  | unknown unknown =>
    intro before call after hcalls
    simp at hcalls
  | next known run others ih =>
    intro before call after hcalls hafter
    cases before with
    | nil =>
      obtain ⟨rfl, -⟩ := List.cons.inj hcalls
      exact ⟨_, by rw [replay_nil, make_callOf, run]⟩
    | cons first before =>
      obtain ⟨rfl, hrest⟩ := List.cons.inj hcalls
      rw [replay_cons, make_callOf, run]
      exact ih before call after hrest hafter

theorem Declined.stopped :
    (∃ before last f, calls = before ++ [last] ∧
      (make last (replay before w)).1 = .error f) ∨
      ∃ name, names = calls.map Call.name ++ [name] ∧ isKnown name = false := by
  induction h with
  | fails known run =>
    exact .inl ⟨[], _, _, rfl, by rw [replay_nil, make_callOf, run]⟩
  | unknown unknown => exact .inr ⟨_, rfl, unknown⟩
  | next known run others ih =>
    rcases ih with ⟨before, last, f, rfl, hlast⟩ | ⟨name, rfl, hname⟩
    · exact .inl ⟨_ :: before, last, f,
        rfl, by rw [replay_cons, make_callOf, run]; exact hlast⟩
    · exact .inr ⟨name, rfl, hname⟩

theorem Declined.ne_nil (hhead : names.head? = some name)
    (hname : isKnown name = true) : calls ≠ [] := by
  cases h with
  | fails known run => simp
  | unknown unknown =>
    obtain rfl := Option.some.inj hhead
    rw [hname] at unknown
    cases unknown
  | next known run others => simp

/-- Commands that stopped, the first of which is known, leave behind what they
have done until then. -/
theorem Declined.brokenOff (hhead : names.head? = some name)
    (hname : isKnown name = true) :
    BrokenOff names calls w w' where
  world := h.world
  noted := h.noted
  first := h.first
  started hcalls := absurd hcalls (h.ne_nil hhead hname)
  earlier := h.earlier
  stopped := .inr h.stopped

end Stopped

/-! ## Chains in a command line -/

theorem firstChain_links {words : List String} : ∀ {i before : Nat},
    firstChain text words i = some (before, chain) → chain ≠ [] ∧
    ∀ c ∈ chain, isLink text c = true := by
  induction words with
  | nil =>
    intro i before h
    cases h
  | cons word rest ih =>
    intro i before h
    rw [firstChain] at h
    split at h
    · next hword =>
      obtain ⟨-, rfl⟩ := Prod.mk.inj (Option.some.inj h)
      refine ⟨?_, fun c hc => all_eq_true.1 all_takeWhile c hc⟩
      rw [takeWhile_cons_of_pos hword]
      exact cons_ne_nil _ _
    · exact ih h

theorem declined_of_runOrDecline {args : Args} {w w' : World}
    (h : runOrDecline name args w = (.ok none, w')) :
    ∃ calls, Declined [name] calls w w' := by
  rcases runOrDecline_cases name args w
    with ⟨v, w₁, -, hdone⟩ | ⟨f, w₁, hknown, hrun, hdone⟩ | ⟨hno, hdone⟩
  · rw [hdone] at h
    cases h
  · rw [hdone] at h
    cases h
    exact ⟨_, .fails hknown hrun⟩
  · rw [hdone] at h
    cases h
    exact ⟨_, .unknown hno⟩

theorem head?_chain_reverse (hne : chain ≠ [])
    (h : ∀ c ∈ chain, isKnown c = true) (tail : List String) :
    ∃ name, (chain.reverse ++ tail).head? = some name ∧
      isKnown name = true := by
  refine ⟨chain.getLast hne, ?_, h _ (getLast_mem hne)⟩
  rw [head?_append, head?_reverse, getLast?_eq_some_getLast hne]
  rfl

/-- `runComposed`, when it declines a line, leaves behind what its chain, and
then the outer command, got to. -/
theorem brokenOff_runComposed {command : String} {w w' : World}
    (h : runComposed command parts text w = (.ok none, w')) :
    ∃ calls, BrokenOff (composedNames command parts text) calls w w' := by
  unfold runComposed at h
  unfold composedNames
  cases hc : locate? parts text with
  | none =>
    rw [hc] at h
    cases h
    exact ⟨[], brokenOff_nil w⟩
  | some c =>
    rw [hc] at h
    dsimp only at h ⊢
    obtain ⟨hhead, before, hchain⟩ := locate?_eq_some hc
    obtain ⟨hne, hlinks⟩ := firstChain_links hchain
    have hknown : ∀ name ∈ c.chain, isKnown name = true :=
      fun n hn => isKnown_of_isLink (hlinks n hn)
    obtain ⟨name, hname, hk⟩ := head?_chain_reverse hne hknown [command]
    rcases hands_runChain hne hhead hknown [command] w
      with ⟨calls, w₁, hrun, hstop⟩ | ⟨v, w₁, hrun, hgo⟩
    · rw [bind_of_ok hrun] at h
      cases h
      exact ⟨calls, hstop.brokenOff hname hk⟩
    · rw [bind_of_ok hrun] at h
      obtain ⟨result, w₂, houter, hresult⟩ := ok_of_bind h
      obtain ⟨hnone, rfl⟩ := ok_of_pure hresult
      rw [Option.map_eq_none_iff.1 hnone] at houter
      obtain ⟨later, hlater⟩ := declined_of_runOrDecline houter
      obtain ⟨calls, hstop⟩ := hgo later w₂ hlater
      exact ⟨calls, hstop.brokenOff hname hk⟩

/-- `runInner`, when it declines a chain, leaves behind what the chain got
to. -/
theorem brokenOff_runInner {w w' : World}
    (h : runInner parts text w = (.ok none, w')) :
    ∃ calls, BrokenOff (innerNames parts text) calls w w' := by
  unfold runInner at h
  unfold innerNames
  dsimp only at h
  generalize hchain : (positionals parts).takeWhile (isLink text) = chain at h ⊢
  have hknown : ∀ name ∈ chain, isKnown name = true := by
    rw [← hchain]
    exact fun name hname =>
      isKnown_of_isLink (all_eq_true.1 all_takeWhile name hname)
  cases hlast : chain.getLast? with
  | none =>
    rw [hlast] at h
    cases h
    rw [getLast?_eq_none_iff.1 hlast]
    exact ⟨[], brokenOff_nil w⟩
  | some innermost =>
    rw [hlast] at h
    dsimp only at h
    have hne : chain ≠ [] := by
      rintro rfl
      cases hlast
    have hstops : ∀ words, words.head? = chain.getLast? →
      runChain chain words w = (.ok none, w') →
        ∃ calls, BrokenOff chain.reverse calls w w' := by
      intro words hhead hrun
      obtain ⟨name, hname, hk⟩ := head?_chain_reverse hne hknown []
      rcases hands_runChain hne hhead hknown [] w
        with ⟨calls, w₁, hrun', hstop⟩ | ⟨v, w₁, hrun', -⟩
      · rw [hrun'] at hrun
        cases hrun
        rw [append_nil] at hname hstop
        exact ⟨calls, hstop.brokenOff hname hk⟩
      · rw [hrun'] at hrun
        cases hrun
    obtain ⟨result, w₁, hrun, hresult⟩ := ok_of_bind h
    obtain ⟨hnone, rfl⟩ := ok_of_pure hresult
    rw [Option.map_eq_none_iff.1 hnone] at hrun
    refine hstops _ ?_ hrun
    rw [hlast]
    split
    · next i hplace => exact head?_drop_placeFrom? hplace
    · rfl

theorem runComposed_of_no_names {command : String}
    (h : composedNames command parts text = []) (w : World) :
    runComposed command parts text w = (.ok none, w) := by
  unfold composedNames at h
  unfold runComposed
  cases hc : locate? parts text with
  | none => rfl
  | some c =>
    rw [hc] at h
    simp at h

theorem runInner_of_no_names (h : innerNames parts text = []) (w : World) :
    runInner parts text w = (.ok none, w) := by
  unfold runInner
  dsimp only
  rw [reverse_eq_nil_iff.1 h]
  rfl

/-- **Declined chains.** Whenever a chain is declined, of either kind, the world
is the one that the commands of the chain have left that were run until then:
all of it is a replay of these commands, the first ones of the chain from the
innermost on, followed by the outer command if it comes to that. Nothing is run
twice and nothing is undone. A line without a chain is declined with nothing
changed. -/
theorem declined_replays (command : String) (parts : List String)
    (text : Option String) (w w' : World) :
    (runComposed command parts text w = (.ok none, w') →
      ∃ calls, BrokenOff (composedNames command parts text) calls w w') ∧
    (runInner parts text w = (.ok none, w') →
      ∃ calls, BrokenOff (innerNames parts text) calls w w') ∧
    (composedNames command parts text = [] →
      runComposed command parts text w = (.ok none, w)) ∧
    (innerNames parts text = [] → runInner parts text w = (.ok none, w)) :=
  ⟨brokenOff_runComposed, brokenOff_runInner,
    fun h => runComposed_of_no_names h w, fun h => runInner_of_no_names h w⟩

/-- An alias is defined, then the next command of the chain fails: both kinds
are declined, and the alias stays. -/
theorem declined_replays_alias :
    ∃ w', runComposed "upper" ["upper", "uname", "alias", "a=b"] none default =
      (.ok none, w') ∧
      runInner ["upper", "uname", "alias", "a=b"] none default =
        (.ok none, w') ∧ w'.aliases = [("a", "b")] ∧
      (∃ calls, BrokenOff ["alias", "uname", "upper"] calls default w') ∧
      (∃ calls, BrokenOff ["alias", "uname"] calls default w') ∧
      composedNames "upper" ["upper", "a"] none = [] ∧
      innerNames ["upper", "a"] none = [] ∧
      runComposed "upper" ["upper", "a"] none w' = (.ok none, w') ∧
      runInner ["upper", "a"] none w' = (.ok none, w') := by
  have hlaws :=
    declined_replays "upper" ["upper", "uname", "alias", "a=b"] none default
  obtain ⟨w', hcomposed, hinner, haliases⟩ :
      ∃ w', runComposed "upper" ["upper", "uname", "alias", "a=b"] none
        default = (.ok none, w') ∧
        runInner ["upper", "uname", "alias", "a=b"] none default =
          (.ok none, w') ∧ w'.aliases = [("a", "b")] :=
    ⟨_, rfl, rfl, rfl⟩
  have hnone := (declined_replays "upper" ["upper", "a"] none w' w').2.2
  exact ⟨w', hcomposed, hinner, haliases, (hlaws w').1 hcomposed,
    (hlaws w').2.1 hinner, rfl, rfl, hnone.1 rfl, hnone.2 rfl⟩

/-- A chain whose outer command is not known is declined, but the alias that it
defined is there. -/
theorem declined_keeps_alias :
    (runComposed "nope" ["nope", "alias", "a=b"]
      (some "nope alias a=b") default).1 = .ok none ∧
      (default : World).aliases = [] ∧
      (runComposed "nope" ["nope", "alias", "a=b"]
        (some "nope alias a=b") default).2.aliases = [("a", "b")] :=
  ⟨rfl, rfl, rfl⟩

end TaskShell.Shell

import TaskShell.Proofs.Failure

/-!
# Results of commands

Values are dynamic, but a command that is given texts, as all commands of a line
are, never has another result than a text. In particular it never has nothing as
its result, which would not be shown.

An action *tells* if every value it has is a text. Whether it does is decided by
how it ends: what comes before the last step does not matter, nor do faults.
-/

namespace TaskShell.Shell

open Act

variable {σ α : Type}

/-- An action that has no other values than texts. -/
def Tells (act : Doing σ Value) : Prop := ∀ s v t, act s = (.ok v, t) →
    ∃ text, v = .text text

theorem tells_text (text : String) :
    Tells (pure (.text text) : Doing σ Value) := by
  intro s v t h
  exact ⟨text, (ok_of_pure h).1.symm⟩

theorem tells_fail (f : Fault) : Tells (fail f : Doing σ Value) := by
  intro s v t h
  cases h

/-- Only the last step of a sequence matters for `Tells`. -/
theorem tells_bind {x : Doing σ α} {f : α → Doing σ Value}
    (hf : ∀ a, Tells (f a)) : Tells (x >>= f) := by
  intro s v t h
  obtain ⟨a, u, -, ha⟩ := ok_of_bind h
  exact hf a u v t ha

theorem tells_then (x : Doing σ α) (f : α → String) :
    Tells (x >>= fun a => pure (.text (f a))) :=
  tells_bind fun a => tells_text (f a)

theorem Tells.ite {c : Prop} [Decidable c] {x y : Doing σ Value} (hx : Tells x)
    (hy : Tells y) :
    Tells (if c then x else y) := by
  split
  · exact hx
  · exact hy

theorem Tells.orElse {act : Doing σ Value} {handler : Fault → Doing σ Value}
    (h : Tells act) (hh : ∀ f, Tells (handler f)) :
    Tells (orElse act handler) := by
  intro s v t ht
  rcases ha : act s with ⟨r, u⟩
  cases r with
  | ok a =>
    rw [orElse_of_ok ha] at ht
    cases ht
    exact h s v t ha
  | error e =>
    rw [orElse_of_error ha] at ht
    exact hh e u v t ht

theorem tells_usage {c : Prop} [Decidable c] (usage : String) (x : Doing σ α)
    (f : α → String) :
    Tells (if c then pure (.text usage) else x >>=
      fun a => pure (.text (f a))) :=
  (tells_text usage).ite (tells_then x f)

section Commands

variable {args : Args}

theorem tells_expandValue {v : Value} (h : ∃ s, v = .text s) :
    Tells (expandValue v) := by
  obtain ⟨s, rfl⟩ := h
  exact (tells_text s).ite (tells_bind fun _ => tells_text _)

theorem tells_withText (name operation : String) (use : String → String) :
    Tells (withText name operation args fun s => .text (use s)) :=
  ((tells_bind fun _ => tells_then _ _).orElse fun _ => tells_text _).ite
    (tells_then _ _)

theorem tells_cdCommand : Tells (cdCommand args) := by
  unfold cdCommand
  refine tells_bind fun raw => tells_bind fun w => ?_
  dsimp only
  refine (tells_then _ _).ite (Tells.ite (tells_bind fun target => ?_)
    (tells_bind fun _ => tells_bind fun target => ?_))
  all_goals
    refine (tells_then _ _).ite ((tells_text _).ite (tells_bind fun made => ?_))
    cases made with
    | ok _ => exact tells_then _ _
    | error f => exact tells_text _

theorem tells_cowsayCommand : Tells (cowsayCommand args) := by
  unfold cowsayCommand
  dsimp only
  refine Tells.ite (tells_bind fun template => ?_)
    (tells_bind fun template => ?_)
  all_goals
    cases template with
    | error f => exact tells_text _
    | ok template =>
      refine tells_bind fun w => ?_
      split
      · exact tells_text _
      · exact tells_text _

theorem tells_sleepCommand : Tells (sleepCommand args) := by
  refine Tells.ite (tells_bind fun _ => ?_) ?_
  · exact tells_then _ _
  · exact tells_then _ _

theorem tells_yesCommand : Tells (yesCommand args) := by
  refine tells_bind fun n => ?_
  dsimp only
  split
  · exact tells_text _
  · exact (tells_text _).ite (tells_fail _)

theorem tells_aptCommand : Tells (aptCommand args) := by
  refine tells_bind fun words => ?_
  split
  · exact tells_then _ _
  · exact tells_text _

/-- What follows the check of the bounds in `randCommand`. -/
theorem tells_drawn {f : Site → Site} {g : Site → String} :
    Tells (get >>= fun s => set (f s) >>=
      fun _ => pure (.text (g s)) : Job Value) :=
  tells_bind fun _ => tells_then _ _

private theorem tells_calcCommand : Tells (calcCommand args) := by
  unfold calcCommand
  split
  · exact tells_fail _
  · exact tells_bind fun _ => tells_then _ _

end Commands

/-- **Results are texts**: a `Command` that is given texts has no other
result. -/
theorem tells_run (c : Command) {args : Args} (h : Texts args) :
    Tells (c.run args) := by
  cases c with
  -- the one command that hands on what it is given
  | echo => exact tells_expandValue (h.getD _ _)
  | grep | cp | mv | rm | mkdir | touch | stat | info | json | httpGet | http |
      encode | decode | find | elevate =>
    exact tells_usage _ _ _
  | tail => exact tells_bind fun _ => tells_withText _ _ _
  | wc | sort => exact tells_withText _ _ _
  | head =>
    refine tells_bind fun n =>
      Tells.ite (Tells.orElse ?_ fun _ => tells_text _) (tells_then _ _)
    exact tells_bind fun _ => tells_then _ _
  | reverse => exact (tells_then _ _).ite ((tells_then _ _).ite (tells_text _))
  | cat | which => exact (tells_text _).ite (tells_bind fun _ => tells_then _ _)
  | rand => exact tells_bind fun _ => tells_bind fun _ =>
      (tells_bind fun _ => tells_drawn).ite tells_drawn
  | calculate => exact tells_calcCommand
  | cd => exact tells_cdCommand
  | cowsay => exact tells_cowsayCommand
  | sleep => exact tells_sleepCommand
  | yes => exact tells_yesCommand
  | apt => exact tells_aptCommand
  | succeed | decline => exact tells_text _
  | upper | time | pwd | disk | date | uname | uptime | basename | dirname |
      uniq | clear => exact tells_then _ _
  | ls | whoami | hostname => exact tells_bind fun _ => tells_then _ _
  | osType | update =>
    exact tells_bind fun _ => tells_bind fun _ => tells_then _ _
  | sysinfo => exact tells_bind fun _ => tells_bind fun _ => tells_bind fun _ =>
      tells_then _ _

end TaskShell.Shell

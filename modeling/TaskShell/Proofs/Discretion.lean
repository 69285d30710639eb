import TaskShell.Proofs.Posting

/-!
# The switch for debug messages

Holding debug messages back must not change what a session does, only what it
prints. Two worlds are `Alike` if they are equal but for the switch and for what
has been printed. In alike worlds a line has the same outcome, runs the same
commands and builtins with the same arguments in the same order, and leads to
alike worlds again.

The proof is in two parts. Whatever looks at the switch only prints, and all
else that the shell does itself is local (`Direct.discreet`, by induction on how
an action is put together). What is left are the queues of the workers, which
alike worlds share: posting tasks and fetching results do the same with them.
-/

namespace TaskShell.Act

variable {α β : Type}

/-- Two worlds that are equal but for the switch for debug messages and for what
has been printed. -/
def Alike (w w' : World) : Prop :=
  ∃ quiet out, w' = { w with quiet := quiet, out := out }

theorem Alike.same {γ : Type} {f : World → γ} (hs : ∀ w u, f (among w u) = f w)
    {w w' : World} (h : Alike w w') :
    f w' = f w := by
  obtain ⟨quiet, out, rfl⟩ := h
  exact hs w { w with quiet := quiet, out := out }

/-- An action that does the same in worlds that are `Alike`. -/
def Faithful (act : Act α) : Prop :=
  ∀ w w', Alike w w' → (act w').1 = (act w).1 ∧ Alike (act w).2 (act w').2

/-- An action that is `Faithful` and leaves the switch alone. -/
structure Discreet (act : Act α) : Prop where
  faithful : Faithful act
  quiet : ∀ w, (act w).2.quiet = w.quiet

theorem Faithful.bind {x : Act α} {f : α → Act β} (hx : Faithful x)
    (hf : ∀ a, Faithful (f a)) :
    Faithful (x >>= f) := by
  intro w w' hw
  obtain ⟨hr, ht⟩ := hx w w' hw
  rcases hxw' : x w' with ⟨r, t'⟩
  rw [hxw'] at hr ht
  rcases bind_cases x f w with ⟨a, t, hxw, h⟩ | ⟨e, t, hxw, h⟩
  · rw [hxw] at hr ht
    subst hr
    rw [h, bind_of_ok hxw']
    exact hf a t t' ht
  · rw [hxw] at hr ht
    subst hr
    rw [h, bind_of_error hxw']
    exact ⟨rfl, ht⟩

theorem faithful_get_bind {f : World → Act β} (hf : ∀ w, Faithful (f w))
    (hs : ∀ w w', Alike w w' → f w' = f w) :
    Faithful (get >>= f) := by
  intro w w' hw
  show (f w' w').1 = (f w w).1 ∧ Alike (f w w).2 (f w' w').2
  rw [hs w w' hw]
  exact hf w w w' hw

theorem Faithful.attempt {act : Act α} (h : Faithful act) :
    Faithful (attempt act) := by
  intro w w' hw
  obtain ⟨hr, ht⟩ := h w w' hw
  exact ⟨by simp [hr], ht⟩

theorem Faithful.orElse {act : Act α} {handler : Fault → Act α}
    (h : Faithful act) (hh : ∀ f, Faithful (handler f)) :
    Faithful (orElse act handler) := by
  intro w w' hw
  obtain ⟨hr, ht⟩ := h w w' hw
  rcases ha : act w with ⟨r, t⟩
  rcases ha' : act w' with ⟨r', t'⟩
  rw [ha, ha'] at hr ht
  subst hr
  cases r' with
  | ok a =>
    rw [orElse_of_ok ha, orElse_of_ok ha']
    exact ⟨rfl, ht⟩
  | error e =>
    rw [orElse_of_error ha, orElse_of_error ha']
    exact hh e t t' ht

theorem Prints.faithful {act : Act Unit} (h : Prints act) : Faithful act := by
  rintro w _ ⟨quiet, out, rfl⟩
  obtain ⟨out₁, h₁⟩ := h w
  obtain ⟨out₂, h₂⟩ := h { w with quiet := quiet, out := out }
  rw [h₁, h₂]
  exact ⟨rfl, quiet, out₂, rfl⟩

theorem Local.faithful {act : Act α} (h : Local act) : Faithful act := by
  rintro w _ ⟨quiet, out, rfl⟩
  have h₁ := h w w
  have h₂ := h w { w with quiet := quiet, out := out }
  rw [show among w w = w from rfl] at h₁
  rw [show among w { w with quiet := quiet, out := out } =
    { w with quiet := quiet, out := out } from rfl] at h₂
  rw [h₁, h₂]
  exact ⟨rfl, quiet, out, rfl⟩

theorem Direct.faithful {sure : Prop} {own : List String} {act : Act α}
    (h : Direct sure own act) : Faithful act := by
  induction h with
  | of_local h _ => exact h.faithful
  | of_prints h => exact h.faithful
  | printError s =>
    rintro w _ ⟨quiet, out, rfl⟩
    exact ⟨rfl, quiet, out, rfl⟩
  | note call =>
    rintro w _ ⟨quiet, out, rfl⟩
    exact ⟨rfl, quiet, out, rfl⟩
  | bind _ _ ihx ihf => exact ihx.bind ihf
  | read _ hs ih => exact faithful_get_bind ih fun _ _ hw => hw.same hs
  | attempt _ ih => exact ih.attempt
  | orElse _ _ ih ihh => exact ih.orElse ihh

/-- **`Direct` actions are `Discreet`.** -/
theorem Direct.discreet {sure : Prop} {own : List String} {act : Act α}
    (h : Direct sure own act) : Discreet act :=
  ⟨h.faithful, h.plain.quiet⟩

theorem discreet_pure (a : α) : Discreet (pure a : Act α) := by
  have h : Direct True [] (pure a : Act α) := direct_pure a
  exact h.discreet

theorem Prints.discreet {act : Act Unit} (h : Prints act) : Discreet act := by
  have h : Direct True [] act := .of_prints h
  exact h.discreet

theorem Discreet.bind {x : Act α} {f : α → Act β} (hx : Discreet x)
    (hf : ∀ a, Discreet (f a)) :
    Discreet (x >>= f) := by
  refine ⟨hx.faithful.bind fun a => (hf a).faithful, ?_⟩
  intro w
  rcases bind_cases x f w with ⟨a, t, ht, h⟩ | ⟨e, t, ht, h⟩
  · rw [h, (hf a).quiet, ← hx.quiet w, ht]
  · rw [h, ← hx.quiet w, ht]

theorem discreet_get_bind {f : World → Act β} (hf : ∀ w, Discreet (f w))
    (hs : ∀ w w', Alike w w' → f w' = f w) :
    Discreet (get >>= f) :=
  ⟨faithful_get_bind (fun w => (hf w).faithful) hs, fun w => (hf w).quiet w⟩

theorem discreet_modify {g : World → World}
    (hg : ∀ w quiet out, g { w with quiet := quiet, out := out } =
      { g w with quiet := quiet, out := out }) :
    Discreet (modify g) := by
  refine ⟨?_, ?_⟩
  · rintro w _ ⟨quiet, out, rfl⟩
    exact ⟨rfl, quiet, out, hg w quiet out⟩
  · intro w
    have hquiet := congrArg World.quiet (hg w w.quiet w.out)
    exact hquiet

end TaskShell.Act

namespace TaskShell.Shell

open Act Text

variable {α : Type}

/-! ## Queues -/

theorem discreet_addTask (command : String) (args : Args) :
    Discreet (addTask command args) :=
  discreet_modify fun _ _ _ => rfl

theorem discreet_runTasks (worker : Nat) (tasks : List Task) :
    Discreet (runTasks worker tasks) := by
  induction tasks with
  | nil => exact discreet_pure _
  | cons task rest ih =>
    refine (direct_runTask worker task).discreet.bind fun v => ?_
    exact (discreet_modify fun _ _ _ => rfl).bind fun _ => ih

theorem discreet_runBeside : Discreet runBeside := by
  refine discreet_get_bind (fun w => ?_) ?_
  · exact (discreet_modify fun _ _ _ => rfl).bind fun _ => discreet_runTasks 0 _
  · rintro w _ ⟨quiet, out, rfl⟩
    rfl

/-- **Posting is `Discreet`.** -/
theorem Posts.discreet {sure : Prop} {own posted : List String} {before : Nat}
    {count : α → Nat} {act : Act α}
    (h : Posts sure own posted before count act) : Discreet act := by
  induction h with
  | pure _ => exact discreet_pure _
  | direct _ h => exact h.discreet
  | addTask _ command args => exact discreet_addTask command args
  | beside _ => exact discreet_runBeside
  | bind _ _ ihx ihf => exact ihx.bind ihf
  | read _ hs ih => exact discreet_get_bind ih fun _ _ hw => hw.same hs

/-- Runs lines one after the other; a line that fails does not keep the next one
from being run. Gives the outcome of each line. -/
def runLines : List String → World → List (Except Fault Unit) × World
  | [], w => ([], w)
  | line :: rest, w =>
    ((dispatch line w).1 :: (runLines rest (dispatch line w).2).1,
      (runLines rest (dispatch line w).2).2)

end TaskShell.Shell

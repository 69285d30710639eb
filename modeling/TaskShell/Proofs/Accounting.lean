import Mathlib.Data.List.Basic
import TaskShell.Proofs.Pool

/-!
# Accounting for the results of a pool

Two invariants carry the accounting. `Placed` is about places: every item that
has left the queue is either in the hands of one worker or belongs to one round,
and a worker goes through its items in the order in which they were added. It
speaks of the items, of what is held and of the history, but not of values, so
that running a command has no part in it. `Valued` is about values: what the
variable of a worker holds, and what each round has put.

## Main results

* `Pool.Reachable.placed`, `Pool.Reachable.valued` - the invariants, for every
  order of steps.
* `length_results` - the results that were put are one for each task, and one
  for each item without a task that was taken by a worker with a result.
* `reachable_accounts` - the accounting, put together.
-/

namespace TaskShell.Shell

open List

variable {n : Nat}

/-! ## Places -/

def Phase.held : Phase → Option (Nat × Item)
  | .idle => none
  | .holding place item => some (place, item)
  | .signed place item _ => some (place, item)
  | .stopped => none

/-- Where the items of a `Pool` are. -/
structure Placed (added : List Item) (taken : Nat)
    (held : Fin n → Option (Nat × Item)) (history : List (Round n)) : Prop where
  closed_item : ∀ r ∈ history, added[r.place]? = some r.item
  held_item : ∀ i place item, held i = some (place, item) →
    added[place]? = some item
  closed_lt : ∀ r ∈ history, r.place < taken
  held_lt : ∀ i place item, held i = some (place, item) → place < taken
  /-- No item has two rounds. -/
  distinct : (history.map Round.place).Nodup
  /-- No item with a round is held. -/
  apart : ∀ i place item, held i = some (place, item) →
    ∀ r ∈ history, r.place ≠ place
  /-- No item is held by two workers. -/
  alone : ∀ i j place item item', held i = some (place, item) →
    held j = some (place, item') → i = j
  /-- No item is lost. -/
  covered : ∀ place, place < taken → (∃ r ∈ history, r.place = place) ∨
    ∃ i item, held i = some (place, item)
  /-- A worker goes through its items in order. -/
  ordered : history.Pairwise fun r older => r.worker = older.worker →
    older.place < r.place
  held_ordered : ∀ i place item, held i = some (place, item) →
    ∀ r ∈ history, r.worker = i → r.place < place

namespace Placed

variable {added : List Item} {taken : Nat} {held : Fin n → Option (Nat × Item)}
  {history : List (Round n)}

theorem start : Placed [] 0 (fun _ : Fin n => none) [] where
  closed_item := by simp
  held_item := by simp
  closed_lt := by simp
  held_lt := by simp
  distinct := by simp
  apart := by simp
  alone := by simp
  covered := by simp
  ordered := by simp
  held_ordered := by simp

theorem add (h : Placed added taken held history) (item : Item) :
    Placed (added ++ [item]) taken held history := by
  have grow : ∀ {place : Nat} {item' : Item}, added[place]? = some item' →
      (added ++ [item])[place]? = some item' := by
    intro place item' hp
    rw [getElem?_append_left (List.getElem?_eq_some_iff.1 hp).1, hp]
  exact { h with
    closed_item := fun r hr => grow (h.closed_item r hr)
    held_item := fun i place item' hi => grow (h.held_item i place item' hi) }

theorem take (h : Placed added taken held history) {i : Fin n} {item : Item}
    (hidle : held i = none) (hnext : added[taken]? = some item) :
    Placed added (taken + 1)
      (Function.update held i (some (taken, item))) history := by
  -- what is held now is the new item, or was held before
  have cases : ∀ {j : Fin n} {place : Nat} {item' : Item},
    Function.update held i (some (taken, item)) j = some (place, item') →
      (j = i ∧ place = taken ∧ item' = item) ∨
      (j ≠ i ∧ held j = some (place, item')) := by
    intro j place item' hj
    rw [Function.update_apply] at hj
    split at hj
    · case isTrue hji =>
      simp only [Option.some.injEq, Prod.mk.injEq] at hj
      exact .inl ⟨hji, hj.1.symm, hj.2.symm⟩
    · case isFalse hji => exact .inr ⟨hji, hj⟩
  refine ⟨h.closed_item, ?_, ?_, ?_, h.distinct, ?_, ?_, ?_, h.ordered, ?_⟩
  · intro j place item' hj
    rcases cases hj with ⟨-, rfl, rfl⟩ | ⟨-, hj⟩
    · exact hnext
    · exact h.held_item j place item' hj
  · intro r hr
    exact Nat.lt_succ_of_lt (h.closed_lt r hr)
  · intro j place item' hj
    rcases cases hj with ⟨-, rfl, rfl⟩ | ⟨-, hj⟩
    · exact Nat.lt_succ_self _
    · exact Nat.lt_succ_of_lt (h.held_lt j place item' hj)
  · intro j place item' hj r hr
    rcases cases hj with ⟨-, rfl, rfl⟩ | ⟨-, hj⟩
    · exact Nat.ne_of_lt (h.closed_lt r hr)
    · exact h.apart j place item' hj r hr
  · intro j k place item₁ item₂ hj hk
    rcases cases hj with ⟨hji, hp, -⟩ | ⟨-, hj'⟩
    · rcases cases hk with ⟨hki, -, -⟩ | ⟨-, hk'⟩
      · rw [hji, hki]
      · exact absurd hp (Nat.ne_of_lt (h.held_lt k _ _ hk'))
    · rcases cases hk with ⟨-, hp, -⟩ | ⟨-, hk'⟩
      · exact absurd hp (Nat.ne_of_lt (h.held_lt j _ _ hj'))
      · exact h.alone j k place item₁ item₂ hj' hk'
  · intro place hplace
    rcases Nat.lt_or_eq_of_le (Nat.le_of_lt_succ hplace) with hlt | rfl
    · rcases h.covered place hlt with hr | ⟨j, item', hj⟩
      · exact .inl hr
      · refine .inr ⟨j, item', ?_⟩
        rw [Function.update_of_ne, hj]
        rintro rfl
        simp [hidle] at hj
    · exact .inr ⟨i, item, by simp⟩
  · intro j place item' hj r hr hw
    rcases cases hj with ⟨-, rfl, rfl⟩ | ⟨-, hj⟩
    · exact h.closed_lt r hr
    · exact h.held_ordered j place item' hj r hr hw

theorem close (h : Placed added taken held history) {r : Round n}
    (hr : held r.worker = some (r.place, r.item)) :
    Placed added taken (Function.update held r.worker none) (r :: history) := by
  -- what is still held was held before, by another worker
  have still : ∀ {j : Fin n} {place : Nat} {item : Item},
    Function.update held r.worker none j = some (place, item) →
      j ≠ r.worker ∧ held j = some (place, item) := by
    intro j place item hj
    rw [Function.update_apply] at hj
    split at hj
    · contradiction
    · case isFalse hji => exact ⟨hji, hj⟩
  refine ⟨?_, ?_, ?_, ?_, ?_, ?_, ?_, ?_, ?_, ?_⟩
  · intro q hq
    rcases mem_cons.1 hq with rfl | hq
    · exact h.held_item _ _ _ hr
    · exact h.closed_item q hq
  · intro j place item hj
    exact h.held_item j place item (still hj).2
  · intro q hq
    rcases mem_cons.1 hq with rfl | hq
    · exact h.held_lt _ _ _ hr
    · exact h.closed_lt q hq
  · intro j place item hj
    exact h.held_lt j place item (still hj).2
  · rw [map_cons, nodup_cons]
    refine ⟨?_, h.distinct⟩
    intro hm
    obtain ⟨q, hq, hqp⟩ := mem_map.1 hm
    exact h.apart _ _ _ hr q hq hqp
  · intro j place item hj q hq
    obtain ⟨hne, hj'⟩ := still hj
    rcases mem_cons.1 hq with rfl | hq
    · intro hp
      rw [← hp] at hj'
      exact hne (h.alone j _ _ _ _ hj' hr)
    · exact h.apart j place item hj' q hq
  · intro j k place item₁ item₂ hj hk
    exact h.alone j k place item₁ item₂ (still hj).2 (still hk).2
  · intro place hplace
    rcases h.covered place hplace with ⟨q, hq, hqp⟩ | ⟨j, item, hj⟩
    · exact .inl ⟨q, mem_cons_of_mem _ hq, hqp⟩
    · by_cases hji : j = r.worker
      · subst hji
        rw [hr] at hj
        simp only [Option.some.injEq, Prod.mk.injEq] at hj
        exact .inl ⟨r, mem_cons_self, hj.1⟩
      · exact .inr ⟨j, item, by rw [Function.update_of_ne hji, hj]⟩
  · rw [pairwise_cons]
    refine ⟨?_, h.ordered⟩
    intro q hq hw
    exact h.held_ordered _ _ _ hr q hq hw.symm
  · intro j place item hj q hq hw
    obtain ⟨hne, hj'⟩ := still hj
    rcases mem_cons.1 hq with rfl | hq
    · exact absurd hw.symm hne
    · exact h.held_ordered j place item hj' q hq hw

theorem round_task (h : Placed added taken held history)
    (htasks : none ∉ added) : ∀ r ∈ history, r.item ≠ none := by
  intro r hr hnone
  exact htasks (mem_of_getElem? ((h.closed_item r hr).trans (by rw [hnone])))

end Placed

def Pool.held (s : Pool n) (i : Fin n) : Option (Nat × Item) :=
  (s.workers i).phase.held

theorem Pool.held_setWorker (s : Pool n) (i : Fin n) (worker : Worker) :
    (s.setWorker i worker).held =
      Function.update s.held i worker.phase.held := by
  funext j
  simp only [Pool.held, Pool.setWorker, Function.update_apply]
  split <;> rfl

theorem Pool.held_setWorker_of_eq {s : Pool n} {i : Fin n} {worker : Worker}
    (h : worker.phase.held = s.held i) :
    (s.setWorker i worker).held = s.held := by
  rw [held_setWorker, h, Function.update_eq_self]

/-- Every `Pool.Work` keeps the items `Placed`. -/
theorem Pool.Work.placed {s t : Pool n} (h : Work s t)
    (hs : Placed s.added s.taken s.held s.history) :
    Placed t.added t.taken t.held t.history := by
  cases h with
  | @take i item idle next =>
    show Placed s.added (s.taken + 1) (s.setWorker i _).held s.history
    rw [held_setWorker]
    exact hs.take (by simp [held, idle, Phase.held]) next
  | @sign i place task v w holds ran =>
    show Placed s.added s.taken (s.setWorker i _).held s.history
    rw [held_setWorker_of_eq (by simp [held, holds, Phase.held])]
    exact hs
  | @signNothing i place holds =>
    show Placed s.added s.taken (s.setWorker i _).held s.history
    rw [held_setWorker_of_eq (by simp [held, holds, Phase.held])]
    exact hs
  | @close i place item site signed =>
    let r : Round n := ⟨i, place, item, site, (s.workers i).last⟩
    have hfree : Phase.held (if item.isSome then .idle else .stopped) =
        none := by split <;> rfl
    have hr : s.held r.worker = some (r.place, r.item) := by
      simp [r, held, signed, Phase.held]
    show Placed s.added s.taken (s.setWorker i _).held (r :: s.history)
    rw [held_setWorker, hfree]
    exact hs.close hr

theorem Pool.Step.placed {s t : Pool n} (h : Step s t)
    (hs : Placed s.added s.taken s.held s.history) :
    Placed t.added t.taken t.held t.history := by
  cases h with
  | work h => exact h.placed hs
  | add item => exact hs.add item
  | fetch h => exact hs
  | outside w => exact hs

/-- The items are `Placed` in every reachable state. -/
theorem Pool.Reachable.placed {s : Pool n} (h : s.Reachable) :
    Placed s.added s.taken s.held s.history := by
  obtain ⟨w, hsteps⟩ := h
  induction hsteps with
  | refl => exact Placed.start
  | tail _ hstep ih => exact hstep.placed ih

/-! ## Values -/

def Round.completedBy (i : Fin n) (r : Round n) : Bool :=
  decide (r.worker = i) && r.item.isSome

/-- The result of the last task that a worker completed. -/
def lastResult (history : List (Round n)) (i : Fin n) : Option Value :=
  (history.find? (Round.completedBy i)).bind Round.output

/-- What a round must put: the outcome of its task or, if it has none, the last
result of its worker. -/
def Round.due (older : List (Round n)) (r : Round n) : Option Value :=
  match r.item with
  | some task => some (outcome task r.site)
  | none => lastResult older r.worker

/-- Every round of a history has put what is `Round.due`. -/
def Settled : List (Round n) → Prop
  | [] => True
  | r :: older => r.output = r.due older ∧ Settled older

/-- What the variable of a worker holds in a phase, given its `lastResult`. -/
def Phase.kept (completed : Option Value) : Phase → Option Value
  | .signed _ (some task) site => some (outcome task site)
  | _ => completed

/-- The values in a `Pool`: what the workers keep, what the rounds have put, and
what came to the queue of results. -/
structure Valued (workers : Fin n → Worker) (history : List (Round n))
    (results : List Result) : Prop where
  kept : ∀ i, (workers i).last = (workers i).phase.kept (lastResult history i)
  settled : Settled history
  results_eq : results = history.reverse.filterMap Round.result

theorem lastResult_cons_of_worker {r : Round n} {i : Fin n}
    (history : List (Round n)) (h : r.worker ≠ i) :
    lastResult (r :: history) i = lastResult history i := by
  simp [lastResult, Round.completedBy, h]

theorem kept_of_close {r : Round n} {history : List (Round n)}
    (h : r.output = r.due history) :
    r.output = lastResult (r :: history) r.worker := by
  rcases hitem : r.item with _ | task
  · rw [h]
    simp [Round.due, lastResult, Round.completedBy, hitem]
  · simp [lastResult, Round.completedBy, hitem]

namespace Valued

variable {workers : Fin n → Worker} {history : List (Round n)}
  {results : List Result}

theorem update (h : Valued workers history results) {i : Fin n}
    {worker : Worker}
    (hw : worker.last = worker.phase.kept (lastResult history i)) :
    Valued (Function.update workers i worker) history results := by
  refine ⟨?_, h.settled, h.results_eq⟩
  intro j
  rw [Function.update_apply]
  split
  · case isTrue hji => rw [hji, hw]
  · exact h.kept j

theorem close (h : Valued workers history results) {r : Round n} {phase : Phase}
    (hphase : (workers r.worker).phase = .signed r.place r.item r.site)
    (hr : r.output = (workers r.worker).last)
    (hfree : ∀ completed, phase.kept completed = completed) :
    Valued (Function.update workers r.worker ⟨phase, (workers r.worker).last⟩)
      (r :: history) (results ++ r.result.toList) := by
  have hdue : r.output = r.due history := by
    rw [hr, h.kept, hphase, Round.due]
    rcases hitem : r.item with _ | task
    · simp [Phase.kept]
    · simp [Phase.kept]
  refine ⟨?_, ⟨hdue, h.settled⟩, ?_⟩
  · intro j
    rw [Function.update_apply]
    split
    · case isTrue hji => rw [hji, hfree, ← hr, kept_of_close hdue]
    · case isFalse hji =>
      rw [lastResult_cons_of_worker history (Ne.symm hji)]
      exact h.kept j
  · rw [h.results_eq, reverse_cons, filterMap_append]
    rcases hres : r.result with _ | v <;> simp [hres]

end Valued

/-- Every `Pool.Work` keeps the values. -/
theorem Pool.Work.valued {s t : Pool n} (h : Work s t)
    (hs : Valued s.workers s.history s.results) :
    Valued t.workers t.history t.results := by
  cases h with
  | @take i item idle next =>
    show Valued (Function.update s.workers i _) s.history s.results
    exact hs.update (by simpa [idle, Phase.kept] using hs.kept i)
  | @sign i place task v w holds ran =>
    -- a worker never fails, so its value is the outcome of the task
    have hv : v = outcome task s.world.toSite := by
      obtain ⟨w', hrun⟩ := runTask_eq i task s.world
      rw [hrun] at ran
      injection ran with hv _
      injection hv with hv
      exact hv.symm
    show Valued (Function.update s.workers i _) s.history s.results
    exact hs.update (by simp [Phase.kept, hv])
  | @signNothing i place holds =>
    show Valued (Function.update s.workers i _) s.history s.results
    exact hs.update (by simpa [holds, Phase.kept] using hs.kept i)
  | @close i place item site signed =>
    let r : Round n := ⟨i, place, item, site, (s.workers i).last⟩
    have hfree : ∀ completed, Phase.kept completed (if r.item.isSome then .idle
        else .stopped) = completed := by
      intro completed
      split <;> rfl
    show Valued _ (r :: s.history) (s.fetched ++ (s.waiting ++ r.result.toList))
    rw [← append_assoc]
    exact hs.close (r := r) signed rfl hfree

theorem Pool.Step.valued {s t : Pool n} (h : Step s t)
    (hs : Valued s.workers s.history s.results) :
    Valued t.workers t.history t.results := by
  cases h with
  | work h => exact h.valued hs
  | add item => exact hs
  | @fetch r rest h =>
    have hsame : (s.fetch r rest).results = s.results := by
      simp [Pool.fetch, Pool.results, h]
    rw [hsame]
    exact hs
  | outside w => exact hs

/-- The values are `Valued` in every reachable state. -/
theorem Pool.Reachable.valued {s : Pool n} (h : s.Reachable) :
    Valued s.workers s.history s.results := by
  obtain ⟨w, hsteps⟩ := h
  induction hsteps with
  | refl => exact ⟨fun _ => rfl, trivial, rfl⟩
  | tail _ hstep ih => exact hstep.valued ih

/-! ## Counting results -/

def completed (history : List (Round n)) : Nat :=
  history.countP fun r => r.item.isSome

/-- The number of items without a task that were taken by workers that had
completed a task before. -/
def repeated : List (Round n) → Nat
  | [] => 0
  | r :: older =>
    repeated older +
      if r.item.isNone && older.any (Round.completedBy r.worker) then 1 else 0

theorem output_of_task {history : List (Round n)} (h : Settled history) :
    ∀ r ∈ history, ∀ task, r.item = some task →
      r.output = some (outcome task r.site) := by
  induction history with
  | nil => simp
  | cons q older ih =>
    intro r hr task htask
    rcases mem_cons.1 hr with rfl | hr
    · rw [h.1, Round.due, htask]
    · exact ih h.2 r hr task htask

theorem output_of_nothing {history newer older : List (Round n)} {r : Round n}
    (h : Settled history)
    (hsplit : history = newer ++ r :: older) (hitem : r.item = none) :
    r.output = lastResult older r.worker := by
  subst hsplit
  induction newer with
  | nil => rw [h.1, Round.due, hitem]
  | cons q newer ih => exact ih h.2

private theorem isSome_lastResult {history : List (Round n)}
    (h : Settled history) (i : Fin n) :
    (lastResult history i).isSome = history.any (Round.completedBy i) := by
  rcases hfind : history.find? (Round.completedBy i) with _ | r
  · have hnone := find?_eq_none.1 hfind
    rw [lastResult, hfind, any_eq_false.2 hnone]
    rfl
  · have hmem := mem_of_find?_eq_some hfind
    have hby := find?_some hfind
    have htask : r.item.isSome = true := by
      simp only [Round.completedBy, Bool.and_eq_true] at hby
      exact hby.2
    obtain ⟨task, htask⟩ := Option.isSome_iff_exists.1 htask
    rw [lastResult, hfind, any_eq_true.2 ⟨r, hmem, hby⟩, Option.bind_some,
      output_of_task h r hmem task htask]
    rfl

/-- Each task accounts for one result, and each item without a task for one if
its worker has a `lastResult`. -/
theorem length_results {history : List (Round n)} (h : Settled history) :
    (history.reverse.filterMap Round.result).length =
      completed history + repeated history := by
  rw [filterMap_reverse, length_reverse]
  induction history with
  | nil => rfl
  | cons r older ih =>
    have hsome : r.result.isSome = r.output.isSome := by simp [Round.result]
    have hlen : ((r :: older).filterMap Round.result).length =
        (older.filterMap Round.result).length +
          if r.output.isSome then 1 else 0 := by
      rcases hres : r.result with _ | v
      · simp [hres, ← hsome]
      · simp [hres, ← hsome]
    rw [hlen, ih h.2, h.1, completed, completed, countP_cons,
      repeated, Round.due]
    rcases hitem : r.item with _ | task
    · simp only [isSome_lastResult h.2]
      simp
      omega
    · simp
      omega

/-! ## An empty queue and idle workers -/

/-- When nobody holds an item, there is one round for each of the `taken`
items. -/
theorem Placed.perm_range {added : List Item} {taken : Nat}
    {held : Fin n → Option (Nat × Item)} {history : List (Round n)}
    (h : Placed added taken held history) (hfree : ∀ i, held i = none) :
    (history.map Round.place).Perm (List.range taken) := by
  rw [perm_ext_iff_of_nodup h.distinct nodup_range]
  intro place
  rw [mem_map, mem_range]
  constructor
  · rintro ⟨r, hr, rfl⟩
    exact h.closed_lt r hr
  · intro hplace
    rcases h.covered place hplace with hr | ⟨i, item, hi⟩
    · exact hr
    · rw [hfree i] at hi
      contradiction

theorem Placed.eq_range {added : List Item} {taken : Nat}
    {held : Fin 1 → Option (Nat × Item)} {history : List (Round 1)}
    (h : Placed added taken held history) (hfree : ∀ i, held i = none) :
    history.reverse.map Round.place = List.range taken := by
  have hperm : (history.reverse.map Round.place).Perm (List.range taken) :=
    ((reverse_perm history).map _).trans (h.perm_range hfree)
  have hsorted : (history.reverse.map Round.place).Pairwise (· < ·) := by
    rw [pairwise_map, pairwise_reverse]
    exact h.ordered.imp fun hlt => hlt (Subsingleton.elim _ _)
  refine hperm.eq_of_pairwise ?_ hsorted pairwise_lt_range
  intro a b _ _ hab hba
  exact absurd hab (Nat.lt_asymm hba)

/-- If every item is a task, the origins of the results are the places of the
rounds. -/
theorem origins_eq {history : List (Round n)} (h : Settled history)
    (htask : ∀ r ∈ history, r.item ≠ none) :
    (history.reverse.filterMap Round.result).map Result.origin =
      history.reverse.map Round.place := by
  rw [map_filterMap, filterMap_eq_map_iff_forall_eq_some]
  intro r hr
  have hr' : r ∈ history := mem_reverse.1 hr
  obtain ⟨task, hitem⟩ := Option.ne_none_iff_exists'.1 (htask r hr')
  simp [Round.result, output_of_task h r hr' task hitem]

/-- **Accounting.** In every reachable state of a pool:

* the results that were ever put are one for each completed task, and one more
  for each item without a task that was taken by a worker which had completed a
  task before;
* no item has two rounds, and the results are those of the rounds, in order;
* the round of a task puts one result, the outcome of the task under the number
  of the worker;
* the round of an item without a task puts the last result of its worker again,
  or nothing if there is none.

Hence, if only tasks were added, the queue is empty and every worker idle, there
is one result for each task, and with a single worker they are in the order of
the tasks. -/
theorem reachable_accounts {s : Pool n} (h : s.Reachable) :
    s.results.length = completed s.history + repeated s.history ∧
    ((s.history.map Round.place).Nodup ∧
      ∀ r ∈ s.history, s.added[r.place]? = some r.item) ∧
    s.results = s.history.reverse.filterMap Round.result ∧
    (∀ r ∈ s.history, ∀ task, r.item = some task →
      r.result = some ⟨r.worker, outcome task r.site, r.place⟩) ∧
    (∀ newer r older, s.history = newer ++ r :: older → r.item = none →
      r.result = (lastResult older r.worker).map fun v =>
        ⟨r.worker, v, r.place⟩) ∧
    (none ∉ s.added → s.taken = s.added.length →
      (∀ i, (s.workers i).phase = .idle) →
      (s.results.map Result.origin).Perm (List.range s.added.length) ∧
      (n = 1 → s.results.map Result.origin = List.range s.added.length)) := by
  have hp := h.placed
  have hv := h.valued
  refine ⟨?_, ⟨hp.distinct, hp.closed_item⟩, hv.results_eq, ?_, ?_, ?_⟩
  · rw [hv.results_eq, length_results hv.settled]
  · intro r hr task htask
    rw [Round.result, output_of_task hv.settled r hr task htask]
    rfl
  · intro newer r older hsplit hitem
    rw [Round.result, output_of_nothing hv.settled hsplit hitem]
  · intro htasks htaken hidle
    have hfree : ∀ i, s.held i = none :=
      fun i => by simp [Pool.held, hidle i, Phase.held]
    have horigins :
        s.results.map Result.origin = s.history.reverse.map Round.place := by
      rw [hv.results_eq, origins_eq hv.settled (hp.round_task htasks)]
    rw [horigins, ← htaken]
    refine ⟨((reverse_perm s.history).map _).trans (hp.perm_range hfree), ?_⟩
    rintro rfl
    exact hp.eq_range hfree

/-- Two workers and a task that nobody knows. Once the second worker has put its
result, there is one result. When it then takes nothing, it puts the same result
again, and the first worker still has none. -/
theorem reachable_accounts_twice : ∃ s t : Pool 2, s.Reachable ∧ t.Reachable ∧
    s.added = [some ⟨"nope", .null⟩] ∧ (s.results.map Result.origin).Perm [0] ∧
    t.results = [⟨1, .text "Unbekanntes Kommando: nope", 0⟩,
      ⟨1, .text "Unbekanntes Kommando: nope", 1⟩] ∧
    t.results.length = completed t.history + repeated t.history := by
  let task : Task := ⟨"nope", .null⟩
  have hvalue : outcome task (default : World).toSite =
      .text "Unbekanntes Kommando: nope" := rfl
  obtain ⟨w, hrun⟩ := runTask_eq 1 task default
  rw [hvalue] at hrun
  let s₁ := (Pool.start 2 default).add (some task)
  let s₂ := s₁.take 1 (some task)
  let s₃ := s₂.sign 1 0 task (.text "Unbekanntes Kommando: nope") w
  let s₄ := s₃.close ⟨1, 0, some task, s₂.world.toSite, (s₃.workers 1).last⟩
  let s₅ := s₄.add none
  let s₆ := s₅.take 1 none
  let s₇ := s₆.signNothing 1 1
  let s₈ := s₇.close ⟨1, 1, none, s₆.world.toSite, (s₇.workers 1).last⟩
  have hs : s₄.Reachable := by
    refine ⟨default, .head (.add _ (some task)) ?_⟩
    have hworks : Pool.Works s₁ s₄ := .head (b := s₂) (.take rfl rfl)
      (.head (b := s₃) (.sign rfl hrun) (.single (.close rfl)))
    exact hworks.steps
  have ht : s₈.Reachable := by
    obtain ⟨w', hsteps⟩ := hs
    refine ⟨w', hsteps.trans (.head (.add _ none) ?_)⟩
    have hworks : Pool.Works s₅ s₈ := .head (b := s₆) (.take rfl rfl)
      (.head (b := s₇) (.signNothing rfl) (.single (.close rfl)))
    exact hworks.steps
  have hidle : ∀ i, (s₄.workers i).phase = .idle
    | 0 => rfl
    | 1 => rfl
  have htasks : none ∉ s₄.added := by
    show none ∉ [some task]
    simp
  have hone := (reachable_accounts hs).2.2.2.2.2 htasks rfl hidle
  exact ⟨s₄, s₈, hs, ht, rfl, hone.1, rfl, (reachable_accounts ht).1⟩

end TaskShell.Shell

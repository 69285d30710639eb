import Mathlib.Logic.Function.Basic
import Mathlib.Logic.Relation
import TaskShell.Proofs.Direct

/-!
# A pool of workers

Any number of workers share one queue of items and one queue of results. An item
is a task, or nothing: a worker that takes nothing stops. A worker takes the
first item of the queue, runs its task, signs the item off, and only then puts a
result. Between these steps the others go on, and so does the owner of the pool,
who adds items and fetches results.

A worker keeps its last result in a variable that outlives the round it belongs
to. The step that puts a result does not ask what the round was about, so a
worker that takes nothing puts its last result once more before it stops. For
this reason the pool remembers the rounds: what was taken, where in the order of
adding it stood, what the command found, and what was put.

The order in which steps of different workers come is not fixed. `Work` is a
step of one worker and `Step` a step of anybody; what holds in every `Reachable`
state holds for every order of steps.
-/

namespace TaskShell.Shell

variable {w : World} {task : Task} {v : Value}

/-! ## The pool -/

/-- An item of the queue: a task, or nothing, which stops the worker that takes
it. -/
abbrev Item := Option Task

/-- A result as it stands in the queue of results, with the place of the item
whose round put it. -/
structure Result where
  worker : Nat
  value : Value
  origin : Nat

/-- A round of a worker, from taking an item to putting a result. -/
structure Round (n : Nat) where
  worker : Fin n
  /-- The place of the item in the order in which items were added. -/
  place : Nat
  item : Item
  site : Site
  /-- What the worker put; nothing if it had no result yet. -/
  output : Option Value

/-- The `Result` that a round put. -/
def Round.result {n : Nat} (r : Round n) : Option Result :=
  r.output.map fun v => ⟨r.worker, v, r.place⟩

/-- Where a worker is in its round. -/
inductive Phase where
  | idle
  /-- It has taken the item at a place. -/
  | holding (place : Nat) (item : Item)
  /-- It has signed the item off, whose command found a site, and has not put a
  result yet. -/
  | signed (place : Nat) (item : Item) (site : Site)
  | stopped

/-- A worker: its phase, and the variable that keeps its last result. -/
structure Worker where
  phase : Phase
  last : Option Value

/-- A pool of `n` workers. -/
structure Pool (n : Nat) where
  world : World
  /-- All items that were ever added, in order; the first `taken` of them have
  left the queue. -/
  added : List Item
  taken : Nat
  workers : Fin n → Worker
  /-- The rounds that are over, the latest one first. -/
  history : List (Round n)
  waiting : List Result
  /-- The results that the owner of the pool has fetched, in order. -/
  fetched : List Result

namespace Pool

variable {n : Nat}

def start (n : Nat) (w : World) : Pool n :=
  ⟨w, [], 0, fun _ => ⟨.idle, none⟩, [], [], []⟩

/-- All results that were ever put, in order. -/
def results (s : Pool n) : List Result := s.fetched ++ s.waiting

def setWorker (s : Pool n) (i : Fin n) (worker : Worker) : Pool n :=
  { s with workers := Function.update s.workers i worker }

def take (s : Pool n) (i : Fin n) (item : Item) : Pool n :=
  { s.setWorker i ⟨.holding s.taken item, (s.workers i).last⟩
    with taken := s.taken + 1 }

/-- The pool after a worker has run a task, which changed the world, and signed
it off. -/
def sign (s : Pool n) (i : Fin n) (place : Nat) (task : Task) (v : Value)
    (w : World) : Pool n :=
  { s.setWorker i ⟨.signed place (some task) s.world.toSite, some v⟩
    with world := w }

def signNothing (s : Pool n) (i : Fin n) (place : Nat) : Pool n :=
  s.setWorker i ⟨.signed place none s.world.toSite, (s.workers i).last⟩

/-- The pool after a worker has ended a round by putting its last result, if it
has one. -/
def close (s : Pool n) (r : Round n) : Pool n :=
  { s.setWorker r.worker ⟨if r.item.isSome then .idle else .stopped,
      (s.workers r.worker).last⟩ with
    history := r :: s.history, waiting := s.waiting ++ r.result.toList }

inductive Work : Pool n → Pool n → Prop
  | take {s : Pool n} {i : Fin n} {item : Item}
      (idle : (s.workers i).phase = .idle)
      (next : s.added[s.taken]? = some item) : Work s (s.take i item)
  | sign {s : Pool n} {i : Fin n} {place : Nat} {task : Task}
      {v : Value} {w : World}
      (holds : (s.workers i).phase = .holding place (some task))
        (ran : runTask i task s.world = (.ok v, w)) :
      Work s (s.sign i place task v w)
  | signNothing {s : Pool n} {i : Fin n} {place : Nat}
      (holds : (s.workers i).phase = .holding place none) :
      Work s (s.signNothing i place)
  | close {s : Pool n} {i : Fin n} {place : Nat} {item : Item} {site : Site}
      (signed : (s.workers i).phase = .signed place item site) :
      Work s (s.close ⟨i, place, item, site, (s.workers i).last⟩)

def add (s : Pool n) (item : Item) : Pool n :=
  { s with added := s.added ++ [item] }

def fetch (s : Pool n) (r : Result) (rest : List Result) : Pool n :=
  { s with waiting := rest, fetched := s.fetched ++ [r] }

/-- A step of a worker, of the owner of the pool, or of the world around. -/
inductive Step : Pool n → Pool n → Prop
  | work {s t : Pool n} (h : Work s t) : Step s t
  | add (s : Pool n) (item : Item) : Step s (s.add item)
  | fetch {s : Pool n} {r : Result} {rest : List Result}
      (h : s.waiting = r :: rest) : Step s (s.fetch r rest)
  | outside (s : Pool n) (w : World) : Step s { s with world := w }

abbrev Steps : Pool n → Pool n → Prop := Relation.ReflTransGen Step

/-- A state that a started pool can get into. -/
def Reachable (s : Pool n) : Prop := ∃ w, Steps (start n w) s

abbrev Works : Pool n → Pool n → Prop := Relation.ReflTransGen Work

theorem Works.steps {s t : Pool n} (h : Works s t) : Steps s t :=
  Relation.ReflTransGen.mono (fun _ _ => Step.work) _ _ h

/-! ## Rounds -/

/-- A worker goes on to the end of its round, in which it puts a result, while
the others rest. -/
structure Delivers (s t : Pool n) (i : Fin n) (w : World) (taken : Nat)
    (r : Result) : Prop where
  works : Works s t
  world_eq : t.world = w
  idle : (t.workers i).phase = .idle
  added_eq : t.added = s.added
  taken_eq : t.taken = taken
  waiting_eq : t.waiting = s.waiting ++ [r]

theorem Delivers.head {s s₁ t : Pool n} {i : Fin n} {taken : Nat} {r : Result}
    (h : Work s s₁) (ht : Delivers s₁ t i w taken r)
    (hadded : s₁.added = s.added) (hwaiting : s₁.waiting = s.waiting) :
    Delivers s t i w taken r :=
  { ht with
    works := .head h ht.works
    added_eq := ht.added_eq.trans hadded
    waiting_eq := ht.waiting_eq.trans (by rw [hwaiting]) }

private theorem delivers_of_signed {s : Pool n} {i : Fin n}
    {place : Nat} {site : Site}
    (hsigned : (s.workers i).phase = .signed place (some task) site)
    (hlast : (s.workers i).last = some v) :
    ∃ t, Delivers s t i s.world s.taken ⟨i, v, place⟩ := by
  refine ⟨_, .single (.close hsigned), rfl, ?_, rfl, rfl, ?_⟩
  · simp [close, setWorker]
  · simp [close, setWorker, Round.result, hlast]

private theorem delivers_of_holding {s : Pool n} {i : Fin n} {place : Nat}
    (hholds : (s.workers i).phase = .holding place (some task))
    (hrun : runTask i task s.world = (.ok v, w)) :
    ∃ t, Delivers s t i w s.taken ⟨i, v, place⟩ := by
  let s₁ := s.sign i place task v w
  have hsigned : (s₁.workers i).phase =
      .signed place (some task) s.world.toSite := by simp [s₁, sign, setWorker]
  have hlast : (s₁.workers i).last = some v := by simp [s₁, sign, setWorker]
  obtain ⟨t, ht⟩ := delivers_of_signed hsigned hlast
  exact ⟨t, .head (.sign hholds hrun) ht rfl rfl⟩

private theorem delivers_of_idle {s : Pool n} {i : Fin n}
    (hidle : (s.workers i).phase = .idle)
    (hnext : s.added[s.taken]? = some (some task))
    (hrun : runTask i task s.world = (.ok v, w)) :
    ∃ t, Delivers s t i w (s.taken + 1) ⟨i, v, s.taken⟩ := by
  let s₁ := s.take i (some task)
  have hholds : (s₁.workers i).phase = .holding s.taken (some task) := by
    simp [s₁, take, setWorker]
  obtain ⟨t, ht⟩ := delivers_of_holding hholds hrun
  exact ⟨t, .head (.take hidle hnext) ht rfl rfl⟩

/-! ## One worker at the queue

A session with one worker lets it run all queued tasks when it first waits for a
result. This is a run of the pool in which nobody else takes a step. -/

/-- **One worker at the queue.** `runTasks` is one way for a `Pool` with a
single worker to go on. It leaves the same world, and the results that it adds
to the queue of the world are those of the pool. -/
theorem runTasks_steps (tasks : List Task) :
    ∀ s : Pool 1, (s.workers 0).phase = .idle →
    s.added.drop s.taken = tasks.map some →
    ∃ (t : Pool 1) (new : List Result), Steps s t ∧
      (t.workers 0).phase = .idle ∧ t.added = s.added ∧
      t.added.length ≤ t.taken ∧ runTasks 0 tasks s.world = (.ok ⟨⟩, t.world) ∧
      t.waiting = s.waiting ++ new ∧
      t.world.results = s.world.results ++ new.map fun r =>
        (r.worker, r.value) := by
  induction tasks with
  | nil =>
    intro s hidle hqueue
    exact ⟨s, [], .refl, hidle,
      rfl, by simpa using hqueue, rfl, by simp, by simp⟩
  | cons task rest ih =>
    intro s hidle hqueue
    obtain ⟨w, hrun⟩ := runTask_eq 0 task s.world
    have hnext : s.added[s.taken]? = some (some task) := by
      have h := congrArg (·[0]?) hqueue
      simpa [List.getElem?_drop] using h
    obtain ⟨t, ht⟩ := delivers_of_idle hidle hnext hrun
    -- the result is put into the queue of the world as well
    let w' : World :=
      { w with results := w.results ++ [(0, outcome task s.world.toSite)] }
    obtain ⟨u, new, hsteps', hidle'', hadded', hlen, hruns,
        hwaiting', hresults⟩ :=
      ih { t with world := w' } ht.idle (by
        rw [show ({ t with world := w' } : Pool 1).added = s.added
          from ht.added_eq, show ({ t with world := w' } : Pool 1).taken =
          s.taken + 1 from ht.taken_eq, ← List.drop_drop, hqueue]
        rfl)
    have hkeep : w.results = s.world.results := by
      have h := (direct_runTask 0 task).plain.results s.world
      rw [hrun] at h
      exact h
    refine ⟨u, ⟨0, outcome task s.world.toSite, s.taken⟩ :: new,
      ht.works.steps.trans (.head (.outside t w') hsteps'), hidle'',
      hadded'.trans ht.added_eq, hlen, ?_, ?_, ?_⟩
    · rw [runTasks, Act.bind_of_ok hrun]
      exact hruns
    · rw [hwaiting', show ({ t with world := w' } : Pool 1).waiting =
        _ from ht.waiting_eq]
      simp
    · rw [hresults]
      simp [w', hkeep]

end Pool

end TaskShell.Shell

import TaskShell.Proofs.Composition
import TaskShell.Proofs.Posting

/-!
# Names of commands

Results are put back into command lines, and values of variables into arguments.
None of these texts is ever taken as the name of a command: which commands a
line may run, in which order and how often, is settled by the words of the line
once its aliases are expanded, before anything is run.

For each line there is a list of names that the shell itself may run
(`ownNames`) and a list of names that it may hand to the workers (`taskNames`),
both made from the words of the line alone. An action *follows* two such lists
(`Follows`) if what it runs and what it posts are parts of them in their order,
whatever the world holds. Workers in turn run nothing but the tasks that wait
(`Works`); what one of them runs beside the shell is interleaved with what the
shell runs.
-/

namespace TaskShell.Shell

open Act Text Words List

variable {α β : Type}

/-! ## What the shell and the worker run -/

/-- `Interleave xs ys zs`: the members of `xs` and those of `ys`, each in their
order, make up `zs`. -/
inductive Interleave : List α → List α → List α → Prop
  | nil : Interleave [] [] []
  | left {x : α} {xs ys zs : List α} (h : Interleave xs ys zs) :
      Interleave (x :: xs) ys (x :: zs)
  | right {y : α} {xs ys zs : List α} (h : Interleave xs ys zs) :
      Interleave xs (y :: ys) (y :: zs)

namespace Interleave

theorem nil_right (xs : List α) : Interleave xs [] xs := by
  induction xs with
  | nil => exact .nil
  | cons x xs ih => exact ih.left

theorem nil_left (ys : List α) : Interleave [] ys ys := by
  induction ys with
  | nil => exact .nil
  | cons y ys ih => exact ih.right

theorem eq_of_nil {xs zs : List α} (h : Interleave xs [] zs) : zs = xs := by
  induction xs generalizing zs with
  | nil => cases h; rfl
  | cons x xs ih =>
    cases h with
    | left h => rw [ih h]

theorem append {xs ys zs xs' ys' zs' : List α} (h : Interleave xs ys zs)
    (h' : Interleave xs' ys' zs') :
    Interleave (xs ++ xs') (ys ++ ys') (zs ++ zs') := by
  induction h with
  | nil => exact h'
  | left _ ih => exact ih.left
  | right _ ih => exact ih.right

end Interleave

/-- What lies between two worlds: the shell has run the commands `mine`, the
worker has run `beside` for the tasks `taken` from the queue, and tasks `new`
have been put into it. A worker that runs nothing beside the shell takes
nothing. -/
structure Between (w w' : World) (mine beside : List Call)
    (taken new : List Task) : Prop where
  calls : ∃ calls, w'.calls = w.calls ++ calls ∧ Interleave mine beside calls
  beside : (beside.map Call.name).Sublist (taken.map Task.command)
  tasks : taken ++ w'.tasks = w.tasks ++ new
  pace : w'.pace = w.pace
  idle : (∀ n, w.pace.beside n = 0) → taken = []

theorem Between.trans {w w₁ w₂ : World} {mine mine' beside beside' : List Call}
    {taken taken' new new' : List Task}
    (h : Between w w₁ mine beside taken new)
    (h' : Between w₁ w₂ mine' beside' taken' new') :
    Between w w₂ (mine ++ mine') (beside ++ beside') (taken ++ taken')
      (new ++ new') where
  calls := by
    obtain ⟨calls, hcalls, hmixed⟩ := h.calls
    obtain ⟨calls', hcalls', hmixed'⟩ := h'.calls
    exact ⟨calls ++
      calls', by rw [hcalls', hcalls, append_assoc], hmixed.append hmixed'⟩
  beside := by
    rw [map_append, map_append]
    exact h.beside.append h'.beside
  tasks := by rw [append_assoc, h'.tasks, ← append_assoc, h.tasks, append_assoc]
  pace := h'.pace.trans h.pace
  idle := by
    intro hidle
    rw [h.idle hidle, h'.idle (by rw [h.pace]; exact hidle), append_nil]

variable {own own' posted posted' : List String} {w w₁ w₂ : World}

/-- The shell has run some of the commands `own`, in this order and none of them
twice, and has posted tasks for some of the commands `posted` in the same
way. -/
def Passes (own posted : List String) (w w' : World) : Prop :=
  ∃ mine beside taken new, Between w w' mine beside taken new ∧
    (mine.map Call.name).Sublist own ∧ (new.map Task.command).Sublist posted

theorem Passes.mono (h : Passes own posted w w₁) (hown : own.Sublist own')
    (hposted : posted.Sublist posted') : Passes own' posted' w w₁ := by
  obtain ⟨mine, beside, taken, new, hbetween, hmine, hnew⟩ := h
  exact ⟨mine, beside, taken, new, hbetween, hmine.trans hown,
    hnew.trans hposted⟩

theorem Passes.trans (h : Passes own posted w w₁)
    (h' : Passes own' posted' w₁ w₂) :
    Passes (own ++ own') (posted ++ posted') w w₂ := by
  obtain ⟨mine, beside, taken, new, hbetween, hmine, hnew⟩ := h
  obtain ⟨mine', beside', taken', new', hbetween', hmine', hnew'⟩ := h'
  refine ⟨_, _, _, _, hbetween.trans hbetween', ?_, ?_⟩
  · rw [map_append]
    exact hmine.append hmine'
  · rw [map_append]
    exact hnew.append hnew'

/-! ## Following lists of names -/

/-- An action that runs some of the commands `own`, in this order and none of
them twice, and posts tasks for some of the commands `posted` in the same way,
whatever the worker runs beside. -/
def Follows (own posted : List String) (act : Act α) : Prop :=
  ∀ w, Passes own posted w (act w).2

/-- An action that leaves the tasks and the pace alone follows what it
`Runs`. -/
theorem Follows.of_runs {act : Act α} (hruns : Runs own act)
    (htasks : ∀ w, (act w).2.tasks = w.tasks)
    (hpace : ∀ w, (act w).2.pace = w.pace) : Follows own posted act := by
  intro w
  obtain ⟨runs, hcalls, hnames⟩ := hruns w
  refine ⟨runs, [], [], [], ⟨⟨runs, hcalls, .nil_right _⟩, .refl _, ?_, hpace w,
    fun _ => rfl⟩, hnames, nil_sublist _⟩
  rw [htasks, append_nil, nil_append]

theorem follows_direct {sure : Prop} {act : Act α} (h : Direct sure own act) :
    Follows own posted act :=
  .of_runs h.runs h.plain.tasks h.plain.pace

theorem follows_pure (a : α) : Follows own posted (pure a : Act α) :=
  .of_runs (.of_calls fun _ => rfl) (fun _ => rfl) fun _ => rfl

theorem Follows.bind {x : Act α} {f : α → Act β} (hx : Follows own posted x)
    (hf : ∀ a, Follows own' posted' (f a)) :
    Follows (own ++ own') (posted ++ posted') (x >>= f) := by
  intro w
  have hfirst := hx w
  rcases bind_cases x f w with ⟨a, t, hxw, h⟩ | ⟨e, t, hxw, h⟩
  · rw [hxw] at hfirst
    rw [h]
    exact hfirst.trans (hf a t)
  · rw [hxw] at hfirst
    rw [h]
    exact hfirst.mono (sublist_append_left _ _) (sublist_append_left _ _)

theorem follows_addTask (command : String) (args : Args) :
    Follows own [command] (addTask command args) := by
  intro w
  refine ⟨[], [], [], [⟨command, .record args⟩], ⟨⟨[], ?_, .nil⟩, .refl _, rfl,
    rfl, fun _ => rfl⟩, nil_sublist _, .refl _⟩
  rw [append_nil]
  rfl

/-! ## Workers -/

theorem runTasks_calls (worker : Nat) (tasks : List Task) :
    Runs (tasks.map Task.command) (runTasks worker tasks) := by
  induction tasks with
  | nil => exact .of_calls fun _ => rfl
  | cons task rest ih =>
    intro w
    obtain ⟨w₁, hrun⟩ := runTask_eq worker task w
    generalize outcome task w.toSite = v at hrun
    obtain ⟨runs, hruns, hnames⟩ := (direct_runTask worker task).runs w
    rw [hrun] at hruns
    unfold runTasks
    rw [bind_of_ok hrun, modify_bind_apply]
    exact Runs.trans hruns hnames (ih { w₁ with
      results := w₁.results ++ [(worker, v)] })

/-- `runBeside` runs the first tasks of the queue, and nothing else. -/
theorem follows_runBeside : Follows [] [] runBeside := by
  intro w
  obtain ⟨n, hn⟩ : ∃ n, w.pace.beside w.parts = n := ⟨_, rfl⟩
  have hbeside := runBeside_eq hn
  obtain ⟨w', hrun, htasks, -, hpace⟩ := runTasks_results 0 (w.tasks.take n)
    { w with tasks := w.tasks.drop n, parts := w.parts + 1 }
  obtain ⟨runs, hruns, hnames⟩ := runTasks_calls 0 (w.tasks.take n)
    { w with tasks := w.tasks.drop n, parts := w.parts + 1 }
  rw [hrun] at hruns hbeside
  rw [hbeside]
  refine ⟨[], runs, w.tasks.take n, [], ⟨⟨runs, hruns, .nil_left _⟩, hnames, ?_,
    hpace, ?_⟩, .refl _, .refl _⟩
  · rw [htasks, append_nil]
    exact take_append_drop n w.tasks
  · intro hidle
    rw [← hn, hidle, take_zero]

/-! ## Lines -/

/-- What is run directly and what is posted is what `Posts` names. -/
theorem Posts.follows {sure : Prop} {before : Nat} {count : α → Nat}
    {act : Act α}
    (h : Posts sure own posted before count act) : Follows own posted act := by
  induction h with
  | pure _ => exact follows_pure _
  | direct _ h => exact follows_direct h
  | addTask _ command args => exact follows_addTask command args
  | beside _ => exact follows_runBeside
  | bind _ _ ihx ihf => exact ihx.bind ihf
  | read _ _ ih => exact fun w => ih w w

/-- **A line follows its words** (`ownNames`, `taskNames`), also if it sets the
switch. -/
theorem follows_postExpanded (line : String) :
    Follows (ownNames line) (taskNames line) (postExpanded line) := by
  by_cases h : Toggles line
  · obtain ⟨quiet, hline⟩ := postExpanded_of_toggles h
    rw [hline]
    exact .of_runs (.of_calls fun _ => rfl) (fun _ => rfl) fun _ => rfl
  · exact (posts_postExpanded h).follows

theorem follows_post (w : World) (line : String) :
    Passes (ownNames (expandedIn w line)) (taskNames (expandedIn w line)) w
      (post line w).2 := by
  by_cases hblank : line.toList.all isBlank
  · unfold post
    rw [if_pos hblank]
    exact follows_pure _ w
  · rw [post_eq line hblank, get_bind_apply]
    have htell : Direct True [] (tellExpansion w line) :=
      .of_prints (prints_tellExpansion w line)
    have hfollows : Follows [] [] (tellExpansion w line) := follows_direct htell
    exact hfollows.bind (fun _ => follows_postExpanded (expandedIn w line)) w

/-! ## Results -/

/-- An action that runs nothing but tasks that wait, each of them at most once
and in their order; those that it does not run go on waiting or are gone. -/
def Works (act : Act α) : Prop :=
  ∀ w, ∃ done, (act w).2.calls = w.calls ++ done ∧
    (done.map Call.name ++ (act w).2.tasks.map Task.command).Sublist
      (w.tasks.map Task.command)

theorem Works.of_eq {act : Act α} (hcalls : ∀ w, (act w).2.calls = w.calls)
    (htasks : ∀ w, (act w).2.tasks = w.tasks) :
    Works act := by
  intro w
  refine ⟨[], by rw [hcalls, append_nil], ?_⟩
  rw [htasks]
  exact .refl _

theorem Works.bind {x : Act α} {f : α → Act β} (hx : Works x)
    (hf : ∀ a, Works (f a)) : Works (x >>= f) := by
  intro w
  obtain ⟨done, hcalls, hdone⟩ := hx w
  rcases bind_cases x f w with ⟨a, t, hxw, h⟩ | ⟨e, t, hxw, h⟩
  · rw [hxw] at hcalls hdone
    obtain ⟨done', hcalls', hdone'⟩ := hf a t
    refine ⟨done ++ done', by rw [h, hcalls', hcalls, append_assoc], ?_⟩
    rw [h, map_append, append_assoc]
    exact ((List.Sublist.refl _).append hdone').trans hdone
  · rw [hxw] at hcalls hdone
    rw [h]
    exact ⟨done, hcalls, hdone⟩

theorem works_get_bind {f : World → Act β} (hf : ∀ w, Works (f w)) :
    Works (get >>= f) := fun w => hf w w

theorem works_pure (a : α) :
    Works (pure a : Act α) := .of_eq (fun _ => rfl) fun _ => rfl

theorem works_prints {act : Act Unit} (h : Prints act) : Works act :=
  .of_eq (calls_of_prints h) h.plain.tasks

/-- `runWaiting` takes the tasks that wait from the queue before it runs them,
and posts none. -/
theorem works_runWaiting : Works runWaiting := by
  intro w
  obtain ⟨done, hdone, hnames⟩ :=
    runTasks_calls 0 w.tasks { w with tasks := [] }
  obtain ⟨w', hrun, htasks, -⟩ :=
    runTasks_results 0 w.tasks { w with tasks := [] }
  have hwaiting : runWaiting w = (.ok ⟨⟩, w') := by
    unfold runWaiting
    rw [get_bind_apply, modify_bind_apply, hrun]
  rw [hrun] at hdone
  refine ⟨done, by rw [hwaiting]; exact hdone, ?_⟩
  rw [hwaiting, htasks, map_nil, append_nil]
  exact hnames

theorem works_takeResult : Works takeResult := by
  refine works_runWaiting.bind fun _ => works_get_bind fun w => ?_
  split
  · exact works_pure none
  · exact (Works.of_eq (fun _ => rfl) fun _ => rfl).bind fun _ => works_pure _

private theorem works_takeInTime : Works takeInTime := by
  refine works_get_bind fun w =>
    (Works.of_eq (fun _ => rfl) fun _ => rfl).bind fun _ => ?_
  split
  · exact works_pure none
  · exact works_takeResult

theorem works_showResults (n : Nat) : Works (showResults n) := by
  induction n with
  | zero => exact works_pure _
  | succ n ih =>
    refine works_takeInTime.bind fun result => ?_
    cases result with
    | none => exact (works_prints (prints_logDebug _)).bind fun _ => ih
    | some r => exact (works_prints (prints_showResult _ _ _)).bind fun _ => ih

private theorem works_showOnly : Works showOnly := by
  refine works_takeResult.bind fun result => ?_
  cases result with
  | none => exact works_prints (prints_log _)
  | some r =>
    refine works_get_bind fun w => ?_
    split
    · exact works_prints (prints_printLine _)
    · exact (works_prints (prints_log _)).bind fun _ =>
        works_prints (prints_log _)

theorem works_collectResults (demand : Demand) :
    Works (collectResults demand) := by
  cases demand with
  | nothing => exact works_pure _
  | several n => exact works_showResults n
  | single => exact works_showOnly

/-! ## The names are words -/

/-- A word of a line, or of one of its parts if it has several commands. -/
def IsWord (line name : String) : Prop :=
  ∃ segment ∈ segments line, name ∈ splitOrBlanks segment

theorem mem_of_mem_positionalFrom {p : String} (parts : List String)
    (h : p ∈ positionalFrom parts) : p ∈ parts := by
  fun_induction positionalFrom parts with
  | case1 => exact h
  | case2 word => exact h
  | case3 word value rest hflag ih =>
    exact mem_cons_of_mem _ (mem_cons_of_mem _ (ih h))
  | case4 word value rest hflag ih =>
    rcases mem_cons.1 h with rfl | h
    · exact mem_cons_self
    · exact mem_cons_of_mem _ (ih h)

theorem mem_of_mem_positionals {parts : List String} {p : String}
    (h : p ∈ positionals parts) : p ∈ parts :=
  mem_of_mem_drop (mem_of_mem_positionalFrom _ h)

theorem mem_of_mem_takeWhile {q : String → Bool} {words : List String}
    {name : String} (h : name ∈ words.takeWhile q) :
    name ∈ words :=
  (takeWhile_sublist q).subset h

private theorem mem_of_mem_firstChain {text : Option String}
    {words chain : List String} {name : String} {i before : Nat}
    (hchain : firstChain text words i = some (before, chain))
    (h : name ∈ chain) : name ∈ words := by
  fun_induction firstChain text words i with
  | case1 => cases hchain
  | case2 i word rest hlink =>
    obtain ⟨-, rfl⟩ := Prod.mk.inj (Option.some.inj hchain)
    exact mem_of_mem_takeWhile h
  | case3 i word rest hlink ih => exact mem_cons_of_mem _ (ih hchain)

theorem mem_of_mem_composedNames {command name : String} {rest : List String}
    {text : Option String}
    (h : name ∈ composedNames command (command :: rest) text) :
    name ∈ command :: rest := by
  unfold composedNames at h
  split at h
  · cases h
  · next c hc =>
    obtain ⟨-, before, hchain⟩ := locate?_eq_some hc
    rcases mem_append.1 h with h | h
    · exact mem_of_mem_positionals
        (mem_of_mem_firstChain hchain (mem_reverse.1 h))
    · rw [mem_singleton.1 h]
      exact mem_cons_self

theorem mem_of_mem_firstNames {text name : String}
    (h : name ∈ firstNames text) : name ∈ splitOrBlanks text :=
  mem_of_mem_head? (Option.mem_toList.1 h)

theorem mem_of_mem_partNames {part name : String} (h : name ∈ partNames part) :
    name ∈ splitOrBlanks part := by
  rcases mem_append.1 h with h | h
  · exact mem_of_mem_positionals (mem_of_mem_takeWhile (mem_reverse.1 h))
  · exact mem_of_mem_firstNames h

theorem isWord_of_mem_taskNames {line name : String}
    (h : name ∈ taskNames line) : IsWord line name := by
  obtain ⟨segment, hsegment, hname⟩ := mem_flatMap.1 h
  exact ⟨segment, hsegment, mem_of_mem_firstNames hname⟩

private theorem isWord_of_mem_ownNames {line name : String}
    (h : name ∈ ownNames line) :
    IsWord line name := by
  unfold ownNames at h
  split at h
  · cases h
  · next command rest hwords =>
    split at h
    · obtain ⟨segment, hsegment, hname⟩ := mem_flatMap.1 h
      exact ⟨segment, hsegment, mem_of_mem_partNames hname⟩
    · next hmany =>
      have hline : line ∈ segments line := by
        rw [segments_of_single hwords hmany]
        exact mem_cons_self
      refine ⟨line, hline, ?_⟩
      rw [hwords]
      rcases mem_append.1 h with h | h
      · exact mem_of_mem_composedNames h
      · rw [mem_singleton.1 h]
        exact mem_cons_self

/-- **Nothing but words is run.** The commands that the shell runs because of a
line, and those for which it posts tasks, are taken in their order from two
lists of words that the expanded line alone settles; whatever the worker runs
beside or while the line is answered, and whatever any worker runs for a task at
any time, is a task under its own name. So no value of a variable, no text of a
file and no result is ever the name of a command. A worker that runs nothing
beside the shell leaves it to the shell alone what is run until all tasks are
posted. -/
theorem dispatch_runs_words (w : World) (line : String) :
    ∃ own beside calls taken posted done,
    (post line w).2.calls = w.calls ++ calls ∧ Interleave own beside calls ∧
      (own.map Call.name).Sublist (ownNames (expandedIn w line)) ∧
      taken ++ (post line w).2.tasks = w.tasks ++ posted ∧
      (posted.map Task.command).Sublist (taskNames (expandedIn w line)) ∧
      (dispatch line w).2.calls = w.calls ++ calls ++ done ∧
      ((beside ++ done).map Call.name).Sublist (w.tasks.map Task.command ++
        posted.map Task.command) ∧
      ((∀ n, w.pace.beside n = 0) → taken = [] ∧ beside = [] ∧ calls = own) ∧
      (∀ worker task u, ∃ runs, (runTask worker task u).2.calls =
        u.calls ++ runs ∧
        (runs.map Call.name).Sublist [task.command]) ∧
      ∀ name ∈ ownNames (expandedIn w line) ++ taskNames (expandedIn w line),
        IsWord (expandedIn w line) name := by
  obtain ⟨own, beside, taken, posted, hbetween, hown, hposted⟩ :=
    follows_post w line
  obtain ⟨calls, hcalls, hmixed⟩ := hbetween.calls
  have hwords :
    ∀ name ∈ ownNames (expandedIn w line) ++ taskNames (expandedIn w line),
      IsWord (expandedIn w line) name := by
    intro name hname
    rcases mem_append.1 hname with h | h
    · exact isWord_of_mem_ownNames h
    · exact isWord_of_mem_taskNames h
  have hidle : (∀ n, w.pace.beside n = 0) → taken = [] ∧ beside = [] ∧
      calls = own := by
    intro hnever
    have htaken := hbetween.idle hnever
    have hbeside : beside = [] := by
      have hnames := hbetween.beside
      rw [htaken] at hnames
      exact map_eq_nil_iff.1 (sublist_nil.1 hnames)
    refine ⟨htaken, hbeside, ?_⟩
    rw [hbeside] at hmixed
    exact hmixed.eq_of_nil
  -- what the worker has taken and what it still finds in the queue are the
  -- tasks of the line and those before it
  have hqueue : taken.map Task.command ++ (post line w).2.tasks.map
      Task.command = w.tasks.map Task.command ++ posted.map Task.command := by
    rw [← map_append, hbetween.tasks, map_append]
  have hdone : ∃ done, (dispatch line w).2.calls = w.calls ++ calls ++ done ∧
      (done.map Call.name).Sublist
        ((post line w).2.tasks.map Task.command) := by
    rcases bind_cases (post line) collectResults w with ⟨demand, t, hpost, h⟩ |
      ⟨e, t, hpost, h⟩
    · rw [hpost] at hcalls ⊢
      obtain ⟨done, hdone, hnames⟩ := works_collectResults demand t
      refine ⟨done, ?_, (sublist_append_left _ _).trans hnames⟩
      rw [← hcalls, ← hdone]
      exact congrArg (·.2.calls) h
    · rw [hpost] at hcalls
      refine ⟨[], ?_, nil_sublist _⟩
      rw [append_nil, ← hcalls]
      exact congrArg (·.2.calls) h
  obtain ⟨done, hdone, hnames⟩ := hdone
  refine ⟨own, beside, calls, taken, posted, done, hcalls, hmixed, hown,
    hbetween.tasks, hposted, hdone, ?_, hidle,
    fun worker task => (direct_runTask worker task).runs, hwords⟩
  rw [map_append, ← hqueue]
  exact hbetween.beside.append hnames

end TaskShell.Shell

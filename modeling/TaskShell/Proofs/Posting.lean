import TaskShell.Proofs.Direct

/-!
# Posting tasks

The first half of a line posts tasks and tells how many results the line will
ask for. Unless it is one of the words that set the switch for debug messages,
all it does is *direct* or puts a task into the queue. `Posts` says so, keeps
count of the tasks and says which commands may be run or posted: `ownNames` and
`taskNames`, both made from the words of the line alone. The functions of the
first half are walked through once, to see that they post; whatever is to be
known about them then follows by induction on `Posts`.

Here it is shown that the two numbers are the same, whatever the line looks
like. While the line is run the worker may have run some of its tasks already,
so what is counted is `pending`: the tasks and the results that wait.
-/

namespace TaskShell.Shell

open Act Text Words List

variable {α β : Type}

def Demand.count : Demand → Nat
  | .nothing => 0
  | .several n => n
  | .single => 1

/-- An action that is put together from direct actions, adding tasks and letting
the worker run some beside. If `before` tasks have been added already, there are
`count a` of them when it ends with `a`. The commands `own` are those that it
may run itself and `posted` those it may add tasks for, both in their order. It
never fails if `sure` holds. -/
inductive Posts (sure : Prop) : {α : Type} → List String → List String → Nat →
    (α → Nat) → Act α → Prop
  | pure {α : Type} {own posted : List String} {before : Nat} {count : α → Nat}
      {a : α} (h : before = count a) :
      Posts sure own posted before count (pure a)
  | direct {α : Type} {own posted : List String} {act : Act α} (before : Nat)
      (h : Direct sure own act) :
      Posts sure own posted before (fun _ => before) act
  | addTask {own : List String} (before : Nat) (command : String)
      (args : Args) : Posts sure own [command] before (fun _ => before + 1)
        (addTask command args)
  | beside (before : Nat) : Posts sure [] [] before (fun _ => before) runBeside
  | bind {α β : Type} {own own' posted posted' : List String} {before : Nat}
      {count : α → Nat} {count' : β → Nat} {x : Act α} {f : α → Act β}
      (hx : Posts sure own posted before count x)
      (hf : ∀ a, Posts sure own' posted' (count a) count' (f a)) :
      Posts sure (own ++ own') (posted ++ posted') before count' (x >>= f)
  /-- What is read is the site or the aliases: among other things it is the
  same. -/
  | read {β : Type} {own posted : List String} {before : Nat} {count : β → Nat}
      {f : World → Act β} (hf : ∀ w, Posts sure own posted before count (f w))
      (hs : ∀ w u, f (among w u) = f w) :
      Posts sure own posted before count (get >>= f)

variable {sure : Prop} {own own' posted : List String} {before : Nat}
  {count : α → Nat} {count' : β → Nat}

namespace Posts

/-- Tasks that were added earlier are counted as well. -/
theorem shift {act : Act α} (h : Posts sure own posted before count act)
    (earlier : Nat) :
    Posts sure own posted (earlier + before) (fun a =>
      earlier + count a) act := by
  induction h with
  | pure h => exact .pure (by rw [h])
  | direct before h => exact .direct _ h
  | addTask before command args => exact .addTask _ command args
  | beside before => exact .beside _
  | bind _ _ ihx ihf => exact ihx.bind ihf
  | read _ hs ih => exact .read ih hs

/-- What comes after an action that posts nothing decides what is posted. -/
theorem afterDirect {x : Act α} {f : α → Act β} (hx : Direct sure own x)
    (hf : ∀ a, Posts sure own' posted before count' (f a)) :
    Posts sure (own ++ own') posted before count' (x >>= f) := by
  have h : Posts sure own [] before (fun _ => before) x := .direct before hx
  exact h.bind hf

/-- What comes before an action that runs and posts nothing decides what is run
and posted. -/
theorem andThen {x : Act α} {f : α → Act β}
    (hx : Posts sure own posted before count x)
    (hf : ∀ a, Posts sure [] [] (count a) count' (f a)) :
    Posts sure own posted before count' (x >>= f) := by
  have h := hx.bind hf
  rwa [append_nil, append_nil] at h

/-- A `Direct` action, and then nothing but a value that says that no task was
added. -/
theorem direct_then {act : Act α} {b : β} (h : Direct sure own act)
    (hb : before = count' b) :
    Posts sure own posted before count' (act >>= fun _ => Pure.pure b) :=
  (Posts.direct before h).andThen fun _ => .pure hb

/-- A task is noted and added, and then there is nothing but a value that says
so. -/
theorem task (line command : String) (args : Args) {b : β}
    (hb : before + 1 = count' b) : Posts sure own [command] before count' (do
      noteTask line; Shell.addTask command args; Pure.pure b) := by
  have hnote : Direct sure [] (noteTask line) := .of_prints (prints_logDebug _)
  exact afterDirect hnote fun _ =>
    (Posts.addTask before command args).andThen fun _ => .pure hb

end Posts

/-! ## Lines with several commands -/

/-- The commands that the shell itself may run for a part of a line: those of
its chain, and the first one. -/
def partNames (part : String) : List String :=
  innerNames (splitOrBlanks part) (some part) ++
    (splitOrBlanks part).head?.toList

/-- The command for which a text may post a task: its first word. -/
def firstNames (text : String) : List String :=
  (splitOrBlanks text).head?.toList

/-- `dispatchPart` runs the chain and the first word of a part, or posts a task
for its first word. It adds one task or none, and says which. -/
theorem posts_dispatchPart (shell : Option String) (part : String) :
    Posts sure (partNames part) (firstNames part) 0 id
      (dispatchPart shell part) := by
  unfold dispatchPart
  dsimp only
  split
  · exact .pure rfl
  · next first rest hwords =>
    split
    · exact .direct_then (direct_runShellPart _ _) rfl
    · split
      · exact .direct_then (direct_runShellPart _ _) rfl
      · have hfirst : (splitOrBlanks part).head?.toList = [first] := by
          rw [hwords]
          rfl
        rw [partNames, firstNames, hfirst, hwords]
        refine .afterDirect (direct_runInner _ _) fun inner => ?_
        cases inner with
        | some value => exact .task _ first _ rfl
        | none =>
          refine .afterDirect (direct_callBuiltin first fun _ => texts_argsOf _)
            fun handled => ?_
          cases handled with
          | some out =>
            dsimp only
            split
            · exact .direct_then (.of_prints (prints_showResult _ _ _)) rfl
            · exact .pure rfl
          | none =>
            refine .read (fun w => ?_) fun _ _ => rfl
            exact .task _ first _ rfl

/-- `dispatchParts` adds as many tasks as it says. -/
theorem posts_dispatchParts (shell : Option String) (parts : List String) :
    Posts sure (parts.flatMap partNames) (parts.flatMap firstNames) 0 id
      (dispatchParts shell parts) := by
  induction parts with
  | nil => exact .pure rfl
  | cons part rest ih =>
    refine (posts_dispatchPart shell part).bind fun n => ?_
    exact (Posts.beside n).bind fun _ => (ih.shift n).andThen fun _ => .pure rfl

/-- The parts of what follows the word for several commands; a word for a shell
that all of them share is passed over. -/
def sharedParts (line : String) : List String :=
  partsOf (match (splitOrBlanks line).head?.filter shellWords.contains with
    | some shell => remainder line shell.length
    | none => line)

theorem posts_postMany (line : String) :
    Posts sure ((sharedParts line).flatMap partNames)
      ((sharedParts line).flatMap firstNames) 0 Demand.count
      (postMany line) := by
  unfold postMany
  dsimp only
  split
  · exact .direct_then (.of_prints (prints_logDebug _)) rfl
  · split
    · exact .direct_then (.of_prints (prints_logDebug _)) rfl
    · refine (posts_dispatchParts _ _).andThen fun n => ?_
      exact .direct_then (.of_prints (prints_logDebug _)) rfl

/-! ## Lines -/

/-- `postOne` runs the chain and the first word of a line, and that word once
more if the chain is declined, or posts a task for it. -/
theorem posts_postOne (line command : String) (words : List String) :
    Posts sure (composedNames command words (some line) ++ [command]) [command]
      0 Demand.count (postOne line command words) := by
  refine .afterDirect (direct_runComposed _ _ _) fun composed => ?_
  cases composed with
  | some s => exact .direct_then (.of_prints (prints_showResult _ _ _)) rfl
  | none =>
    refine .afterDirect (direct_callBuiltin command fun _ => texts_argsOf _)
      fun handled => ?_
    cases handled with
    | some out =>
      dsimp only
      split
      · exact .direct_then (.of_prints (prints_showResult _ _ _)) rfl
      · exact .pure rfl
    | none =>
      refine .read (fun w => ?_) fun _ _ => rfl
      exact .task _ command _ rfl

/-- Whether a line, after aliases and without blanks around it, is one of the
words that set the switch. -/
def Toggles (line : String) : Prop :=
  lower (trim line) ∈ quietLines ++ loudLines

/-- A line that `Toggles` the switch does nothing else. -/
theorem postExpanded_of_toggles {line : String} (h : Toggles line) :
    ∃ quiet, postExpanded line = switchDebug quiet := by
  unfold postExpanded
  dsimp only
  by_cases hquiet : quietLines.contains (lower (trim line))
  · exact ⟨true, by rw [if_pos hquiet]⟩
  · have hloud : loudLines.contains (lower (trim line)) := by
      rw [contains_iff_mem] at hquiet ⊢
      exact (mem_append.1 h).resolve_left hquiet
    exact ⟨false, by rw [if_neg hquiet, if_pos hloud]⟩

def announcesMany (command : String) : Bool :=
  command == "!multithread" || command == "!mt"

/-- The texts that are split into words to find the commands of a line: its
parts if it has several commands, and else the line itself. -/
def segments (line : String) : List String :=
  match splitOrBlanks line with
  | [] => []
  | command :: _ =>
    if announcesMany command then sharedParts (remainder line command.length)
    else [line]

/-- The commands that the shell itself may run for a line, in their order:
`partNames` of its parts, or `composedNames`. -/
def ownNames (line : String) : List String :=
  match splitOrBlanks line with
  | [] => []
  | command :: rest =>
    if announcesMany command then (segments line).flatMap partNames
    else composedNames command (command :: rest) (some line) ++ [command]

/-- The commands for which a line may post tasks, in their order: `firstNames`
of its `segments`. -/
def taskNames (line : String) : List String :=
  (segments line).flatMap firstNames

section

variable {line command : String} {rest : List String}
  (hwords : splitOrBlanks line = command :: rest)

include hwords

theorem segments_of_many (hmany : announcesMany command = true) :
    segments line = sharedParts (remainder line command.length) := by
  unfold segments
  rw [hwords]
  exact if_pos hmany

theorem segments_of_single (hmany : ¬ announcesMany command = true) :
    segments line = [line] := by
  unfold segments
  rw [hwords]
  exact if_neg hmany

theorem ownNames_of_many (hmany : announcesMany command = true) :
    ownNames line = (segments line).flatMap partNames := by
  unfold ownNames
  rw [hwords]
  exact if_pos hmany

theorem ownNames_of_single (hmany : ¬ announcesMany command = true) :
    ownNames line =
      composedNames command (command :: rest) (some line) ++ [command] := by
  unfold ownNames
  rw [hwords]
  exact if_neg hmany

end

def systemWord : String := "!cmd"

/-- Whether a line asks for the system's shell: its first word does so, and
behind the place of that word there is more than blanks. -/
def AsksSystem (line : String) : Prop :=
  (splitOrBlanks line).head? = some systemWord ∧
    remainder line systemWord.length ≠ ""

/-- **A line that does not set the switch follows its words** (`ownNames`,
`taskNames`): what it runs and what it posts is settled by them, it posts as
many tasks as it says, and it does not fail unless it `AsksSystem`. -/
theorem posts_postExpanded {line : String} (h : ¬ Toggles line) :
    Posts (¬ AsksSystem line) (ownNames line) (taskNames line) 0 Demand.count
      (postExpanded line) := by
  have hquiet : ¬ quietLines.contains (lower (trim line)) := by
    rw [contains_iff_mem]
    exact fun hm => h (mem_append_left _ hm)
  have hloud : ¬ loudLines.contains (lower (trim line)) := by
    rw [contains_iff_mem]
    exact fun hm => h (mem_append_right _ hm)
  unfold postExpanded
  dsimp only
  rw [if_neg hquiet, if_neg hloud]
  split
  · exact .pure rfl
  · next command rest hwords =>
    split
    · exact .direct_then (direct_dispatchOther _) rfl
    · split
      · next hcommand =>
        refine .direct_then (direct_dispatchSystem fun hasks => ?_) rfl
        have hc : command = systemWord := by simpa [systemWord] using hcommand
        subst hc
        -- nothing follows the word, or else the line would ask for the shell
        have hrest : remainder line systemWord.length = "" := by
          refine Classical.byContradiction fun hne => hasks ⟨?_, hne⟩
          rw [hwords]
          rfl
        rw [hrest]
        rfl
      · split
        · next hmany =>
          rw [ownNames_of_many hwords hmany, taskNames,
            segments_of_many hwords hmany]
          exact posts_postMany _
        · next hmany =>
          have htask : taskNames line = [command] := by
            simp [taskNames, segments_of_single hwords hmany,
              firstNames, hwords]
          rw [ownNames_of_single hwords hmany, htask]
          exact posts_postOne _ _ _

/-- What a line becomes by the aliases of a world. -/
def expandedIn (w : World) (line : String) : String :=
  expandAliases w.aliases aliasDepth line

def tellExpansion (w : World) (line : String) : Act Unit :=
  if expandedIn w line != line then
    logDebug s!"Alias expanded: {line} -> {expandedIn w line}"
  else pure ⟨⟩

theorem prints_tellExpansion (w : World) (line : String) :
    Prints (tellExpansion w line) := by
  unfold tellExpansion
  split
  · exact prints_logDebug _
  · exact prints_pure

/-- `post` expands a line that is not blank, which may be told, and then runs
it. -/
theorem post_eq (line : String) (h : ¬ line.toList.all isBlank) :
    post line = get >>= fun w => tellExpansion w line >>=
      fun _ => postExpanded (expandedIn w line) := by
  unfold post
  rw [if_neg h]
  refine bind_congr fun w => ?_
  unfold tellExpansion expandedIn
  dsimp only
  split
  · rfl
  · rw [pure_bind]

theorem post_of_expandedIn {line : String} {w : World}
    (hexpanded : expandedIn w line = line)
    (hblank : ¬ line.toList.all isBlank) :
    post line w = postExpanded line w := by
  have htell : tellExpansion w line w = (.ok ⟨⟩, w) := by
    unfold tellExpansion
    rw [hexpanded, if_neg (by simp)]
    rfl
  rw [post_eq line hblank, get_bind_apply, bind_of_ok htell, hexpanded]

/-! ## What posting does to the queues -/

/-- How many results are there or are still to come. -/
def pending (w : World) : Nat := w.tasks.length + w.results.length

/-- `runTasks` leaves one result for each task, and nothing else in the
queues. -/
theorem runTasks_results (worker : Nat) (tasks : List Task) : ∀ w : World,
    ∃ w', runTasks worker tasks w = (.ok ⟨⟩, w') ∧ w'.tasks = w.tasks ∧
      w'.results.length = w.results.length + tasks.length ∧
      w'.pace = w.pace := by
  induction tasks with
  | nil => exact fun w => ⟨w, rfl, rfl, rfl, rfl⟩
  | cons task rest ih =>
    intro w
    obtain ⟨w₁, hrun⟩ := runTask_eq worker task w
    generalize outcome task w.toSite = v at hrun
    have hplain := (direct_runTask worker task).plain
    have htasks : w₁.tasks = w.tasks := by simpa [hrun] using hplain.tasks w
    have hresults : w₁.results = w.results := by
      simpa [hrun] using hplain.results w
    have hpace : w₁.pace = w.pace := by simpa [hrun] using hplain.pace w
    obtain ⟨w', hrest, htasks', hresults', hpace'⟩ :=
      ih { w₁ with results := w₁.results ++ [(worker, v)] }
    refine ⟨w', ?_, htasks'.trans htasks, ?_, hpace'.trans hpace⟩
    · unfold runTasks
      rw [bind_of_ok hrun, modify_bind_apply, hrest]
    · rw [hresults', length_append, hresults, length_cons,
        length_cons, length_nil]
      omega

theorem runBeside_eq {w : World} {n : Nat}
    (h : w.pace.beside w.parts = n) : runBeside w =
    runTasks 0 (w.tasks.take n) { w with
      tasks := w.tasks.drop n, parts := w.parts + 1 } := by
  unfold runBeside
  rw [get_bind_apply, h, modify_bind_apply]

/-- `runBeside` moves what it runs from the tasks to the results. -/
theorem runBeside_pending (w : World) :
    ∃ w', runBeside w = (.ok ⟨⟩, w') ∧ pending w' = pending w ∧
      w'.pace = w.pace := by
  obtain ⟨n, hn⟩ : ∃ n, w.pace.beside w.parts = n := ⟨_, rfl⟩
  obtain ⟨w', hrun, htasks, hresults, hpace⟩ :=
    runTasks_results 0 (w.tasks.take n) { w with
      tasks := w.tasks.drop n, parts := w.parts + 1 }
  refine ⟨w', ?_, ?_, hpace⟩
  · rw [runBeside_eq hn, hrun]
  · rw [pending, htasks, hresults]
    show (w.tasks.drop n).length +
      (w.results.length + (w.tasks.take n).length) = pending w
    rw [pending, length_drop, length_take]
    omega

/-- An action that adds tasks, which the worker may run already. If `before`
tasks have been added earlier, there are `count a` of them when it ends with
`a`. The pace of the worker is left alone. -/
def Adds (before : Nat) (count : α → Nat) (act : Act α) : Prop :=
  ∀ w, (act w).2.pace = w.pace ∧ ∀ a, (act w).1 = .ok a →
    pending (act w).2 + before = pending w + count a

theorem Adds.bind {x : Act α} {f : α → Act β} (hx : Adds before count x)
    (hf : ∀ a, Adds (count a) count' (f a)) : Adds before count' (x >>= f) := by
  intro w
  obtain ⟨hpace, hcount⟩ := hx w
  rcases bind_cases x f w with ⟨a, t, ht, h⟩ | ⟨e, t, ht, h⟩
  · rw [ht] at hpace hcount
    obtain ⟨hpace', hcount'⟩ := hf a t
    rw [h]
    refine ⟨hpace'.trans hpace, ?_⟩
    intro b hb
    have hfirst := hcount a rfl
    have hsecond := hcount' b hb
    dsimp only at hfirst
    omega
  · rw [ht] at hpace
    rw [h]
    refine ⟨hpace, ?_⟩
    intro b hb
    cases hb

theorem adds_get_bind {f : World → Act β}
    (hf : ∀ w, Adds before count' (f w)) : Adds before count' (get >>= f) :=
  fun w => hf w w

theorem adds_prints {act : Act Unit} (h : Prints act) :
    Adds before (fun _ => before) act := by
  intro w
  obtain ⟨out, hw⟩ := h w
  rw [hw]
  exact ⟨rfl, fun _ _ => rfl⟩

/-- **What `Posts` says is counted right.** -/
theorem Posts.adds {act : Act α} (h : Posts sure own posted before count act) :
    Adds before count act := by
  induction h with
  | pure h =>
    intro w
    refine ⟨rfl, ?_⟩
    rintro b ⟨⟩
    rw [h]
    rfl
  | direct before h =>
    intro w
    refine ⟨h.plain.pace w, fun _ _ => ?_⟩
    rw [pending, h.plain.tasks w, h.plain.results w, pending]
  | addTask before command args =>
    intro w
    refine ⟨rfl, fun _ _ => ?_⟩
    show (w.tasks ++ [_]).length + w.results.length + before =
      pending w + (before + 1)
    rw [pending, length_append, length_singleton]
    omega
  | beside before =>
    intro w
    obtain ⟨w', hrun, hpending, hpace⟩ := runBeside_pending w
    rw [hrun]
    refine ⟨hpace, fun _ _ => ?_⟩
    rw [hpending]
  | bind _ _ ihx ihf => exact ihx.bind ihf
  | read _ _ ih => exact adds_get_bind ih

private theorem adds_switchDebug (quiet : Bool) :
    Adds 0 Demand.count (switchDebug quiet) := by
  intro w
  refine ⟨rfl, ?_⟩
  rintro demand ⟨⟩
  rfl

private theorem adds_postExpanded (line : String) :
    Adds 0 Demand.count (postExpanded line) := by
  by_cases h : Toggles line
  · obtain ⟨quiet, hline⟩ := postExpanded_of_toggles h
    rw [hline]
    exact adds_switchDebug quiet
  · exact (posts_postExpanded h).adds

/-- **A line asks for as many results as it has posted tasks.** -/
theorem post_adds (line : String) : Adds 0 Demand.count (post line) := by
  by_cases hblank : line.toList.all isBlank
  · unfold post
    rw [if_pos hblank]
    have hpure :
        Posts True [] [] 0 Demand.count (pure Demand.nothing) := .pure rfl
    exact hpure.adds
  · rw [post_eq line hblank]
    refine adds_get_bind fun w => ?_
    exact (adds_prints (prints_tellExpansion w line)).bind
      fun _ => adds_postExpanded _

end TaskShell.Shell

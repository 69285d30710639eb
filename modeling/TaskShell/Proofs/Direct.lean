import TaskShell.Proofs.Sure

/-!
# What the shell does itself

A line of input does some of its work at once, without the workers: it runs
chains, builtins and programs, and prints. All of this is put together from few
kinds of steps. `Direct` says so, once for each function of the shell, and says
which commands the function may run; a property of these functions is then a
property of the steps, proved by induction on how an action is put together.
-/

namespace TaskShell.Act

variable {α β : Type}

/-- An action that is put together from local actions, printing, notes and
reading the site or the aliases. `Direct sure own act` names the commands `own`
that it may note as run, in their order; it never fails if `sure` holds. -/
inductive Direct : {α : Type} → Prop → List String → Act α → Prop
  | of_local {α : Type} {sure : Prop} {own : List String} {act : Act α}
      (h : Local act) (hs : sure → Sure act) : Direct sure own act
  | of_prints {sure : Prop} {own : List String} {act : Act Unit}
      (h : Prints act) : Direct sure own act
  | printError {sure : Prop} {own : List String} (s : String) :
      Direct sure own (Act.printError s)
  | note {sure : Prop} (call : Call) : Direct sure [call.name] (Act.note call)
  | bind {α β : Type} {sure : Prop} {own own' : List String} {x : Act α}
      {f : α → Act β} (hx : Direct sure own x)
      (hf : ∀ a, Direct sure own' (f a)) : Direct sure (own ++ own') (x >>= f)
  /-- What is read is the site or the aliases: among other things it is the
  same. -/
  | read {β : Type} {sure : Prop} {own : List String} {f : World → Act β}
      (hf : ∀ w, Direct sure own (f w)) (hs : ∀ w u, f (among w u) = f w) :
      Direct sure own (get >>= f)
  | attempt {α : Type} {sure : Prop} {own : List String} {act : Act α}
      (h : Direct False own act) : Direct sure own (Act.attempt act)
  | orElse {α : Type} {sure : Prop} {own : List String} {act : Act α}
      {handler : Fault → Act α} (h : Direct False own act)
      (hh : ∀ f, Direct sure [] (handler f)) :
      Direct sure own (Act.orElse act handler)

variable {sure : Prop} {own : List String}

theorem direct_pure (a : α) : Direct sure own (pure a : Act α) :=
  .of_local (local_pure a) fun _ => sure_pure a

theorem direct_lift (job : Job α) : Direct False own (liftM job : Act α) :=
  .of_local (local_lift job) False.elim

namespace Direct

/-- What comes after an action that runs no command decides what is run. -/
theorem after {x : Act α} {f : α → Act β} (hx : Direct sure [] x)
    (hf : ∀ a, Direct sure own (f a)) : Direct sure own (x >>= f) :=
  hx.bind hf

/-- What comes before an action that runs no command decides what is run. -/
theorem andThen {x : Act α} {f : α → Act β} (hx : Direct sure own x)
    (hf : ∀ a, Direct sure [] (f a)) : Direct sure own (x >>= f) := by
  have h := hx.bind hf
  rwa [List.append_nil] at h

/-- `Direct.after`, by whether there is a value or a fault to go on with. -/
theorem afterOutcome {x : Act (Except Fault α)} {f : Except Fault α → Act β}
    (hx : Direct sure [] x) (hok : ∀ a, Direct sure own (f (.ok a)))
    (herror : ∀ e, Direct sure own (f (.error e))) :
    Direct sure own (x >>= f) := by
  refine hx.after fun outcome => ?_
  cases outcome with
  | ok a => exact hok a
  | error e => exact herror e

/-- **`Direct` actions never fail**, if they are said to be sure. -/
theorem sure_of {act : Act α} (h : Direct sure own act) (hs : sure) :
    Sure act := by
  induction h with
  | of_local _ h => exact h hs
  | of_prints h => exact h.sure
  | printError s => exact sure_modify _
  | note call => exact sure_modify _
  | bind _ _ ihx ihf => exact (ihx hs).bind fun a => ihf a hs
  | read _ _ ih => exact sure_get_bind fun w => ih w hs
  | attempt _ _ => exact sure_attempt _
  | orElse _ _ _ ihh => exact sure_orElse fun f => ihh f hs

end Direct

theorem direct_forIn {γ : Type} (items : List γ) {f : γ → Act Unit}
    (hf : ∀ a, Direct sure [] (f a)) : Direct sure []
      (forIn items PUnit.unit fun a _ => do
        f a; pure (ForInStep.yield PUnit.unit)) := by
  induction items with
  | nil => exact direct_pure _
  | cons a rest ih =>
    rw [forIn_cons]
    exact (hf a).after fun _ => ih

/-! ## What direct actions leave alone -/

/-- The switch for debug messages, the queues of the workers and their pace. -/
def controls (w : World) : Bool × List Task × List (Nat × Value) × Pace :=
  (w.quiet, w.tasks, w.results, w.pace)

/-- An action that leaves the `controls` of the world alone. -/
def Plain (act : Act α) : Prop := ∀ w, controls (act w).2 = controls w

theorem Plain.quiet {act : Act α} (h : Plain act) (w : World) :
    (act w).2.quiet = w.quiet :=
  congrArg Prod.fst (h w)

theorem Plain.tasks {act : Act α} (h : Plain act) (w : World) :
    (act w).2.tasks = w.tasks :=
  congrArg (·.2.1) (h w)

theorem Plain.results {act : Act α} (h : Plain act) (w : World) :
    (act w).2.results = w.results :=
  congrArg (·.2.2.1) (h w)

theorem Plain.pace {act : Act α} (h : Plain act) (w : World) :
    (act w).2.pace = w.pace :=
  congrArg (·.2.2.2) (h w)

theorem Plain.bind {x : Act α} {f : α → Act β} (hx : Plain x)
    (hf : ∀ a, Plain (f a)) : Plain (x >>= f) := by
  intro w
  rcases bind_cases x f w with ⟨a, t, ht, h⟩ | ⟨e, t, ht, h⟩
  · rw [h, hf a t, ← hx w, ht]
  · rw [h, ← hx w, ht]

theorem Prints.plain {act : Act Unit} (h : Prints act) : Plain act := by
  intro w
  obtain ⟨out, hw⟩ := h w
  rw [hw]
  rfl

/-- **`Direct` actions are `Plain`.** -/
theorem Direct.plain {act : Act α} (h : Direct sure own act) : Plain act := by
  induction h with
  | of_local h _ =>
    intro w
    rw [h.world w]
    rfl
  | of_prints h => exact h.plain
  | printError s => exact fun _ => rfl
  | note call => exact fun _ => rfl
  | bind _ _ ihx ihf => exact ihx.bind ihf
  | read _ _ ih => exact fun w => ih w w
  | attempt _ ih => exact ih
  | @orElse _ _ _ act handler _ _ ih ihh =>
    intro w
    rcases ha : act w with ⟨r, t⟩
    cases r with
    | ok a => rw [orElse_of_ok ha, ← ih w, ha]
    | error e => rw [orElse_of_error ha, ihh e t, ← ih w, ha]

/-! ## What direct actions run -/

/-- An action that runs some of the commands `own`, in this order and none of
them twice. -/
def Runs (own : List String) (act : Act α) : Prop :=
  ∀ w, ∃ runs, (act w).2.calls = w.calls ++ runs ∧
    (runs.map Call.name).Sublist own

theorem Runs.of_calls {act : Act α} (h : ∀ w, (act w).2.calls = w.calls) :
    Runs own act := by
  intro w
  exact ⟨[], by rw [h, List.append_nil], List.nil_sublist _⟩

theorem Runs.trans {w w₁ w₂ : World} {own' : List String} {runs : List Call}
    (h : w₁.calls = w.calls ++ runs) (hruns : (runs.map Call.name).Sublist own)
    (h' : ∃ more, w₂.calls = w₁.calls ++ more ∧
      (more.map Call.name).Sublist own') :
    ∃ all, w₂.calls = w.calls ++ all ∧
      (all.map Call.name).Sublist (own ++ own') := by
  obtain ⟨more, hcalls, hmore⟩ := h'
  refine ⟨runs ++ more, by rw [hcalls, h, List.append_assoc], ?_⟩
  rw [List.map_append]
  exact hruns.append hmore

theorem calls_of_prints {act : Act Unit} (h : Prints act) (w : World) :
    (act w).2.calls = w.calls := by
  obtain ⟨out, hw⟩ := h w
  rw [hw]

/-- **`Direct` actions run the commands they name.** -/
theorem Direct.runs {act : Act α} (h : Direct sure own act) : Runs own act := by
  induction h with
  | of_local h _ => exact .of_calls h.calls
  | of_prints h => exact .of_calls (calls_of_prints h)
  | printError s => exact .of_calls fun _ => rfl
  | note call => exact fun w => ⟨[call], rfl, .refl _⟩
  | @bind _ _ _ _ _ x f _ _ ihx ihf =>
    intro w
    obtain ⟨runs, hcalls, hruns⟩ := ihx w
    rcases bind_cases x f w with ⟨a, t, hxw, h⟩ | ⟨e, t, hxw, h⟩
    · rw [hxw] at hcalls
      rw [h]
      exact Runs.trans hcalls hruns (ihf a t)
    · rw [hxw] at hcalls
      rw [h]
      exact ⟨runs, hcalls, hruns.trans (List.sublist_append_left _ _)⟩
  | read _ _ ih => exact fun w => ih w w
  | attempt _ ih => exact ih
  | @orElse _ _ _ act handler _ _ ih ihh =>
    intro w
    obtain ⟨runs, hcalls, hruns⟩ := ih w
    rcases ha : act w with ⟨r, t⟩
    rw [ha] at hcalls
    cases r with
    | ok a =>
      rw [orElse_of_ok ha]
      exact ⟨runs, hcalls, hruns⟩
    | error e =>
      rw [orElse_of_error ha]
      have h := Runs.trans hcalls hruns (ihh e t)
      rwa [List.append_nil] at h

end TaskShell.Act

namespace TaskShell.Shell

open Act List

variable {sure : Prop} {own : List String}

/-! ## Chains -/

theorem direct_runBuiltin (name : String) (b : Builtin) {args : Args}
    (h : sure → Texts args) : Direct sure [name] (runBuiltin name b args) :=
  (Direct.note ⟨true, name, .record args⟩).andThen
    fun _ => .of_local (builtin_local b args) fun hs => sure_builtin b (h hs)

theorem direct_runCommand (name : String) (c : Command) (v : Value) :
    Direct False [name] (runCommand name c v) :=
  (Direct.note ⟨false, name, v⟩).andThen fun _ => direct_lift _

theorem direct_callBuiltin (name : String) {args : Args}
    (h : sure → Texts args) : Direct sure [name] (callBuiltin name args) := by
  unfold callBuiltin
  split
  · exact (direct_runBuiltin _ _ h).andThen fun _ => direct_pure _
  · exact direct_pure none

private theorem direct_runNamed (name : String) (args : Args) :
    Direct False [name] (runNamed name args) := by
  unfold runNamed
  split
  · exact direct_callBuiltin name False.elim
  · split
    · exact (direct_runCommand _ _ _).andThen fun _ => direct_pure _
    · exact direct_pure _

theorem direct_runOrDecline (name : String) (args : Args) :
    Direct sure [name] (runOrDecline name args) := by
  refine (direct_runNamed name args).attempt.andThen fun outcome => ?_
  cases outcome with
  | ok v => exact direct_pure v
  | error f => exact direct_pure none

/-- `runThrough` runs commands in their order, whatever the results are. -/
theorem direct_runThrough (names : List String) :
    ∀ v, Direct sure names (runThrough names v) := by
  induction names with
  | nil => exact fun v => direct_pure _
  | cons name rest ih =>
    intro v
    refine (direct_runOrDecline name _).bind fun result => ?_
    cases result with
    | none => exact direct_pure none
    | some u => exact ih u

/-- `runChain` runs a chain from right to left if its innermost command stands
first among the words it is given. -/
theorem direct_runChain {chain inner : List String}
    (h : inner.head? = chain.getLast?) :
    Direct sure chain.reverse (runChain chain inner) := by
  cases inner with
  | nil => exact direct_pure none
  | cons name rest =>
    obtain ⟨init, rfl⟩ := getLast?_eq_some_iff.1 h.symm
    have hnames : (init ++ [name]).reverse =
        [name] ++ (init ++ [name]).dropLast.reverse := by simp
    rw [hnames]
    refine (direct_runOrDecline name _).bind fun result => ?_
    cases result with
    | none => exact direct_pure none
    | some v => exact direct_runThrough _ v

theorem head?_drop_placeFrom? {parts : List String} {word : String}
    {start i : Nat} (h : placeFrom? parts word start = some i) :
    (parts.drop i).head? = some word := by
  obtain ⟨j, hj, rfl⟩ := Option.map_eq_some_iff.1 h
  obtain ⟨hlt, hword, -⟩ := findIdx?_eq_some_iff_getElem.1 hj
  rw [head?_drop, Nat.add_comm, ← getElem?_drop, getElem?_eq_getElem hlt]
  exact congrArg some (by simpa using hword)

/-- A chain that `locate?` finds is one of positional words, and its last
command stands first among the words it is given. -/
theorem locate?_eq_some {parts : List String} {text : Option String}
    {c : Located} (h : locate? parts text = some c) :
    c.words.head? = c.chain.getLast? ∧ ∃ before,
      firstChain text (positionals parts) 0 = some (before, c.chain) := by
  simp only [locate?, Option.bind_eq_bind, Option.bind_eq_some_iff,
    Option.some.injEq] at h
  obtain ⟨⟨before, chain⟩, hchain, first, -, innermost, hlast, rfl⟩ := h
  refine ⟨?_, before, hchain⟩
  dsimp only
  rw [hlast]
  cases hplace : placeFrom? parts innermost first with
  | none => rfl
  | some i => exact head?_drop_placeFrom? hplace

/-- The commands that a composed line may run: those of its chain, from right to
left, and the outer one. -/
def composedNames (command : String) (parts : List String)
    (text : Option String) : List String :=
  match locate? parts text with
  | none => []
  | some c => c.chain.reverse ++ [command]

/-- `runComposed` needs no workers: it runs the chain and then the outer
command, whatever the results are. -/
theorem direct_runComposed (command : String) (parts : List String)
    (text : Option String) : Direct sure (composedNames command parts text)
      (runComposed command parts text) := by
  unfold runComposed composedNames
  cases hc : locate? parts text with
  | none => exact direct_pure none
  | some c =>
    refine (direct_runChain (locate?_eq_some hc).1).bind fun inner => ?_
    cases inner with
    | none => exact direct_pure none
    | some v => exact (direct_runOrDecline _ _).andThen fun _ => direct_pure _

/-- The commands that `runInner` may run: the chain right after the first word,
from right to left. -/
def innerNames (parts : List String) (text : Option String) : List String :=
  ((positionals parts).takeWhile (isLink text)).reverse

theorem direct_runInner (parts : List String) (text : Option String) :
    Direct sure (innerNames parts text) (runInner parts text) := by
  unfold runInner innerNames
  dsimp only
  split
  · exact direct_pure none
  · next innermost hlast =>
    refine (direct_runChain ?_).andThen fun _ => direct_pure _
    rw [hlast]
    split
    · next i hplace => exact head?_drop_placeFrom? hplace
    · rfl

/-! ## Programs -/

theorem direct_runStream (command : List String) (limit : Option Limit) :
    Direct sure own (runStream command limit) := by
  refine (direct_lift _).attempt.afterOutcome (fun outcome => ?_)
    fun _ => direct_pure _
  refine (direct_forIn _ fun l => .of_prints (prints_printLine l)).after
    fun _ => ?_
  refine (direct_forIn _ fun l => .printError l).after fun _ => ?_
  split
  · exact direct_pure _
  · exact direct_pure _

theorem direct_runOtherShell (line : String) (limit : Option Limit) :
    Direct sure own (runOtherShell line limit) := by
  refine .read (fun w => ?_) fun _ _ => rfl
  split
  · exact direct_pure _
  · exact direct_runStream _ _

theorem direct_runProgramLine (line : String) (limit : Option Limit) :
    Direct sure own (runProgramLine line limit) := by
  unfold runProgramLine
  split
  · exact direct_runStream _ _
  · exact direct_runStream _ _

theorem direct_dispatchOther (line : String) :
    Direct sure own (dispatchOther line) := by
  unfold dispatchOther
  split
  · exact .of_prints (prints_logDebug _)
  · exact (direct_runOtherShell _ _).afterOutcome
      (fun _ => .of_prints (prints_logDebug _))
      fun _ => .of_prints (prints_showResult _ _ _)

theorem direct_dispatchSystem {line : String} (h : sure → line.isEmpty) :
    Direct sure own (dispatchSystem line) := by
  unfold dispatchSystem
  split
  · exact .of_prints (prints_showResult _ _ _)
  · next hne => exact .of_local (local_fail _) fun hs => (hne (h hs)).elim

theorem direct_runShellPart (shell line : String) :
    Direct sure own (runShellPart shell line) := by
  unfold runShellPart
  split
  · exact .of_prints (prints_showResult _ _ _)
  · split
    · exact (direct_runOtherShell _ _).afterOutcome
        (fun _ => .of_prints (prints_logDebug _))
        fun _ => .of_prints (prints_showResult _ _ _)
    · exact (direct_runProgramLine _ _).afterOutcome
        (fun _ => .of_prints (prints_logDebug _))
        fun _ => .of_prints (prints_showResult _ _ _)

/-! ## Tasks -/

/-- `runTask` runs the command that the task was posted for, if any. -/
theorem direct_runTask (worker : Nat) (task : Task) :
    Direct True [task.command] (runTask worker task) := by
  unfold runTask
  split
  · exact (direct_runCommand _ _ _).orElse fun _ => direct_pure _
  · exact (Direct.of_prints (prints_logDebug _)).after fun _ => direct_pure _

/-- What a task gives at a site: what its command returns, or a message if the
command fails or does not exist. -/
def outcome (task : Task) (site : Site) : Value :=
  match Command.ofName? task.command with
  | some c =>
    match (c.call task.args site).1 with
    | .ok v => v
    | .error f => .text s!"Fehler bei {task.command}: {f.message}"
  | none => .text s!"Unbekanntes Kommando: {task.command}"

/-- **A worker never fails.** Its result is the `outcome` of the task at the
site it finds. -/
theorem runTask_eq (worker : Nat) (task : Task) (w : World) :
    ∃ w', runTask worker task w = (.ok (outcome task w.toSite), w') := by
  unfold runTask outcome
  cases hc : Command.ofName? task.command with
  | none =>
    obtain ⟨out, hlog⟩ :=
      prints_logDebug s!"Worker {worker} kennt Command '{task.command}' nicht" w
    dsimp only
    rw [bind_of_ok hlog]
    exact ⟨_, rfl⟩
  | some c =>
    -- the call is noted first, which leaves the site as it is
    have hrun : runCommand task.command c task.args w =
      ((c.call task.args w.toSite).1,
      { w with
        toSite := (c.call task.args w.toSite).2,
        calls := w.calls ++ [⟨false, task.command, task.args⟩] }) := rfl
    rcases hv : (c.call task.args w.toSite).1 with f | v
    · rw [hv] at hrun
      dsimp only
      rw [orElse_of_error hrun, hv]
      exact ⟨_, rfl⟩
    · rw [hv] at hrun
      dsimp only
      rw [orElse_of_ok hrun, hv]
      exact ⟨_, rfl⟩

end TaskShell.Shell

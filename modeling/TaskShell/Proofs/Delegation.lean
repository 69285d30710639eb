import TaskShell.Proofs.Declining
import TaskShell.Proofs.Draining
import TaskShell.Proofs.Results
import TaskShell.Proofs.Trimming

/-!
# Delegated lines

`!mt` before a line hands its commands to the workers. Such lines have a way of
their own: they are cut at ampersands, their chains are found by another search,
and the command at the head of a chain is a task, with the value of the chain as
its only argument. For a line with one command both ways should come to the
same.

They do under the conditions of `Delegable`. The proof brings both ways to the
same three cases: no chain, or one that is declined, after which the command is
run with its own words (`plain_alike`); and a chain with a value, which the
shell gives to the command itself and the other way to a worker (`value_alike`).
The two searches find the same chain if it comes right after the command
(`same_chain`). Between lines neither tasks nor results wait, so the one result
of a line is that of its own task (`show_withTask`).

## Main results

* `no_chain`, `same_chain` - when the two searches for a chain agree.
* `post_mt`, `post_one` - what is done with a line behind `!mt`, and with one
  that has no such mark.
* `agrees_of_delegable` - the command of a line comes to the same in both ways.
* `delegated_same` - so does the line.
-/

namespace TaskShell.Shell

open Act Text Words List

variable {text : Option String} {parts : List String} {word value : String}
  {line command : String} {rest : List String} {args : Args} {w w₁ : World}

/-! ## Chains right after the command -/

theorem firstChain_eq_none {words : List String}
    (h : ∀ word ∈ words, isLink text word = false) (i : Nat) :
    firstChain text words i = none := by
  fun_induction firstChain text words i with
  | case1 => rfl
  | case2 word rest i hlink =>
    rw [h word (by simp)] at hlink
    contradiction
  | case3 word rest i hlink ih =>
    exact ih fun other hm => h other (mem_cons_of_mem _ hm)

theorem placeFrom?_of_mem {start : Nat} (h : word ∈ parts.drop start) :
    ∃ i, placeFrom? parts word start = some i ∧ i < parts.length := by
  have hfound : ((parts.drop start).findIdx? (· == word)).isSome := by
    rw [findIdx?_isSome, any_eq_true]
    exact ⟨word, h, beq_self_eq_true word⟩
  obtain ⟨k, hk⟩ := Option.isSome_iff_exists.1 hfound
  have hlt := (findIdx?_eq_some_iff_getElem.1 hk).1
  rw [length_drop] at hlt
  refine ⟨k + start, ?_, by omega⟩
  rw [placeFrom?, hk]
  rfl

theorem consumed_drop {i : Nat} (h : i < parts.length) :
    consumed (parts.drop i) = parts.length - i := by
  rw [drop_eq_getElem_cons h, consumed_cons, length_drop]
  omega

theorem no_chain (h : ∀ word ∈ positionals parts, isLink text word = false) :
    locate? parts text = none ∧ innerNames parts text = [] := by
  constructor
  · simp only [locate?, firstChain_eq_none h 0]
    rfl
  · rw [innerNames, reverse_eq_nil_iff]
    cases hwords : positionals parts with
    | nil => rfl
    | cons word rest =>
      rw [takeWhile_cons, h word (by rw [hwords]; simp),
        if_neg Bool.false_ne_true]

/-- Both kinds of chain, `locate?` and `runInner`, are the same if the word
right after the command is a link: the same commands are run with the same
words, and nothing but the command is left for its value. -/
theorem same_chain {link : String} (hlink : isLink text link = true)
    (command : String) (rest : List String) :
    ∃ c, locate? (command :: link :: rest) text = some c ∧
      runInner (command :: link :: rest) text =
        (runChain c.chain c.words >>= fun r => pure (r.map Value.display)) ∧
      ∀ v, substitute (command :: link :: rest) c v = [command, v.display] := by
  have hflag := isFlag_of_isKnown (isKnown_of_isLink hlink)
  have hwords : positionals (command :: link :: rest) =
      link :: positionalFrom rest := positionalFrom_cons hflag rest
  have hplaces : positionalPlaces (command :: link :: rest) =
      1 :: placesFrom 2 rest := placesFrom_cons hflag rest 1
  obtain ⟨chain, hchain⟩ : ∃ chain,
    (link :: positionalFrom rest).takeWhile (isLink text) = chain := ⟨_, rfl⟩
  have hfirst : firstChain text (link :: positionalFrom rest) 0 =
      some (0, chain) := by
    rw [firstChain, if_pos hlink, hchain]
  have hne : chain ≠ [] := by
    rw [← hchain, takeWhile_cons, if_pos hlink]
    exact cons_ne_nil _ _
  have hlast := getLast?_eq_some_getLast hne
  generalize chain.getLast hne = innermost at hlast
  -- the innermost command is found behind the command
  have hmem : innermost ∈ (command :: link :: rest).drop 1 := by
    refine mem_of_mem_positionalFrom _ ?_
    rw [drop_succ_cons, drop_zero, positionalFrom_cons hflag rest]
    exact mem_of_mem_takeWhile (hchain ▸ mem_of_getLast? hlast)
  obtain ⟨i, hplace, hlt⟩ := placeFrom?_of_mem hmem
  obtain ⟨last, hlocate⟩ : ∃ last, locate? (command :: link :: rest) text =
      some ⟨chain, 1, last, some i, (command :: link :: rest).drop i⟩ := by
    simp only [locate?, hwords, hplaces, hfirst, Option.bind_eq_bind,
      Option.bind_some, getElem?_cons_zero, hlast, hplace]
    exact ⟨_, rfl⟩
  refine ⟨_, hlocate, ?_, ?_⟩
  · unfold runInner
    simp only [hwords, hchain, hlast, hplace]
  · intro v
    have hdrop : ∀ k, (command :: link :: rest).length - 1 ≤ k →
        (command :: link :: rest).drop (k + 1) = [] :=
      fun k hk => drop_eq_nil_of_le (by omega)
    simp only [substitute, Option.getD_some, consumed_drop hlt]
    rw [hdrop _ (Nat.le_trans (by omega) (Nat.le_max_left _ _))]
    rfl

/-! ## Tasks handed to a worker -/

/-- Debug messages are held back, and the world is `Drained`. -/
structure AtRest (w : World) : Prop extends Drained w where
  quiet : w.quiet = true

theorem AtRest.after {α : Type} {own : List String} {act : Act α}
    (hw : AtRest w) (h : Direct True own act) : AtRest (act w).2 where
  tasks := (h.plain.tasks w).trans hw.tasks
  results := (h.plain.results w).trans hw.results
  inTime := by rw [h.plain.pace w]; exact hw.inTime
  quiet := (h.plain.quiet w).trans hw.quiet

theorem logDebug_of_quiet (h : w.quiet = true) (message : String) :
    logDebug message w = (.ok ⟨⟩, w) := by
  simp [logDebug, h]

theorem showText_of_quiet (h : w.quiet = true) (text label : String)
    (heading : Bool) :
    showResult (.text text) label heading w = Act.printLine text w := by
  unfold showResult
  dsimp only
  rw [get_bind_apply, if_pos h]
  rfl

def withTask (w : World) (task : Task) : World := { w with tasks := [task] }

theorem addTask_atRest (hw : AtRest w) (command : String)
    (args : Args) :
    addTask command args w = (.ok ⟨⟩, withTask w ⟨command, .record args⟩) := by
  unfold addTask
  rw [modify_apply, hw.tasks]
  rfl

def afterTask (task : Task) (w : World) : World :=
  match Command.ofName? task.command with
  | some c =>
    { w with
      toSite := (c.call task.args w.toSite).2,
      calls := w.calls ++ [⟨false, task.command, task.args⟩] }
  | none => w

theorem runTask_of_quiet (h : w.quiet = true) (task : Task) :
    runTask 0 task w = (.ok (outcome task w.toSite), afterTask task w) := by
  unfold runTask outcome afterTask
  cases hc : Command.ofName? task.command with
  | none =>
    dsimp only
    rw [bind_of_ok (logDebug_of_quiet h _)]
    rfl
  | some c =>
    have hrun : runCommand task.command c task.args w =
      ((c.call task.args w.toSite).1,
      { w with
        toSite := (c.call task.args w.toSite).2,
        calls := w.calls ++ [⟨false, task.command, task.args⟩] }) := rfl
    dsimp only
    rcases hv : (c.call task.args w.toSite).1 with f | v
    · rw [hv] at hrun
      exact orElse_of_error hrun
    · rw [hv] at hrun
      exact orElse_of_ok hrun

theorem AtRest.afterTask (hw : AtRest w) (task : Task) :
    AtRest (afterTask task w) := by
  have h := hw.after (direct_runTask 0 task)
  rwa [runTask_of_quiet hw.quiet] at h

theorem takeResult_of_result (hw : AtRest w) (r : Nat × Value) :
    takeResult { w with results := [r] } = (.ok (some r), w) := by
  have hwaiting : runWaiting { w with results := [r] } =
      (.ok ⟨⟩, { w with results := [r] }) := by
    unfold runWaiting
    rw [get_bind_apply, modify_bind_apply, hw.tasks]
    show (Except.ok PUnit.unit, { w with results := [r], tasks := [] }) = _
    rw [← hw.tasks]
  unfold takeResult
  rw [bind_of_ok hwaiting, get_bind_apply]
  dsimp only
  rw [modify_bind_apply, ← hw.results]
  rfl

/-- `takeResult` takes the result of the one task that waits. -/
theorem takeResult_withTask (hw : AtRest w) (task : Task) :
    takeResult (withTask w task) =
      (.ok (some (0, outcome task w.toSite)), afterTask task w) := by
  have hrun := runTask_of_quiet hw.quiet task
  have hw' := hw.afterTask task
  have htasks : { withTask w task with tasks := [] } = w := by
    rw [← hw.tasks]
    rfl
  have hresults : ∀ results, { { afterTask task w with results := results }
      with results := [] } = afterTask task w := by
    intro results
    rw [← hw'.results]
  have hwaiting : runWaiting (withTask w task) =
      (.ok ⟨⟩,
        { afterTask task w with results := [(0, outcome task w.toSite)] }) := by
    unfold runWaiting
    rw [get_bind_apply, modify_bind_apply, htasks]
    show runTasks 0 [task] w = _
    unfold runTasks
    rw [bind_of_ok hrun, modify_bind_apply, hw'.results]
    rfl
  unfold takeResult
  rw [bind_of_ok hwaiting, get_bind_apply]
  dsimp only
  rw [modify_bind_apply, pure_apply, hresults]

def recount (w : World) (parts waits : Nat) : World :=
  { w with parts := parts, waits := waits }

theorem AtRest.recount (hw : AtRest w) (parts waits : Nat) :
    AtRest (recount w parts waits) :=
  ⟨⟨hw.tasks, hw.results, hw.inTime⟩, hw.quiet⟩

theorem afterTask_recount (task : Task) (w : World) (parts waits : Nat) :
    afterTask task (recount w parts waits) =
      recount (afterTask task w) parts waits := by
  unfold afterTask
  cases Command.ofName? task.command with
  | none => rfl
  | some c => rfl

theorem runBeside_atRest (hw : AtRest w) :
    runBeside w = (.ok ⟨⟩, recount w (w.parts + 1) w.waits) := by
  have hqueue : { w with tasks := [], parts := w.parts + 1 } =
      recount w (w.parts + 1) w.waits := by
    rw [← hw.tasks]
    rfl
  rw [runBeside_eq rfl, hw.tasks, drop_nil, take_nil, hqueue]
  rfl

/-- The one task of a line is run by `runBeside` or waits on. In both cases its
result is the one that is taken. -/
theorem takeInTime_withTask (hw : AtRest w) (task : Task) :
    ∃ w₁ parts waits, runBeside (withTask w task) = (.ok ⟨⟩, w₁) ∧
      w₁.quiet = true ∧
      takeInTime w₁ = (.ok (some (0, outcome task w.toSite)),
        recount (afterTask task w) parts waits) := by
  cases hn : (withTask w task).pace.beside (withTask w task).parts with
  | zero =>
    refine ⟨withTask (recount w (w.parts + 1) w.waits) task, w.parts + 1,
      w.waits + 1, ?_, hw.quiet, ?_⟩
    · rw [runBeside_eq hn]
      rfl
    · have hinTime :
          ∀ n, (withTask (recount w (w.parts + 1) w.waits) task).pace.late n =
          false := hw.inTime
      rw [takeInTime_eq hinTime, ← afterTask_recount]
      exact takeResult_withTask (hw.recount (w.parts + 1) (w.waits + 1)) task
  | succ n =>
    have hu := hw.recount (w.parts + 1) w.waits
    have hrun := runTask_of_quiet hu.quiet task
    rw [afterTask_recount] at hrun
    have hafter := (hw.afterTask task).recount (w.parts + 1) w.waits
    obtain ⟨w₁, hw₁⟩ : ∃ w₁,
        w₁ = { recount (afterTask task w) (w.parts + 1) w.waits with
        results := [(0, outcome task w.toSite)] } := ⟨_, rfl⟩
    have hinTime : ∀ n, w₁.pace.late n = false := by
      rw [hw₁]
      exact hafter.inTime
    refine ⟨w₁, w.parts + 1, w.waits + 1,
      ?_, by rw [hw₁]; exact hafter.quiet, ?_⟩
    · have hqueue : { withTask w task with tasks := [], parts := w.parts + 1 } =
          recount w (w.parts + 1) w.waits := by
        rw [← hw.tasks]
        rfl
      rw [runBeside_eq hn]
      show runTasks 0 (task :: [].take n) { withTask w task
        with tasks := [].drop n, parts := w.parts + 1 } = _
      rw [take_nil, drop_nil, hqueue]
      unfold runTasks
      rw [bind_of_ok hrun, modify_bind_apply, hafter.results, hw₁]
      rfl
    · rw [takeInTime_eq hinTime, hw₁]
      exact takeResult_of_result (hafter.recount (w.parts + 1) (w.waits + 1)) _

private theorem outcome_text (command : String) (h : Texts args)
    (site : Site) :
    ∃ text, outcome ⟨command, .record args⟩ site = .text text := by
  unfold outcome
  dsimp only
  split
  · next c _ =>
    split
    · next v hv => exact tells_run c h site v _ (Prod.ext hv rfl)
    · exact ⟨_, rfl⟩
  · exact ⟨_, rfl⟩

/-- The result of the one task of a line is shown in the same way by lines with
one command (`showOnly`) and by those with several. -/
theorem show_withTask (hw : AtRest w) (command : String) (h : Texts args) :
    ∃ text w₁ parts waits,
      outcome ⟨command, .record args⟩ w.toSite = .text text ∧
      runBeside (withTask w ⟨command, .record args⟩) = (.ok ⟨⟩, w₁) ∧
      w₁.quiet = true ∧
      showResults 1 w₁ = Act.printLine text
        (recount (afterTask ⟨command, .record args⟩ w) parts waits) ∧
      showOnly (withTask w ⟨command, .record args⟩) =
        Act.printLine text (afterTask ⟨command, .record args⟩ w) := by
  obtain ⟨text, htext⟩ := outcome_text command h w.toSite
  obtain ⟨w₁, parts, waits, hbeside, hquiet, htake⟩ :=
    takeInTime_withTask hw ⟨command, .record args⟩
  have honly := takeResult_withTask hw ⟨command, .record args⟩
  have hafter := (hw.afterTask ⟨command, .record args⟩).quiet
  rw [htext] at htake honly
  refine ⟨text, w₁, parts, waits, htext, hbeside, hquiet, ?_, ?_⟩
  · unfold showResults
    rw [bind_of_ok htake]
    have hrecount :
        (recount (afterTask ⟨command, .record args⟩ w) parts waits).quiet =
        true := hafter
    exact bind_of_ok (showText_of_quiet hrecount text (toString 0) true)
  · unfold showOnly
    rw [bind_of_ok honly]
    dsimp only
    rw [get_bind_apply, if_pos hafter]
    rfl

/-! ## The line before the workers -/

theorem splitOrBlanks_mt (line : String) :
    splitOrBlanks ("!mt " ++ line) = "!mt" :: splitOrBlanks line := by
  have hline :
      ("!mt " ++ line).toList = '!' :: 'm' :: 't' :: ' ' :: line.toList := by
    rw [String.toList_append]
    rfl
  have hsplit : splitFrom ("!mt " ++ line).toList .between [] =
      (splitFrom line.toList .between []).map (['!', 'm', 't'] :: ·) := by
    rw [hline]
    rfl
  have hblanks : words ("!mt " ++ line) = "!mt" :: words line := by
    unfold words wordsOf
    rw [hline]
    rfl
  unfold splitOrBlanks split
  rw [hsplit, hblanks]
  cases splitFrom line.toList .between [] with
  | error e => rfl
  | ok found => rfl

theorem remainder_mt (line : String) :
    remainder ("!mt " ++ line) "!mt".length = trim line := by
  unfold remainder trim
  rw [String.toList_append, String.toList_ofList]
  rfl

theorem not_toggles_mt (line : String) : ¬ Toggles ("!mt " ++ line) := by
  have ht : 't' ∈ (lower (trim ("!mt " ++ line))).toList := by
    refine mem_lower (by decide) (by rfl) (mem_trim (by decide) ?_)
    rw [String.toList_append]
    exact mem_append_left _ (by decide)
  have hwords : ∀ word ∈ quietLines ++ loudLines, 't' ∉ word.toList := by decide
  exact fun h => hwords _ h ht

theorem not_blank_mt (line : String) :
    ¬ ("!mt " ++ line).toList.all isBlank := by
  rw [String.toList_append]
  simp [isBlank]

private theorem expandedIn_of_no_aliases (h : w.aliases = [])
    (line : String) : expandedIn w line = line := by
  have honce : expandAliasOnce [] line = none := by
    unfold expandAliasOnce
    split
    · rfl
    · rfl
  have hdepth : ∀ n, expandAliasesAtMost [] n line = line := by
    intro n
    cases n with
    | zero => rfl
    | succ n => rw [expandAliasesAtMost, honce]
  unfold expandedIn expandAliases
  rw [h, hdepth, ite_self]

theorem post_of_no_aliases (h : w.aliases = [])
    (hblank : ¬ line.toList.all isBlank) :
    post line w = postExpanded line w :=
  post_of_expandedIn (expandedIn_of_no_aliases h line) hblank

theorem contains_of_not_toggles (h : ¬ Toggles line) :
    ¬ quietLines.contains (lower (trim line)) ∧
    ¬ loudLines.contains (lower (trim line)) := by
  unfold Toggles at h
  rwa [mem_append, not_or, ← contains_iff_mem, ← contains_iff_mem] at h

theorem postExpanded_of_no_words (h : ¬ Toggles line)
    (hwords : splitOrBlanks line = []) :
    postExpanded line = pure .nothing := by
  obtain ⟨hquiet, hloud⟩ := contains_of_not_toggles h
  unfold postExpanded
  dsimp only
  rw [if_neg hquiet, if_neg hloud, hwords]

theorem postExpanded_of_words (h : ¬ Toggles line)
    (hwords : splitOrBlanks line = command :: rest) :
    postExpanded line =
      if command == "!pwsh" then
        dispatchOther (remainder line command.length) >>= fun _ => pure .nothing
      else if command == "!cmd" then dispatchSystem
        (remainder line command.length) >>= fun _ => pure .nothing
      else if command == "!multithread" || command == "!mt" then
        postMany (remainder line command.length)
      else postOne line command (command :: rest) := by
  obtain ⟨hquiet, hloud⟩ := contains_of_not_toggles h
  unfold postExpanded
  dsimp only
  rw [if_neg hquiet, if_neg hloud, hwords]

/-- A line behind `!mt` is run by `postMany`. -/
theorem post_mt (h : w.aliases = []) (line : String) :
    post ("!mt " ++ line) w = postMany (trim line) w := by
  rw [post_of_no_aliases h (not_blank_mt line),
    postExpanded_of_words (not_toggles_mt line) (splitOrBlanks_mt line),
    if_neg (by decide), if_neg (by decide), if_pos (by decide), remainder_mt]

/-- Whether the first word of a line starts with the mark of the words that are
no commands. -/
def Marked (line : String) : Prop :=
  ∃ first, (splitOrBlanks line).head? = some first ∧
    first.toList.head? = some '!'

theorem not_marked_of_words (hwords : splitOrBlanks line = command :: rest)
    (hmark : command.toList.head? ≠ some '!') : ¬ Marked line := by
  rintro ⟨first, hfirst, hfirstMark⟩
  rw [hwords] at hfirst
  cases hfirst
  exact hmark hfirstMark

theorem head?_shellWord (h : shellWords.contains word) :
    word.toList.head? = some '!' := by
  have hall : ∀ word ∈ shellWords, word.toList.head? = some '!' := by decide
  exact hall word (contains_iff_mem.1 h)

theorem ne_of_not_mark (h : command.toList.head? ≠ some '!')
    (hword : word.toList.head? = some '!') : (command == word) = false := by
  rw [beq_eq_false_iff_ne]
  rintro rfl
  exact h hword

theorem not_toggles_of_not_marked (h : ¬ Marked (trim line)) :
    ¬ Toggles line := by
  intro ht
  have hlower : (lower (trim line)).toList.head? = some '!' := by
    have hall : ∀ word ∈ quietLines ++ loudLines, word.toList.head? =
        some '!' := by decide
    exact hall _ ht
  obtain ⟨first, rest, hwords, hfirst⟩ :=
    head?_splitOrBlanks (eq_of_head?_lower hlower) (by decide) (by decide)
      (by decide) (by decide)
  exact h ⟨first, by rw [hwords]; rfl, hfirst⟩

/-- A line that is not `Marked` is run by `postOne`. -/
theorem post_one (h : w.aliases = [])
    (hblank : ¬ line.toList.all isBlank) (htoggles : ¬ Toggles line)
    (hwords : splitOrBlanks line = command :: rest)
    (hmark : command.toList.head? ≠ some '!') :
    post line w = postOne line command (command :: rest) w := by
  rw [post_of_no_aliases h hblank, postExpanded_of_words htoggles hwords,
    ne_of_not_mark hmark (by decide), ne_of_not_mark hmark (by decide),
    ne_of_not_mark hmark (by decide), ne_of_not_mark hmark (by decide),
    if_neg (by decide), if_neg (by decide), if_neg (by decide)]

private theorem partsOf_trim (h : '&' ∉ line.toList)
    (hne : (trim line).isEmpty = false) :
    partsOf (trim line) = [trim line] := by
  have hamp : '&' ∉ (trim line).toList := by
    intro hm
    unfold trim at hm
    rw [String.toList_ofList] at hm
    obtain ⟨before, after, hline, -⟩ := trimBy_spec isBlank line.toList
    refine h ?_
    rw [hline]
    simp [hm]
  unfold partsOf pieces
  rw [splitAll_of_not_mem hamp, map_cons, map_nil, String.ofList_toList,
    map_cons, map_nil, trim_trim, filter_cons, hne]
  rfl

theorem postMany_of_part {w' : World} {n : Nat} (hamp : '&' ∉ line.toList)
    (hne : (trim line).isEmpty = false) (hmark : ¬ Marked (trim line))
    (hpart : dispatchPart none (trim line) w = (.ok n, w'))
    (hbeside : runBeside w' = (.ok ⟨⟩, w₁))
    (hquiet : w₁.quiet = true) :
    postMany (trim line) w = (.ok (.several n), w₁) := by
  have hshell :
      (splitOrBlanks (trim line)).head?.filter shellWords.contains = none := by
    rw [Option.filter_eq_none_iff]
    intro first hfirst hword
    exact hmark ⟨first, hfirst, head?_shellWord hword⟩
  have hparts : dispatchParts none [trim line] w = (.ok n, w₁) := by
    unfold dispatchParts
    rw [bind_of_ok hpart, bind_of_ok hbeside]
    rfl
  unfold postMany
  rw [hne, if_neg (by decide)]
  rw [hshell]
  dsimp only
  rw [partsOf_trim hamp hne]
  dsimp only
  rw [bind_of_ok hparts, bind_of_ok (logDebug_of_quiet hquiet _)]
  rfl

/-! ## Quotes -/

private theorem wasQuoted_trim (hne : (trim line).isEmpty = false)
    (word : String) :
    wasQuoted word (some (trim line)) = wasQuoted word (some line) := by
  have hline : line.isEmpty = false := by
    rw [String.isEmpty_eq_false_iff] at hne ⊢
    rintro rfl
    exact hne rfl
  have hfind : ∀ (c d : Char) (inner : List Char), isBlank c = false →
    isBlank d = false → ∀ pat : String,
      pat.toList = c :: (inner ++ [d]) →
      Text.contains (trim line) pat = Text.contains line pat := by
    intro c d inner hc hd pat hpat
    unfold Text.contains trim
    rw [String.toList_ofList, hpat]
    refine occursIn_trimBy _ (cons_ne_nil _ _) ?_ ?_
    · rintro e ⟨⟩
      exact hc
    · intro e he
      rw [← cons_append, getLast?_concat] at he
      cases he
      exact hd
  unfold wasQuoted
  dsimp only
  rw [hne, hline, hfind '"' '"' word.toList (by decide) (by decide) _ (by simp),
    hfind '\'' '\'' word.toList (by decide) (by decide) _ (by simp),
    hfind '$' '\x7d' ('\x7b' :: word.toList) (by decide)
      (by decide) _ (by simp)]

private theorem isLink_trim (hne : (trim line).isEmpty = false) :
    isLink (some (trim line)) = isLink (some line) := by
  funext word
  rw [isLink, isLink, wasQuoted_trim hne]

theorem runInner_trim (hne : (trim line).isEmpty = false)
    (parts : List String) :
    runInner parts (some (trim line)) = runInner parts (some line) := by
  unfold runInner
  rw [isLink_trim hne]

/-! ## Commands that the shell and the workers run alike -/

/-- A command that the shell and the workers run alike on a value: it is no
builtin, or it is one that does the same as the command of its name. The builtin
that lists a directory does so unless the value is not empty and expands to
nothing, which it takes for the name of a directory. -/
def Portable (command value : String) (env : Env) : Prop :=
  Builtin.ofName? command = none ∨ command = "echo" ∨ command = "pwd" ∨
    command = "ls" ∧ (expand env value = "" → value = "")

theorem pwdBuiltin_of_ok {v : Value} {site s : Site}
    (h : pwdCommand site = (.ok v, s)) : pwdBuiltin site = (.ok v, s) := by
  obtain ⟨p, t, hp, hv⟩ := ok_of_bind h
  obtain ⟨rfl, rfl⟩ := ok_of_pure hv
  have hmessage : orMessage "pwd failed: " Files.workingDir site = (.ok p, t) :=
    orElse_of_ok hp
  unfold pwdBuiltin
  rw [bind_of_ok hmessage]
  rfl

theorem lsBuiltin_eq {site : Site}
    (h : expand site.env value = "" → value = "") :
    lsBuiltin [("str", .text value)] site =
      lsCommand [("str", .text value)] site := by
  by_cases hempty : value = ""
  · subst hempty
    rfl
  · have htruthy : (Value.text value).isTruthy = true := isTruthy_text hempty
    have htruthy' : (Value.text (expand site.env value)).isTruthy = true :=
      isTruthy_text (mt h hempty)
    have hexpand : expandValue (.text value) site =
        (.ok (.text (expand site.env value)), site) := by
      simp only [expandValue, htruthy]
      rfl
    have hgiven : Args.givenOr [("str", .text value)] "str"
        (Args.getD [("str", .text value)] "path" (.text ".")) = .text value :=
      if_pos htruthy
    unfold lsBuiltin lsCommand
    rw [show textArg [("str", .text value)] = .text value from rfl,
      bind_of_ok hexpand, htruthy', if_pos rfl, hgiven]
    -- the builtin expands the value where its failures are caught, but this
    -- does not fail
    exact bind_of_eq (orElse_of_eq (bind_of_ok hexpand) _) _

section Run

variable {c : Command} {v : Value} {s : Site}
  (hc : Command.ofName? command = some c)
  (hrun : c.run args w.toSite = (.ok v, s))
include hc hrun

omit hc in
theorem runCommand_of_run : runCommand command c (.record args) w =
    (.ok v, { w with
      toSite := s, calls := w.calls ++ [⟨false, command, .record args⟩] }) := by
  show ((c.run args w.toSite).1,
    { w with toSite := (c.run args w.toSite).2, calls := _ }) = _
  rw [hrun]

theorem afterTask_of_run :
    ∃ calls, outcome ⟨command, .record args⟩ w.toSite = v ∧
      afterTask ⟨command, .record args⟩ w =
        { w with toSite := s, calls := calls } := by
  unfold outcome afterTask
  rw [hc]
  dsimp only
  rw [show c.call (.record args) w.toSite = (.ok v, s) from hrun]
  exact ⟨_, rfl, rfl⟩

theorem runNamed_of_run (hargs : args = [("str", .text value)])
    (hportable : Portable command value w.env) :
    ∃ calls, runNamed command args w =
      (.ok (some v), { w with toSite := s, calls := calls }) := by
  have hbuiltin : ∀ (b : Builtin) (job : Job Value),
    Builtin.ofName? command = some b → b.run args = liftM job →
      job w.toSite = (.ok v, s) →
      ∃ calls, runNamed command args w =
        (.ok (some v), { w with toSite := s, calls := calls }) := by
    intro b job hb hjob hsite
    have hcall : runBuiltin command b args w =
        (.ok v, { w with
          toSite := s,
          calls := w.calls ++ [⟨true, command, .record args⟩] }) := by
      show b.run args { w with
        calls := w.calls ++ [⟨true, command, .record args⟩] } = _
      rw [hjob, lift_apply]
      show ((job w.toSite).1,
        { w with toSite := (job w.toSite).2, calls := _ }) = _
      rw [hsite]
    rw [runNamed_of_some hb, bind_of_ok hcall]
    exact ⟨_, rfl⟩
  rcases hportable with hnone | rfl | rfl | ⟨rfl, hexpand⟩
  · rw [runNamed_of_command hnone hc, bind_of_ok (runCommand_of_run hrun)]
    exact ⟨_, rfl⟩
  · obtain rfl : Command.echo = c := Option.some.inj hc
    exact hbuiltin .echo (echoCommand args) rfl rfl hrun
  · obtain rfl : Command.pwd = c := Option.some.inj hc
    exact hbuiltin .pwd pwdBuiltin rfl rfl (pwdBuiltin_of_ok hrun)
  · obtain rfl : Command.ls = c := Option.some.inj hc
    subst hargs
    exact hbuiltin .ls (lsBuiltin _) rfl rfl ((lsBuiltin_eq hexpand).trans hrun)

end Run

/-! ## One command in two ways -/

theorem texts_expandArgs (env : Env) (h : Texts args) :
    Texts (expandArgs env args) := by
  intro arg harg
  obtain ⟨given, hgiven, rfl⟩ := mem_map.1 harg
  obtain ⟨s, hs⟩ := h given hgiven
  obtain ⟨name, v⟩ := given
  obtain rfl : v = .text s := hs
  exact ⟨_, rfl⟩

/-- Two runs with the same outcome that leave the same world behind, but for the
notes of what was run and for the counts of parts and waits. -/
def SameRun (x y : Except Fault Unit × World) : Prop :=
  x.1 = y.1 ∧ { x.2 with calls := [], parts := 0, waits := 0 } =
    { y.2 with calls := [], parts := 0, waits := 0 }

/-- What `dispatchPart` comes to is what `postOne` comes to on a line of its
own. -/
def Agrees (part line command : String) (words : List String)
    (w : World) : Prop :=
  ∃ n w' w₁ demand w₂, dispatchPart none part w = (.ok n, w') ∧
    runBeside w' = (.ok ⟨⟩, w₁) ∧ w₁.quiet = true ∧
    postOne line command words w = (.ok demand, w₂) ∧
    SameRun (showResults n w₁) (collectResults demand w₂)

theorem afterTask_unknown (h : Command.ofName? command = none) (w : World)
    (v : Value) :
    outcome ⟨command, v⟩ w.toSite = .text s!"Unbekanntes Kommando: {command}" ∧
    afterTask ⟨command, v⟩ w = w := by
  unfold outcome afterTask
  rw [h]
  exact ⟨rfl, rfl⟩

section Command

variable {part : String}

theorem postOne_of_some {text : String}
    (hcomposed : runComposed command (command :: rest) (some line) w =
      (.ok (some text), w₁)) (hquiet : w₁.quiet = true) :
    postOne line command (command :: rest) w =
      (.ok .nothing, { w₁ with out := w₁.out ++ (text ++ "\n") }) := by
  unfold postOne
  rw [bind_of_ok hcomposed]
  exact bind_of_ok (showText_of_quiet hquiet text "sync" true)

variable (hw₁ : AtRest w₁)
include hw₁

theorem postOne_of_none (hbuiltin : Builtin.ofName? command = none)
    (hcomposed : runComposed command (command :: rest) (some line) w =
      (.ok none, w₁)) :
    postOne line command (command :: rest) w =
      (.ok .single, withTask w₁ ⟨command,
        .record (expandArgs w₁.env (argsOf (command :: rest)))⟩) := by
  unfold postOne
  rw [bind_of_ok hcomposed]
  dsimp only
  rw [callBuiltin_of_none hbuiltin, pure_bind]
  unfold postTask noteTask
  dsimp only
  rw [get_bind_apply, bind_of_ok (logDebug_of_quiet hw₁.quiet _),
    bind_of_ok (addTask_atRest hw₁ _ _)]
  rfl

variable (hwords : splitOrBlanks part = command :: rest)
  (hmark : shellWords.contains command = false)
include hwords hmark

theorem dispatchPart_of_value
    (hinner : runInner (command :: rest) (some part) w =
      (.ok (some value), w₁)) :
    dispatchPart none part w =
      (.ok 1, withTask w₁ ⟨command, .record [("str", .text value)]⟩) := by
  unfold dispatchPart
  rw [hwords]
  dsimp only
  rw [hmark, if_neg (by decide), bind_of_ok hinner]
  dsimp only
  rw [noteTask, bind_of_ok (logDebug_of_quiet hw₁.quiet _),
    bind_of_ok (addTask_atRest hw₁ _ _)]
  rfl

theorem dispatchPart_of_none
    (hinner : runInner (command :: rest) (some part) w = (.ok none, w₁))
    (hbuiltin : Builtin.ofName? command = none) : dispatchPart none part w =
      (.ok 1, withTask w₁ ⟨command,
        .record (expandArgs w₁.env (argsOf (command :: rest)))⟩) := by
  unfold dispatchPart
  rw [hwords]
  dsimp only
  rw [hmark, if_neg (by decide), bind_of_ok hinner]
  dsimp only
  rw [callBuiltin_of_none hbuiltin, pure_bind]
  unfold noteTask
  dsimp only
  rw [get_bind_apply, bind_of_ok (logDebug_of_quiet hw₁.quiet _),
    bind_of_ok (addTask_atRest hw₁ _ _)]
  rfl

section Declined

variable (hinner : runInner (command :: rest) (some part) w = (.ok none, w₁))
  (hcomposed : runComposed command (command :: rest) (some line) w =
    (.ok none, w₁))
include hinner hcomposed

private theorem builtin_alike {b : Builtin}
    (hb : Builtin.ofName? command = some b) :
    ∃ w₂, AtRest w₂ ∧ dispatchPart none part w = (.ok 0, w₂) ∧
      postOne line command (command :: rest) w = (.ok .nothing, w₂) := by
  have hdirect : Direct True [command]
      (runBuiltin command b (argsOf (command :: rest))) :=
    direct_runBuiltin command b fun _ => texts_argsOf (command :: rest)
  obtain ⟨out, w₂, hrun⟩ := hdirect.sure_of trivial w₁
  have hw₂ : AtRest w₂ := by
    have h := hw₁.after hdirect
    rwa [hrun] at h
  have hcall : callBuiltin command (argsOf (command :: rest)) w₁ =
      (.ok (some out), w₂) := by
    rw [callBuiltin_of_some hb, bind_of_ok hrun]
    rfl
  unfold dispatchPart postOne
  rw [hwords]
  dsimp only
  rw [hmark, if_neg (by decide), bind_of_ok hinner, bind_of_ok hcomposed]
  dsimp only
  rw [bind_of_ok hcall, bind_of_ok hcall]
  dsimp only
  by_cases ht : out.isTruthy
  · obtain ⟨out', hshow⟩ := prints_showResult out "sync" false w₂
    rw [if_pos ht, if_pos ht, bind_of_ok hshow, bind_of_ok hshow]
    exact ⟨{ w₂ with out := out' },
      ⟨⟨hw₂.tasks, hw₂.results, hw₂.inTime⟩, hw₂.quiet⟩, rfl, rfl⟩
  · rw [if_neg ht, if_neg ht]
    exact ⟨w₂, hw₂, rfl, rfl⟩

/-- A command without a chain, or with one that is declined, is run in the same
way as a part of a line and as a line of its own (`Agrees`). -/
theorem plain_alike : Agrees part line command (command :: rest) w := by
  cases hb : Builtin.ofName? command with
  | some b =>
    obtain ⟨w₂, hw₂, hpart, hpost⟩ :=
      builtin_alike hw₁ hwords hmark hinner hcomposed hb
    exact ⟨0, w₂, _, .nothing, w₂, hpart, runBeside_atRest hw₂, hw₂.quiet,
      hpost, rfl, rfl⟩
  | none =>
    have htexts := texts_expandArgs w₁.env (texts_argsOf (command :: rest))
    obtain ⟨text, w₂, parts, waits, -, hbeside, hquiet, hseveral, honly⟩ :=
      show_withTask hw₁ command htexts
    refine ⟨1, _, w₂, .single, _, dispatchPart_of_none hw₁ hwords hmark hinner
      hb, hbeside, hquiet, postOne_of_none hw₁ hb hcomposed, ?_⟩
    show SameRun (showResults 1 _) (showOnly _)
    rw [hseveral, honly]
    exact ⟨rfl, rfl⟩

end Declined

/-- A chain with a value is worth the same to a worker and to the shell, if they
run the command alike (`Portable`). -/
theorem value_alike
    (hinner : runInner (command :: rest) (some part) w = (.ok (some value), w₁))
    (hcomposed : runComposed command (command :: rest) (some line) w =
      (runOrDecline command [("str", .text value)] >>=
        fun r => pure (r.map Value.display)) w₁)
    (hportable : Portable command value w₁.env)
    (hruns : ∀ c, Command.ofName? command = some c →
      ∃ v s, c.run [("str", .text value)] w₁.toSite = (.ok v, s)) :
    Agrees part line command (command :: rest) w := by
  have htexts : Texts [("str", .text value)] := by
    intro arg harg
    rw [mem_singleton.1 harg]
    exact ⟨value, rfl⟩
  have hpart := dispatchPart_of_value hw₁ hwords hmark hinner
  obtain ⟨text, w₂, parts, waits, htext, hbeside, hquiet, hseveral, -⟩ :=
    show_withTask hw₁ command htexts
  cases hc : Command.ofName? command with
  | some c =>
    obtain ⟨v, s, hv⟩ := hruns c hc
    obtain ⟨calls, houtcome, hafter⟩ := afterTask_of_run hc hv
    obtain ⟨calls', hnamed⟩ := runNamed_of_run hc hv rfl hportable
    -- the worker's result is that of the command, and so is the shell's
    obtain rfl : Value.text text = v := htext.symm.trans houtcome
    have hshown : runComposed command (command :: rest) (some line) w =
        (.ok (some text), { w₁ with toSite := s, calls := calls' }) := by
      rw [hcomposed, bind_of_ok (runOrDecline_of_ok hnamed)]
      rfl
    refine ⟨1, _, w₂, _, _, hpart, hbeside, hquiet,
      postOne_of_some hshown hw₁.quiet, ?_⟩
    rw [hseveral, hafter]
    exact ⟨rfl, rfl⟩
  | none =>
    have hbuiltin : Builtin.ofName? command = none := by
      rcases hportable with hnone | rfl | rfl | ⟨rfl, -⟩
      · exact hnone
      · cases hc
      · cases hc
      · cases hc
    have hunknown : isKnown command = false := by
      rw [isKnown_eq, hc, hbuiltin]; rfl
    rw [bind_of_ok (runOrDecline_unknown hunknown _ _)] at hcomposed
    -- the words of the line are given to the worker instead, which does not
    -- look at them
    have htexts' := texts_expandArgs w₁.env (texts_argsOf (command :: rest))
    obtain ⟨text', -, -, -, htext', -, -, -, honly⟩ :=
      show_withTask hw₁ command htexts'
    obtain ⟨houtcome, hafter⟩ :=
      afterTask_unknown hc w₁ (.record [("str", .text value)])
    obtain ⟨houtcome', hafter'⟩ :=
      afterTask_unknown hc w₁
        (.record (expandArgs w₁.env (argsOf (command :: rest))))
    obtain rfl : text = text' := by
      rw [houtcome] at htext
      rw [houtcome'] at htext'
      exact Value.text.inj (htext.symm.trans htext')
    refine ⟨1, _, w₂, _, _, hpart, hbeside, hquiet,
      postOne_of_none hw₁ hbuiltin hcomposed, ?_⟩
    show SameRun (showResults 1 _) (showOnly _)
    rw [hseveral, honly, hafter, hafter']
    exact ⟨rfl, rfl⟩

end Command

/-! ## Lines -/

/-- What makes a line with one command come to the same at the workers. -/
structure Delegable (line : String) (w : World) : Prop where
  /-- No ampersand splits the line, in quotes or not. -/
  single : '&' ∉ line.toList
  unmarked : ¬ Marked line
  /-- Blanks around the line do not belong to its words. -/
  trimmed : splitOrBlanks (trim line) = splitOrBlanks line
  /-- If any positional word may start a chain, the word right after the command
  does. -/
  first : ∀ word ∈ positionals (splitOrBlanks line),
    isLink (some line) word = true →
    ∃ link, (splitOrBlanks line)[1]? = some link ∧
      isLink (some line) link = true
  /-- A command that is given the value of a chain is run alike by the shell and
  by the workers. -/
  portable : ∀ command value w', (splitOrBlanks line).head? = some command →
    runInner (splitOrBlanks line) (some line) w = (.ok (some value), w') →
    Portable command value w'.env ∧
      ∀ c, Command.ofName? command = some c →
        ∃ v s, c.run [("str", .text value)] w'.toSite = (.ok v, s)

/-- A part of a line and the line itself agree on every command of a `Delegable`
line. -/
theorem agrees_of_delegable (hw : AtRest w) (h : Delegable line w)
    (hne : (trim line).isEmpty = false)
    (hwords : splitOrBlanks line = command :: rest)
    (hmark : command.toList.head? ≠ some '!') :
    Agrees (trim line) line command (command :: rest) w := by
  have hpart : splitOrBlanks (trim line) = command :: rest :=
    h.trimmed.trans hwords
  have hshell : shellWords.contains command = false := by
    rw [← Bool.not_eq_true]
    intro hword
    exact hmark (head?_shellWord hword)
  by_cases hfree : ∀ word ∈ positionals (command :: rest),
    isLink (some line) word = false
  · obtain ⟨hlocate, hnames⟩ := no_chain hfree
    have hinner := runInner_of_no_names hnames w
    rw [← runInner_trim hne] at hinner
    refine plain_alike hw hpart hshell hinner ?_
    unfold runComposed
    rw [hlocate]
    rfl
  · -- some word starts a chain, so the one after the command does
    obtain ⟨link, hlink, hstarts⟩ : ∃ link, (command :: rest)[1]? = some link ∧
        isLink (some line) link = true := by
      rw [← hwords]
      refine Classical.byContradiction fun hnone => hfree fun word hword => ?_
      rw [← Bool.not_eq_true]
      intro hstarts
      exact hnone (h.first word (hwords ▸ hword) hstarts)
    cases rest with
    | nil => cases hlink
    | cons next rest =>
      obtain rfl : next = link := by simpa using hlink
      obtain ⟨c, hlocate, hinner, hsubstitute⟩ :=
        same_chain hstarts command rest
      have hchain : Direct True c.chain.reverse (runChain c.chain c.words) :=
        direct_runChain (locate?_eq_some hlocate).1
      obtain ⟨result, w₁, hrun⟩ := hchain.sure_of trivial w
      have hw₁ : AtRest w₁ := by
        have hrest := hw.after hchain
        rwa [hrun] at hrest
      have hinner : runInner (command :: next :: rest) (some (trim line)) w =
          (.ok (result.map Value.display), w₁) := by
        rw [runInner_trim hne, hinner, bind_of_ok hrun]
        rfl
      cases result with
      | none =>
        refine plain_alike hw₁ hpart hshell hinner ?_
        unfold runComposed
        rw [hlocate]
        dsimp only
        rw [bind_of_ok hrun]
        rfl
      | some v =>
        have hportable := h.portable command v.display w₁ (by rw [hwords]; rfl)
          (by rw [hwords, ← runInner_trim hne]; exact hinner)
        refine value_alike hw₁ hpart hshell hinner ?_ hportable.1 hportable.2
        unfold runComposed
        rw [hlocate]
        dsimp only
        rw [bind_of_ok hrun]
        dsimp only
        rw [hsubstitute]
        rfl

theorem SameRun.strayed {x y : Except Fault Unit × World} (h : SameRun x y) :
    x.2.strayed = y.2.strayed := by
  have hsite := congrArg World.toSite h.2
  exact congrArg Site.strayed hsite

/-- A `Delegable` line comes to the same behind `!mt`. -/
theorem sameRun_of_delegable (hw : AtRest w)
    (haliases : w.aliases = []) (h : Delegable line w) :
    SameRun (dispatch ("!mt " ++ line) w) (dispatch line w) := by
  have hmany : ∀ demand w', postMany (trim line) w = (.ok demand, w') →
      dispatch ("!mt " ++ line) w = collectResults demand w' := by
    intro demand w' hpost
    rw [← post_mt haliases] at hpost
    exact bind_of_ok hpost
  cases hblank : line.toList.all isBlank with
  | true =>
    -- a blank line does nothing in either way
    have hpost : postMany (trim line) w = (.ok .nothing, w) := by
      unfold postMany
      rw [isEmpty_trim, hblank, if_pos rfl,
        bind_of_ok (logDebug_of_quiet hw.quiet _)]
      rfl
    have hone : post line w = (.ok .nothing, w) := by
      unfold post
      rw [if_pos hblank]
      rfl
    rw [hmany _ _ hpost, dispatch, bind_of_ok hone]
    exact ⟨rfl, rfl⟩
  | false =>
    have hne : (trim line).isEmpty = false := (isEmpty_trim line).trans hblank
    have hmarked : ¬ Marked (trim line) := by
      unfold Marked
      rw [h.trimmed]
      exact h.unmarked
    have htoggles := not_toggles_of_not_marked hmarked
    have hnot : ¬ line.toList.all isBlank := by
      rw [hblank]; exact Bool.false_ne_true
    cases hwords : splitOrBlanks line with
    | nil =>
      have hpart : dispatchPart none (trim line) w = (.ok 0, w) := by
        unfold dispatchPart
        rw [h.trimmed, hwords]
        rfl
      have hone : post line w = (.ok .nothing, w) := by
        rw [post_of_no_aliases haliases hnot,
          postExpanded_of_no_words htoggles hwords]
        rfl
      rw [hmany _ _ (postMany_of_part h.single hne hmarked hpart
        (runBeside_atRest hw) hw.quiet), dispatch, bind_of_ok hone]
      exact ⟨rfl, rfl⟩
    | cons command rest =>
      have hmark : command.toList.head? ≠ some '!' := by
        intro hhead
        exact h.unmarked ⟨command, by rw [hwords]; rfl, hhead⟩
      obtain ⟨n, w', w₁, demand, w₂, hpart, hbeside, hquiet, hpost, hsame⟩ :=
        agrees_of_delegable hw h hne hwords hmark
      have hone : post line w = (.ok demand, w₂) := by
        rw [post_one haliases hnot htoggles hwords hmark, hpost]
      rw [hmany _ _ (postMany_of_part h.single hne hmarked hpart hbeside
        hquiet), dispatch, bind_of_ok hone]
      exact hsame

/-- **Delegation.** After any lines, with no aliases and debug messages held
back, a line with one command does the same behind `!mt`: it has the same
outcome, prints the same and leaves the same files, environment, aliases and
directory, whether the worker has run its task beside the shell or not. This
needs that the line has no ampersand, that its first word has no mark, that
blanks around it are not part of its words, that a chain comes right after the
command, and that the value of a chain goes to a command that the shell and the
workers run alike and that does not fail on it. It also needs that no result is
late, since only behind `!mt` a wait has a time limit, and that no command gives
a text with half a surrogate pair, which cannot be printed; behind `!mt` none
does so either then. -/
theorem delegated_same {start w : World} (hstart : Drained start)
    (earlier : List String)
    (hbetween : w = (runLines earlier start).2) (haliases : w.aliases = [])
    (hquiet : w.quiet = true) {line : String}
    (h : Delegable line w) (hstrayed : (dispatch line w).2.strayed = false) :
    SameRun (dispatch ("!mt " ++ line) w) (dispatch line w) ∧
    (dispatch ("!mt " ++ line) w).2.strayed = false := by
  have hw : AtRest w := ⟨hbetween ▸ runLines_drained earlier hstart, hquiet⟩
  have hsame := sameRun_of_delegable hw haliases h
  exact ⟨hsame, hsame.strayed.trans hstrayed⟩

/-- The value of a chain goes to a builtin, which a worker runs as a command;
there is a blank behind the line. -/
theorem delegated_same_echo :
    Delegable "echo upper hi " (runLines ["!suppressdebug"] default).2 ∧
      SameRun (dispatch ("!mt " ++ "echo upper hi ")
        (runLines ["!suppressdebug"] default).2)
        (dispatch "echo upper hi "
          (runLines ["!suppressdebug"] default).2) := by
  have hwords : splitOrBlanks "echo upper hi " = ["echo", "upper", "hi"] := by
    decide +kernel
  have hunmarked := not_marked_of_words hwords (by decide)
  have htrimmed : splitOrBlanks (trim "echo upper hi ") =
      splitOrBlanks "echo upper hi " := by decide +kernel
  have h :
      Delegable "echo upper hi " (runLines ["!suppressdebug"] default).2 := by
    refine ⟨by decide +kernel, hunmarked, htrimmed, ?_, ?_⟩
    · rw [hwords]
      exact fun _ _ _ => ⟨"upper", rfl, by decide +kernel⟩
    · intro command value w' hcommand _
      rw [hwords] at hcommand
      cases hcommand
      refine ⟨.inr (.inl rfl), ?_⟩
      rintro c ⟨⟩
      exact sure_expandValue ⟨value, rfl⟩ w'.toSite
  have hstrayed : (dispatch "echo upper hi "
      (runLines ["!suppressdebug"] default).2).2.strayed = false := by
    obtain ⟨out, hw⟩ : ∃ out, (runLines ["!suppressdebug"] default).2 =
        { (default : World) with quiet := true, out := out } :=
      ⟨_, rfl⟩
    obtain ⟨w₁, hcomposed, hsite, hquiet⟩ : ∃ w₁,
      runComposed "echo" ["echo", "upper", "hi"] (some "echo upper hi ")
        (runLines ["!suppressdebug"] default).2 = (.ok (some "HI"), w₁) ∧
        w₁.strayed = false ∧ w₁.quiet = true := by
      rw [hw]
      exact ⟨_, rfl, rfl, rfl⟩
    have htoggles : ¬ Toggles "echo upper hi " := by
      refine not_toggles_of_not_marked ?_
      unfold Marked
      rw [htrimmed]
      exact hunmarked
    have hpost := post_one (w := (runLines ["!suppressdebug"] default).2) rfl
      (by decide +kernel) htoggles hwords (by decide)
    rw [postOne_of_some hcomposed hquiet] at hpost
    rw [dispatch, bind_of_ok hpost]
    exact hsite
  have hstart : Drained (default : World) := ⟨rfl, rfl, fun _ => rfl⟩
  exact ⟨h, (delegated_same hstart ["!suppressdebug"] rfl rfl rfl h hstrayed).1⟩

/-- A chain that does not come right after the command is seen by the shell
only. -/
theorem delegated_differs_later :
    ∃ w : World, Drained w ∧ w.aliases = [] ∧ w.quiet = true ∧
    (dispatch "echo foo reverse ab" w).2.out = "foo ba\n" ∧
      (dispatch ("!mt " ++ "echo foo reverse ab") w).2.out =
        "foo reverse ab\n" := by
  have hwords : splitOrBlanks "echo foo reverse ab" =
      ["echo", "foo", "reverse", "ab"] := by decide +kernel
  have htrim : trim "echo foo reverse ab" = "echo foo reverse ab" := by
    decide +kernel
  have hmarked := not_marked_of_words ((congrArg _ htrim).trans hwords)
    (by decide)
  have hblank : ¬ "echo foo reverse ab".toList.all isBlank := by decide +kernel
  obtain ⟨w, hw⟩ : ∃ w : World,
    w = { (default : World) with quiet := true } := ⟨_, rfl⟩
  have haliases : w.aliases = [] := by rw [hw]; rfl
  refine ⟨w, by rw [hw]; exact ⟨rfl, rfl, fun _ => rfl⟩,
    haliases, by rw [hw], ?_, ?_⟩
  · obtain ⟨w₁, hcomposed, hout, hquiet⟩ : ∃ w₁,
      runComposed "echo" ["echo", "foo", "reverse", "ab"]
        (some "echo foo reverse ab") w = (.ok (some "foo ba"), w₁) ∧
        w₁.out = "" ∧ w₁.quiet = true := by
      rw [hw]
      exact ⟨_, rfl, rfl, rfl⟩
    have hpost := post_one haliases hblank (not_toggles_of_not_marked hmarked)
      hwords (by decide)
    rw [postOne_of_some hcomposed hquiet] at hpost
    rw [dispatch, bind_of_ok hpost]
    show w₁.out ++ ("foo ba" ++ "\n") = "foo ba\n"
    rw [hout]
    decide
  · obtain ⟨w₁, hpart, hout, hrest⟩ : ∃ w₁,
      dispatchPart none "echo foo reverse ab" w = (.ok 0, w₁) ∧
        w₁.out = "foo reverse ab\n" ∧ AtRest w₁ := by
      rw [hw]
      exact ⟨_, rfl, rfl, ⟨⟨rfl, rfl, fun _ => rfl⟩, rfl⟩⟩
    rw [← htrim] at hpart
    have hpost := postMany_of_part (by decide +kernel) (by decide +kernel)
      hmarked hpart (runBeside_atRest hrest) hrest.quiet
    rw [← post_mt haliases] at hpost
    rw [dispatch, bind_of_ok hpost]
    exact hout

end TaskShell.Shell

import TaskShell.Proofs.Posting
import TaskShell.Proofs.Splitting

/-!
# Lines that fail

A line of input runs commands, builtins and programs that may fail in many ways,
and yet the line itself hardly ever does: chains are tried, tasks hand their
failure on as a result, and programs that cannot be started are reported. That
posting does not fail is part of `Posts`; fetching the results does not fail
either.

What is left is the one word that asks for the system's shell, which cannot be
run. A line that starts with it fails unless nothing follows (`AsksSystem`), and
no other line fails.
-/

namespace TaskShell.Shell

open Act Text Words List

variable {line : String}

/-! ## Results -/

theorem sure_runTasks (worker : Nat) (tasks : List Task) :
    Sure (runTasks worker tasks) := by
  intro w
  obtain ⟨w', hrun, -⟩ := runTasks_results worker tasks w
  exact ⟨⟨⟩, w', hrun⟩

theorem sure_runBeside : Sure runBeside := by
  intro w
  obtain ⟨w', hrun, -⟩ := runBeside_pending w
  exact ⟨⟨⟩, w', hrun⟩

theorem sure_takeResult : Sure takeResult := by
  refine Sure.bind ?_ fun _ => sure_get_bind fun w => ?_
  · exact sure_get_bind fun w => (sure_modify _).bind fun _ => sure_runTasks 0 _
  · split
    · exact sure_pure none
    · exact (sure_modify _).bind fun _ => sure_pure _

private theorem sure_takeInTime : Sure takeInTime := by
  refine sure_get_bind fun w => (sure_modify _).bind fun _ => ?_
  split
  · exact sure_pure none
  · exact sure_takeResult

private theorem sure_showResults (n : Nat) : Sure (showResults n) := by
  induction n with
  | zero => exact sure_pure _
  | succ n ih =>
    refine sure_takeInTime.bind fun result => ?_
    cases result with
    | none => exact (prints_logDebug _).sure.bind fun _ => ih
    | some r => exact (prints_showResult _ _ _).sure.bind fun _ => ih

theorem sure_collectResults (demand : Demand) :
    Sure (collectResults demand) := by
  cases demand with
  | nothing => exact sure_pure _
  | several n => exact sure_showResults n
  | single =>
    refine sure_takeResult.bind fun result => ?_
    cases result with
    | none => exact (prints_log _).sure
    | some r =>
      refine sure_get_bind fun w => ?_
      split
      · exact (prints_printLine _).sure
      · exact (prints_log _).sure.bind fun _ => (prints_log _).sure

/-! ## The word that asks for the system's shell -/

/-- The `systemWord` has a letter in it that no word for the switch has. -/
theorem mem_of_head?_systemWord
    (h : (splitOrBlanks line).head? = some systemWord) : 'c' ∈ line.toList :=
  mem_of_mem_splitOrBlanks (mem_of_mem_head? h) (by decide)

theorem not_blank_of_head?_systemWord
    (h : (splitOrBlanks line).head? = some systemWord) :
    ¬ line.toList.all isBlank := by
  intro hblank
  have hc := all_eq_true.1 hblank 'c' (mem_of_head?_systemWord h)
  revert hc
  decide

theorem not_toggles_of_head?_systemWord
    (h : (splitOrBlanks line).head? = some systemWord) : ¬ Toggles line := by
  have hc : 'c' ∈ (lower (trim line)).toList :=
    mem_lower (by decide) (by rfl)
      (mem_trim (by decide) (mem_of_head?_systemWord h))
  have hwords : ∀ word ∈ quietLines ++ loudLines, 'c' ∉ word.toList := by decide
  exact fun ht => hwords _ ht hc


/-! ## Lines -/

/-- What `Posts` never fails, if it is said to be sure. -/
theorem Posts.sure_of {α : Type} {sure : Prop} {own posted : List String}
    {before : Nat} {count : α → Nat} {act : Act α}
    (h : Posts sure own posted before count act) (hs : sure) : Sure act := by
  induction h with
  | pure _ => exact sure_pure _
  | direct _ h => exact h.sure_of hs
  | addTask _ command args => exact sure_modify _
  | beside _ => exact sure_runBeside
  | bind _ _ ihx ihf => exact ihx.bind ihf
  | read _ _ ih => exact sure_get_bind ih

def systemFault : Fault := .missingOperation "modules.shell_executor" "run_cmd"

/-- A line that does not ask for the system's shell (`AsksSystem`) never
fails. -/
theorem sure_postExpanded (h : ¬ AsksSystem line) :
    Sure (postExpanded line) := by
  by_cases ht : Toggles line
  · obtain ⟨quiet, hline⟩ := postExpanded_of_toggles ht
    rw [hline]
    exact (sure_modify _).bind fun _ =>
      (prints_printLine _).sure.bind fun _ => sure_pure _
  · exact (posts_postExpanded ht).sure_of h

theorem postExpanded_of_asksSystem (h : AsksSystem line) (w : World) :
    postExpanded line w = (.error systemFault, w) := by
  obtain ⟨hhead, hrest⟩ := h
  have htoggle := not_toggles_of_head?_systemWord hhead
  unfold Toggles at htoggle
  rw [mem_append, not_or] at htoggle
  obtain ⟨rest, hwords⟩ : ∃ rest, splitOrBlanks line = systemWord :: rest := by
    cases hs : splitOrBlanks line with
    | nil => simp [hs] at hhead
    | cons command rest =>
      rw [hs] at hhead
      exact ⟨rest, by rw [Option.some.inj hhead]⟩
  have hne : (remainder line systemWord.length).isEmpty = false := by
    simpa using hrest
  unfold postExpanded dispatchSystem
  dsimp only
  rw [if_neg (by rw [contains_iff_mem]; exact htoggle.1),
    if_neg (by rw [contains_iff_mem]; exact htoggle.2), hwords]
  dsimp only
  rw [if_neg (by decide), if_pos (by decide), hne]
  rfl

private theorem expandedIn_of_blank (w : World) (h : line.toList.all isBlank) :
    expandedIn w line = line := by
  unfold expandedIn expandAliases
  rw [if_pos h]

/-- **The outcome of a line.** It fails with the `systemFault` if it
`AsksSystem` once its aliases are expanded, and else it does not fail. -/
theorem dispatch_outcome (line : String) (w : World) :
    ∃ w', (AsksSystem (expandedIn w line) ∧
      dispatch line w = (.error systemFault, w')) ∨
      (¬ AsksSystem (expandedIn w line) ∧ dispatch line w = (.ok ⟨⟩, w')) := by
  by_cases hblank : line.toList.all isBlank
  · refine ⟨w, .inr ⟨?_, ?_⟩⟩
    · rw [expandedIn_of_blank w hblank]
      exact fun h => not_blank_of_head?_systemWord h.1 hblank
    · unfold dispatch post
      rw [if_pos hblank]
      rfl
  · obtain ⟨out, htell⟩ := prints_tellExpansion w line w
    have hpost : post line w =
        postExpanded (expandedIn w line) { w with out := out } := by
      rw [post_eq line hblank, get_bind_apply, bind_of_ok htell]
    by_cases hasks : AsksSystem (expandedIn w line)
    · refine ⟨{ w with out := out }, .inl ⟨hasks, ?_⟩⟩
      rw [postExpanded_of_asksSystem hasks] at hpost
      exact bind_of_error hpost
    · obtain ⟨demand, t, ht⟩ := sure_postExpanded hasks { w with out := out }
      rw [ht] at hpost
      obtain ⟨⟨⟩, w', hw'⟩ := sure_collectResults demand t
      refine ⟨w', .inr ⟨hasks, ?_⟩⟩
      show (post line >>= collectResults) w = (.ok ⟨⟩, w')
      rw [bind_of_ok hpost, hw']

end TaskShell.Shell

import TaskShell.Proofs.Discretion
import TaskShell.Proofs.Failure

/-!
# Queues between lines

A line posts tasks and asks for as many results. Since the worker leaves one
result for each task, nothing is left in the queues when the line ends, unless
the line has given up waiting: between two lines neither tasks nor results wait.
-/

namespace TaskShell.Shell

open Act Text List

variable {w : World}

/-- Neither tasks nor results wait, and no result will be late. -/
structure Drained (w : World) : Prop where
  tasks : w.tasks = []
  results : w.results = []
  inTime : ∀ n, w.pace.late n = false

theorem drained_of_pending (h : pending w = 0)
    (hpace : ∀ n, w.pace.late n = false) : Drained w where
  tasks := length_eq_zero_iff.1 (by unfold pending at h; omega)
  results := length_eq_zero_iff.1 (by unfold pending at h; omega)
  inTime := hpace

theorem Drained.pending (h : Drained w) : Shell.pending w = 0 := by
  rw [Shell.pending, h.tasks, h.results]
  rfl

theorem pending_of_prints {act : Act Unit} (h : Prints act) (w : World) :
    pending (act w).2 = pending w := by
  obtain ⟨out, hw⟩ := h w
  rw [hw]
  rfl

theorem runWaiting_results (w : World) :
    ∃ w', runWaiting w = (.ok ⟨⟩, w') ∧ w'.tasks = [] ∧
    w'.results.length = pending w ∧ w'.pace = w.pace := by
  obtain ⟨w', hrun, htasks, hresults, hpace⟩ :=
    runTasks_results 0 w.tasks { w with tasks := [] }
  refine ⟨w', ?_, htasks, ?_, hpace⟩
  · unfold runWaiting
    rw [get_bind_apply, modify_bind_apply, hrun]
  · rw [hresults, pending, Nat.add_comm]

/-- If anything is `pending`, a result is taken, and there is one less then. -/
theorem takeResult_takes {n : Nat} (h : pending w = n + 1) :
    ∃ r w', takeResult w = (.ok (some r), w') ∧ pending w' = n ∧
      w'.pace = w.pace := by
  obtain ⟨w₁, hrun, htasks, hresults, hpace⟩ := runWaiting_results w
  rw [h] at hresults
  obtain ⟨r, rest, hcons⟩ := exists_cons_of_length_eq_add_one hresults
  refine ⟨r, { w₁ with results := rest }, ?_, ?_, hpace⟩
  · unfold takeResult
    rw [bind_of_ok hrun, get_bind_apply, hcons]
    rfl
  · rw [hcons, length_cons] at hresults
    rw [pending, htasks, length_nil]
    dsimp only
    omega

/-- `takeInTime` takes a result that is not late as if there were no time
limit. -/
theorem takeInTime_eq (h : ∀ n, w.pace.late n = false) :
    takeInTime w = takeResult { w with waits := w.waits + 1 } := by
  unfold takeInTime
  rw [get_bind_apply, modify_bind_apply, h, Bool.and_false,
    if_neg Bool.false_ne_true]

theorem showResults_drains (n : Nat) :
    ∀ w : World, pending w = n → (∀ n, w.pace.late n = false) →
    Drained (showResults n w).2 := by
  induction n with
  | zero => exact fun w h hpace => drained_of_pending h hpace
  | succ n ih =>
    intro w h hpace
    obtain ⟨r, w₁, htake, hleft, hsame⟩ :=
      takeResult_takes (w := { w with waits := w.waits + 1 }) h
    rw [← takeInTime_eq hpace] at htake
    obtain ⟨out, hshow⟩ := prints_showResult r.2 (toString r.1) true w₁
    unfold showResults
    rw [bind_of_ok htake]
    dsimp only
    rw [bind_of_ok hshow]
    refine ih _ hleft ?_
    rw [← hsame] at hpace
    exact hpace

private theorem showOnly_drains (h : pending w = 1)
    (hpace : ∀ n, w.pace.late n = false) :
    Drained (showOnly w).2 := by
  obtain ⟨r, w₁, htake, hleft, hsame⟩ := takeResult_takes h
  have hprints :
      Prints (get >>= fun w => if w.quiet then Act.printLine r.2.display else do
      log s!"{workerTag (toString r.1)} Ergebnis:"
      log r.2.display) := by
    refine prints_get_bind fun w => ?_
    split
    · exact prints_printLine _
    · exact (prints_log _).bind (prints_log _)
  unfold showOnly
  rw [bind_of_ok htake]
  refine drained_of_pending ?_ ?_
  · exact (pending_of_prints hprints w₁).trans hleft
  · have hpace' : ∀ n, w₁.pace.late n = false := by rwa [hsame]
    rwa [← hprints.plain.pace w₁] at hpace'

theorem collectResults_drains {demand : Demand} (h : pending w = demand.count)
    (hpace : ∀ n, w.pace.late n = false) :
    Drained (collectResults demand w).2 := by
  cases demand with
  | nothing => exact drained_of_pending h hpace
  | several n => exact showResults_drains n w h hpace
  | single => exact showOnly_drains h hpace

private theorem drained_of_post_error {line : String} {w' : World} {f : Fault}
    (hw : Drained w) (h : post line w = (.error f, w')) : Drained w' := by
  have hblank : ¬ line.toList.all isBlank := by
    intro hblank
    unfold post at h
    rw [if_pos hblank] at h
    cases h
  obtain ⟨out, htell⟩ := prints_tellExpansion w line w
  have hpost :
      post line w = postExpanded (expandedIn w line) { w with out := out } := by
    rw [post_eq line hblank, get_bind_apply, bind_of_ok htell]
  have hasks : AsksSystem (expandedIn w line) := by
    refine Classical.byContradiction fun hnot => ?_
    obtain ⟨demand, t, ht⟩ := sure_postExpanded hnot { w with out := out }
    rw [hpost, ht] at h
    cases h
  rw [hpost, postExpanded_of_asksSystem hasks] at h
  cases h
  exact ⟨hw.tasks, hw.results, hw.inTime⟩

/-- **A line leaves the world `Drained` if it finds it so**, whatever it
does. -/
theorem dispatch_drained (line : String) (hw : Drained w) :
    Drained (dispatch line w).2 := by
  obtain ⟨hpace, hcount⟩ := post_adds line w
  rcases bind_cases (post line) collectResults w
    with ⟨demand, w₁, hpost, hrun⟩ | ⟨f, w₁, hpost, hrun⟩
  · show Drained ((post line >>= collectResults) w).2
    rw [hpost] at hpace hcount
    rw [hrun]
    have hnew := hcount demand rfl
    rw [hw.pending, Nat.add_zero, Nat.zero_add] at hnew
    refine collectResults_drains hnew ?_
    rw [hpace]
    exact hw.inTime
  · show Drained ((post line >>= collectResults) w).2
    rw [hrun]
    exact drained_of_post_error hw hpost

theorem runLines_drained (lines : List String) :
    ∀ {w : World}, Drained w → Drained (runLines lines w).2 := by
  induction lines with
  | nil => exact fun hw => hw
  | cons line rest ih => exact fun hw => ih (dispatch_drained line hw)

end TaskShell.Shell

import Mathlib
import TaskShell.App.Session
import TaskShell.Proofs.Delegation

/-!
# Scripts and conversations that break off

A line fails only if it asks for the system's shell, so a script breaks off
exactly where such a line is reached (`ReachesSystem`). A conversation has a
second way: each prompt names the working directory, and nothing is done about
one that has been removed. A line that removes it does not fail itself, but the
next prompt does (`BreaksOff`).
-/

namespace TaskShell.Shell

open Act Text Words

variable {w w₁ : World} {entry : App.Entry}

def Fails {α : Type} (act : Act α) (w : World) : Prop :=
  ∃ f, (act w).1 = .error f

/-! ## Scripts -/

/-- Whether a run of lines gets to one that `AsksSystem` when its turn comes. -/
def ReachesSystem (run : List String → Act Unit) (lines : List String)
    (w : World) : Prop :=
  ∃ before line after w', lines = before ++ line :: after ∧
    run before w = (.ok ⟨⟩, w') ∧ AsksSystem (expandedIn w' line)

/-- Lines that are run one after the other, each after something that only
prints, fail if and only if one of them is reached that `AsksSystem`. -/
theorem fails_iff_reachesSystem {run : List String → Act Unit}
    {tell : String → Act Unit} (htell : ∀ line, Prints (tell line))
    (hnil : run [] = pure ⟨⟩)
    (hcons : ∀ line rest, run (line :: rest) = tell line >>=
      fun _ => dispatch line >>= fun _ => run rest)
    (lines : List String) :
    ∀ w, Fails (run lines) w ↔ ReachesSystem run lines w := by
  induction lines with
  | nil =>
    intro w
    constructor
    · rintro ⟨f, hf⟩
      rw [hnil] at hf
      cases hf
    · rintro ⟨before, line, after, w', hlines, -⟩
      cases before <;> cases hlines
  | cons first rest ih =>
    intro w
    obtain ⟨out, hout⟩ := htell first w
    have hfirst : ∀ others, run (first :: others) w =
        (dispatch first >>= fun _ => run others) { w with out := out } := by
      intro others
      rw [hcons, bind_of_ok hout]
    obtain ⟨w₁, hrun⟩ := dispatch_outcome first { w with out := out }
    -- what has been printed is nothing to the aliases
    rw [show expandedIn { w with out := out } first =
      expandedIn w first from rfl] at hrun
    rcases hrun with ⟨hasks, hfail⟩ | ⟨hasks, hok⟩
    · constructor
      · exact fun _ => ⟨[], first, rest, w, rfl, by rw [hnil]; rfl, hasks⟩
      · exact fun _ => ⟨systemFault, by rw [hfirst, bind_of_error hfail]⟩
    · have hstep : ∀ others, run (first :: others) w = run others w₁ := by
        intro others
        rw [hfirst, bind_of_ok hok]
      rw [Fails, hstep]
      constructor
      · intro hfails
        obtain ⟨before, line, after, w', hlines, hbefore, hline⟩ :=
          (ih w₁).1 hfails
        exact ⟨first :: before, line, after,
          w', by rw [hlines]; rfl, by rw [hstep, hbefore], hline⟩
      · rintro ⟨before, line, after, w', hlines, hbefore, hline⟩
        cases before with
        | nil =>
          rw [hnil] at hbefore
          cases hbefore
          cases hlines
          exact absurd hline hasks
        | cons head before =>
          cases hlines
          rw [hstep] at hbefore
          exact (ih w₁).2 ⟨before, line, after, w', rfl, hbefore, hline⟩

def showLine (line : String) : Act Unit := do
  if !(← get).quiet then Act.printLine line

theorem prints_showLine (line : String) : Prints (showLine line) := by
  refine prints_get_bind fun w => ?_
  split
  · exact prints_printLine line
  · exact prints_pure

private theorem runShown_cons (line : String) (rest : List String) :
    App.runShown (line :: rest) = showLine line >>= fun _ => dispatch line >>=
      fun _ => App.runShown rest := by
  simp only [App.runShown, showLine, bind_assoc]
  refine bind_congr fun w => ?_
  split
  · rfl
  · rw [pure_bind]

theorem runShown_fails_iff (lines : List String) (w : World) :
    Fails (App.runShown lines) w ↔ ReachesSystem App.runShown lines w :=
  fails_iff_reachesSystem prints_showLine rfl runShown_cons lines w

theorem runSilently_fails_iff (lines : List String) (w : World) :
    Fails (App.runSilently lines) w ↔
    ReachesSystem App.runSilently lines w := by
  have htell :
      ∀ line : String, Prints ((fun _ => pure ⟨⟩ : String → Act Unit) line) :=
    fun _ => prints_pure
  refine fails_iff_reachesSystem htell rfl (fun line rest => ?_) lines w
  rw [pure_bind]
  rfl

/-! ## Conversations -/

private theorem workingDir_eq (w : World) :
    (liftM Files.workingDir : Act String) w =
      if w.seat.removed then (.error (.system .noEntry []), w)
      else (.ok (Disk.placeText w.seat.place), w) := by
  rw [lift_apply]
  unfold Files.workingDir
  rw [get_bind_apply]
  cases w.seat.removed with
  | true => rfl
  | false => rfl

/-- What `App.converse` does with an entry, from its prompt to the next one. -/
inductive Handles : App.Entry → World → World → Prop
  | line {text : String} {w w' : World}
      (stays : App.leavingWords.contains (lower text) = false)
      (run : dispatch text w = (.ok ⟨⟩, w')) : Handles (.line text) w w'
  | nothing {w : World} : Handles .nothing w w
  | interrupted {w w' : World} (told : Act.printLine "" w = (.ok ⟨⟩, w')) :
      Handles .interrupted w w'

/-- How a conversation breaks off: at a prompt whose directory has been removed,
or at a line that `AsksSystem`. -/
inductive BreaksOff {σ α : Type} (read : α → σ → Act (App.Entry × σ)) : List α →
    σ → World → Prop
  | homeless {inputs : List α} {s : σ} {w : World} (removed : w.seat.removed =
      true) : BreaksOff read inputs s w
  | asks {a : α} {rest : List α} {s s' : σ} {w w' : World} {text : String}
      (given : read a s w = (.ok (.line text, s'), w'))
        (stays : App.leavingWords.contains (lower text) = false)
      (asks : AsksSystem (expandedIn w' text)) : BreaksOff read (a :: rest) s w
  | later {a : α} {rest : List α} {s s' : σ} {w w₁ w' : World}
      {entry : App.Entry}
      (given : read a s w = (.ok (entry, s'), w₁))
      (handled : Handles entry w₁ w')
      (others : BreaksOff read rest s' w') : BreaksOff read (a :: rest) s w

private theorem fails_bind_pure {α β : Type} (x : Act α)
    (g : α → β) (w : World) :
    Fails (x >>= fun a => pure (g a)) w ↔ Fails x w := by
  unfold Fails
  rcases bind_cases x (fun a => pure (g a)) w
    with ⟨a, t, hx, hrun⟩ | ⟨e, t, hx, hrun⟩
  · rw [hrun, hx]
    exact iff_of_false (fun ⟨_, h⟩ => by cases h) fun ⟨_, h⟩ => by cases h
  · rw [hrun, hx]
    exact iff_of_true ⟨e, rfl⟩ ⟨e, rfl⟩

private theorem fails_of_eq {α : Type} {x y : Act α} {w' : World}
    (h : x w = y w') : Fails x w ↔ Fails y w' := by
  unfold Fails
  rw [h]

section Conversations

variable {σ α : Type} {read : α → σ → Act (App.Entry × σ)}

/-- Where there is a working directory, an entry that is handled (`Handles`)
leaves it to the other inputs whether the conversation breaks off. -/
private theorem breaksOff_of_handled {a : α} {rest : List α} {s s' : σ}
    {w' : World} (hdir : w.seat.removed = false)
    (hread : read a s w = (.ok (entry, s'), w₁)) (h : Handles entry w₁ w') :
    BreaksOff read (a :: rest) s w ↔ BreaksOff read rest s' w' := by
  refine ⟨fun hbreaks => ?_, .later hread h⟩
  cases hbreaks with
  | homeless removed =>
    rw [hdir] at removed
    cases removed
  | asks given stays asks =>
    rw [hread] at given
    cases given
    cases h with
    | line _ run =>
      -- a line that asks for the system's shell would have failed
      obtain ⟨t, ⟨-, hfails⟩ | ⟨hnot, -⟩⟩ := dispatch_outcome _ w₁
      · rw [hfails] at run
        cases run
      · exact absurd asks hnot
  | later given handled others =>
    rw [hread] at given
    cases given
    cases h with
    | line _ run =>
      cases handled with
      | line _ run' =>
        rw [run] at run'
        cases run'
        exact others
    | nothing =>
      cases handled
      exact others
    | interrupted told =>
      cases handled with
      | interrupted told' =>
        rw [told] at told'
        cases told'
        exact others

private theorem not_breaksOff_of_last {a : α} {rest : List α} {s s' : σ}
    (hdir : w.seat.removed = false) (hread : read a s w = (.ok (entry, s'), w₁))
    (hlast : ∀ w', ¬ Handles entry w₁ w')
    (hleaves : ∀ text, entry = .line text →
      App.leavingWords.contains (lower text) = true) :
    ¬ BreaksOff read (a :: rest) s w := by
  rintro (removed | ⟨given, stays, -⟩ | ⟨given, handled, -⟩)
  · rw [hdir] at removed
    cases removed
  · rw [hread] at given
    cases given
    rw [hleaves _ rfl] at stays
    cases stays
  · rw [hread] at given
    cases given
    exact hlast _ handled

private theorem converse_homeless (hdir : w.seat.removed = true)
    (inputs : List α) (s : σ) : Fails (App.converse read inputs s) w := by
  have hprompt := workingDir_eq w
  rw [hdir, if_pos rfl] at hprompt
  refine ⟨.system .noEntry [], ?_⟩
  cases inputs with
  | nil => rw [App.converse, bind_of_error hprompt]
  | cons a rest => rw [App.converse, bind_of_error hprompt]

/-- One turn of `App.converse`, from a prompt with a directory on. -/
private theorem converse_turn {a : α} {rest : List α} {s s' : σ}
    (ih : ∀ s w, Fails (App.converse read rest s) w ↔ BreaksOff read rest s w)
    (hdir : w.seat.removed = false)
    (hread : read a s w = (.ok (entry, s'), w₁)) :
    Fails (App.converse read (a :: rest) s) w ↔
    BreaksOff read (a :: rest) s w := by
  have hprompt := workingDir_eq w
  rw [hdir, if_neg Bool.false_ne_true] at hprompt
  have hlater : ∀ {w' : World}, Handles entry w₁ w' → App.converse read
      (a :: rest) s w = (App.converse read rest s' >>= fun course =>
        pure (course.after (App.promptIn (Disk.placeText w.seat.place)))) w' →
      (Fails (App.converse read (a :: rest) s) w ↔
          BreaksOff read (a :: rest) s w) := by
    intro w' handled hrun
    rw [breaksOff_of_handled hdir hread handled, ← ih, fails_of_eq hrun,
      fails_bind_pure]
  cases entry with
  | ended =>
    refine iff_of_false ?_ (not_breaksOff_of_last hdir hread
      (fun _ h => by cases h) fun _ h => by cases h)
    rintro ⟨f, hf⟩
    rw [App.converse, bind_of_ok hprompt] at hf
    dsimp only at hf
    rw [bind_of_ok hread] at hf
    cases hf
  | nothing =>
    refine hlater .nothing ?_
    rw [App.converse, bind_of_ok hprompt]
    dsimp only
    rw [bind_of_ok hread]
  | interrupted =>
    refine hlater (.interrupted rfl) ?_
    rw [App.converse, bind_of_ok hprompt]
    dsimp only
    rw [bind_of_ok hread]
    rfl
  | line text =>
    cases hleaves : App.leavingWords.contains (lower text) with
    | true =>
      refine iff_of_false ?_ (not_breaksOff_of_last hdir hread ?_ ?_)
      · rintro ⟨f, hf⟩
        rw [App.converse, bind_of_ok hprompt] at hf
        dsimp only at hf
        rw [bind_of_ok hread] at hf
        dsimp only at hf
        rw [hleaves, if_pos rfl] at hf
        cases hf
      · rintro w' (⟨stays, -⟩ | _)
        rw [hleaves] at stays
        cases stays
      · rintro _ ⟨⟩
        exact hleaves
    | false =>
      obtain ⟨w', ⟨hasks, hfails⟩ | ⟨-, hok⟩⟩ := dispatch_outcome text w₁
      · refine iff_of_true ⟨systemFault, ?_⟩ (.asks hread hleaves hasks)
        rw [App.converse, bind_of_ok hprompt]
        dsimp only
        rw [bind_of_ok hread]
        dsimp only
        rw [hleaves, if_neg Bool.false_ne_true, bind_of_error hfails]
      · refine hlater (.line hleaves hok) ?_
        rw [App.converse, bind_of_ok hprompt]
        dsimp only
        rw [bind_of_ok hread]
        dsimp only
        rw [hleaves, if_neg Bool.false_ne_true, bind_of_ok hok]

/-- **How conversations break off.** A conversation over an editor that does not
fail itself fails if and only if it breaks off in one of the ways of
`BreaksOff`. -/
theorem converse_fails_iff (hread : ∀ a s, Sure (read a s)) (inputs : List α) :
    ∀ s w, Fails (App.converse read inputs s) w ↔
      BreaksOff read inputs s w := by
  induction inputs with
  | nil =>
    intro s w
    have hprompt := workingDir_eq w
    cases hdir : w.seat.removed with
    | true => exact iff_of_true (converse_homeless hdir _ _) (.homeless hdir)
    | false =>
      rw [hdir, if_neg Bool.false_ne_true] at hprompt
      refine iff_of_false ?_ ?_
      · rintro ⟨f, hf⟩
        rw [App.converse, bind_of_ok hprompt] at hf
        cases hf
      · rintro (removed | _ | _)
        rw [hdir] at removed
        cases removed
  | cons a rest ih =>
    intro s w
    cases hdir : w.seat.removed with
    | true => exact iff_of_true (converse_homeless hdir _ _) (.homeless hdir)
    | false =>
      obtain ⟨⟨entry, s'⟩, w₁, hgiven⟩ := hread a s w
      exact converse_turn ih hdir hgiven

end Conversations

/-! ## Lines that break off what they belong to -/

/-- **What a line can break off.** A line fails if and only if, its aliases
expanded, its first word is `!cmd` and more than blanks follow. A script, shown
or not, fails if and only if it gets to such a line. A conversation fails if and
only if it gets to such a line or, before that, to a prompt after its working
directory has been removed. All of this is about runs in which no command gives
a text with half a surrogate pair, which cannot be printed. -/
theorem dispatch_fails_iff (w : World) :
    (∀ line, (dispatch line w).2.strayed = false →
      (Fails (dispatch line) w ↔ AsksSystem (expandedIn w line))) ∧
    (∀ lines, (App.runShown lines w).2.strayed = false →
      (Fails (App.runShown lines) w ↔ ReachesSystem App.runShown lines w)) ∧
    (∀ lines, (App.runSilently lines w).2.strayed = false →
      (Fails (App.runSilently lines) w ↔
        ReachesSystem App.runSilently lines w)) ∧
    ∀ {σ α : Type} (read : α → σ → Act (App.Entry × σ)) (inputs : List α)
      (s : σ), (∀ a s, Sure (read a s)) →
      (App.converse read inputs s w).2.strayed = false →
      (Fails (App.converse read inputs s) w ↔ BreaksOff read inputs s w) := by
  refine ⟨fun line _ => ?_, fun lines _ => runShown_fails_iff lines w,
    fun lines _ => runSilently_fails_iff lines w,
    fun read inputs s hread _ => converse_fails_iff hread inputs s w⟩
  obtain ⟨w', ⟨hasks, hfails⟩ | ⟨hasks, hok⟩⟩ := dispatch_outcome line w
  · exact iff_of_true ⟨systemFault, by rw [hfails]⟩ hasks
  · refine iff_of_false ?_ hasks
    rintro ⟨f, hf⟩
    rw [hok] at hf
    cases hf

/-- A line with the word in it fails, with a blank before it though nothing
follows, and a conversation breaks off where it stands in a removed
directory. -/
theorem dispatch_fails_iff_systemWord :
    Fails (dispatch " !cmd") default ∧
      Fails (App.converse App.readPlain [] ())
        { (default : World) with seat := ⟨[], true⟩ } := by
  constructor
  · exact ((dispatch_fails_iff default).1 " !cmd" rfl).2 ⟨by decide, by decide⟩
  · have hread : ∀ a s, Sure (App.readPlain a s) := fun a s => sure_pure (a, s)
    exact ((dispatch_fails_iff _).2.2.2 App.readPlain [] () hread rfl).2
      (.homeless rfl)

/-- A line that removes the working directory returns, but the conversation
breaks off at the next prompt. -/
theorem removal_breaks_off : ∃ w w' : World,
    dispatch "rm /d --r 1" w = (.ok ⟨⟩, w') ∧ w'.strayed = false ∧
    Fails (App.converse App.readPlain
      [.line "rm /d --r 1", .line "echo a"] ()) w := by
  have hwords : splitOrBlanks "rm /d --r 1" = ["rm", "/d", "--r", "1"] := by
    decide +kernel
  have htrim : trim "rm /d --r 1" = "rm /d --r 1" := by decide +kernel
  have hmarked := not_marked_of_words ((congrArg _ htrim).trans hwords)
    (by decide)
  obtain ⟨w, hw⟩ : ∃ w : World, w = { (default : World) with
      quiet := true
      disk := [([], ⟨.dir, 493, default⟩), (["d"], ⟨.dir, 493, default⟩)]
      seat := ⟨["d"], false⟩ } := ⟨_, rfl⟩
  have hrest : AtRest w := by
    rw [hw]
    exact ⟨⟨rfl, rfl, fun _ => rfl⟩, rfl⟩
  have hcomposed : runComposed "rm" ["rm", "/d", "--r", "1"]
      (some "rm /d --r 1") w = (.ok none, w) := by
    unfold runComposed
    rw [(no_chain (by decide +kernel)).1]
    rfl
  have haliases : w.aliases = [] := by rw [hw]; rfl
  obtain ⟨args, hargs⟩ : ∃ args, args =
      expandArgs w.env (argsOf ["rm", "/d", "--r", "1"]) := ⟨_, rfl⟩
  have htexts : Texts args :=
    hargs ▸ texts_expandArgs w.env (texts_argsOf ["rm", "/d", "--r", "1"])
  obtain ⟨text, -, -, -, -, -, -, -, hshow⟩ := show_withTask hrest "rm" htexts
  -- the task removes the directory, which is the one that the shell stands in
  obtain ⟨hremoved, hstrayed⟩ :
    (afterTask ⟨"rm", .record args⟩ w).seat.removed = true ∧
      (afterTask ⟨"rm", .record args⟩ w).strayed = false := by
    rw [hargs, hw]
    exact ⟨by cbv, by cbv⟩
  have hpost := post_one haliases (by decide +kernel)
    (not_toggles_of_not_marked hmarked) hwords (by decide)
  rw [postOne_of_none hrest rfl hcomposed, ← hargs] at hpost
  have hline : dispatch "rm /d --r 1" w =
      Act.printLine text (afterTask ⟨"rm", .record args⟩ w) := by
    rw [dispatch, bind_of_ok hpost]
    exact hshow
  refine ⟨w, _, hline, hstrayed, ?_⟩
  have hread : ∀ a s, Sure (App.readPlain a s) := fun a s => sure_pure (a, s)
  rw [converse_fails_iff hread]
  exact .later rfl (.line (by decide +kernel) hline) (.homeless hremoved)

end TaskShell.Shell

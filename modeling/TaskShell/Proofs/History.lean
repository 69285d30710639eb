import TaskShell.App.Session
import TaskShell.Proofs.Launching
import TaskShell.Proofs.ScriptLines

/-!
# The history file over many sessions

A session reads the history file when it starts, adds the lines that are typed,
and writes the last thousand lines when it ends. What is read is just what was
written, and to drop old lines at the end of each session is the same as to drop
them once, after all of them. So the file holds the last of all lines that it
ever held or that were ever typed.

What the lines do when they are run does not matter: the file is written at the
end, whatever it holds by then.
-/

namespace TaskShell

open Act Text List

variable {lines : List String}

namespace App

/-! ## Reading what was written -/

def linesText (lines : List String) : String :=
  String.join (lines.map (· ++ "\n"))

def OneLine (line : String) : Prop := '\n' ∉ line.toList ∧ '\r' ∉ line.toList

theorem toList_linesText (lines : List String) :
    (linesText lines).toList = lines.flatMap fun line =>
      line.toList ++ ['\n'] := by
  unfold linesText
  induction lines with
  | nil => rfl
  | cons line lines ih => simp [String.join_cons, ih]

theorem unifyNewlines_of_not_mem {cs : List Char} (h : '\r' ∉ cs) :
    unifyNewlines cs = cs := by
  have happend := unifyNewlines_append h []
  rwa [append_nil, unifyNewlines, append_nil] at happend

private theorem fileLinesFrom_append {line : List Char} (h : '\n' ∉ line)
    (rest before : List Char) :
    fileLinesFrom (line ++ '\n' :: rest) before =
      (before.reverse ++ line ++ ['\n']) :: fileLinesFrom rest [] := by
  rw [fileLinesFrom_of_not_mem h, fileLinesFrom]
  simp

/-- **`historyLines` reads the lines that a file was written from.** -/
theorem historyLines_linesText (h : ∀ line ∈ lines, OneLine line) :
    historyLines (linesText lines).toList = lines := by
  rw [toList_linesText]
  unfold historyLines fileLines
  induction lines with
  | nil => rfl
  | cons line lines ih =>
    have hline := (h line mem_cons_self).1
    have hrest := ih fun line' hmem => h line' (mem_cons_of_mem _ hmem)
    rw [flatMap_cons, append_assoc, singleton_append,
      fileLinesFrom_append hline, map_cons, hrest, reverse_nil, nil_append,
      trimEnd_append_newline hline, String.ofList_toList]

theorem loadHistory_of_readBytes {path : String} {s : Site}
    (hread : Files.readBytes path s = (.ok (utf8 (linesText lines)), s))
    (h : ∀ line ∈ lines, OneLine line) :
    loadHistory path s = (.ok lines, s) := by
  have hclean : '\r' ∉ (linesText lines).toList := by
    rw [toList_linesText, mem_flatMap]
    rintro ⟨line, hline, hmem⟩
    rcases mem_append.1 hmem with hmem | hmem
    · exact (h line hline).2 hmem
    · exact absurd (mem_singleton.1 hmem) (by decide)
  have hdecode : decodeIgnoring (utf8 (linesText lines)) =
      (linesText lines).toList :=
    decodeIgnoring_of_strict (decodeStrict_utf8Of _)
  have htext :
      Files.readTextIgnoring path s = (.ok (linesText lines).toList, s) := by
    unfold Files.readTextIgnoring
    rw [bind_of_ok hread, hdecode, unifyNewlines_of_not_mem hclean]
    rfl
  have hattempt : Act.attempt (Files.readTextIgnoring path) s =
      (.ok (.ok (linesText lines).toList), s) := by
    rw [Act.attempt, htext]
  unfold loadHistory
  rw [bind_of_ok hattempt]
  dsimp only
  rw [historyLines_linesText h]
  rfl

/-! ## Dropping old lines -/

/-- The last of some lines, at most `historyLimit`. -/
def lastLines (lines : List String) : List String :=
  lines.drop (lines.length - historyLimit)

theorem lastLines_of_le (h : lines.length ≤ historyLimit) :
    lastLines lines = lines := by
  rw [lastLines, Nat.sub_eq_zero_of_le h, drop_zero]

theorem lastLines_append (old new : List String) :
    lastLines (lastLines old ++ new) = lastLines (old ++ new) := by
  have hsplit : old ++ new =
      old.take (old.length - historyLimit) ++ (lastLines old ++ new) := by
    rw [lastLines, ← append_assoc, take_append_drop]
  have hlast : (lastLines old).length =
      old.length - (old.length - historyLimit) := length_drop
  have htake : (old.take (old.length - historyLimit)).length =
      old.length - historyLimit := by
    rw [length_take, Nat.min_eq_left (Nat.sub_le _ _)]
  have hdrop : (old ++ new).length - historyLimit =
      (old.take (old.length - historyLimit)).length +
        ((lastLines old ++ new).length - historyLimit) := by
    rw [htake, length_append, length_append, hlast]
    omega
  calc lastLines (lastLines old ++ new)
      = (old.take (old.length - historyLimit) ++ (lastLines old ++ new)).drop
          ((old.take (old.length - historyLimit)).length +
            ((lastLines old ++ new).length - historyLimit)) :=
        (drop_length_add_append _).symm
    _ = lastLines (old ++ new) := by rw [← hdrop, ← hsplit, lastLines]

theorem foldl_remember (lines kept : List String) :
    lines.foldl remember kept = kept ++ lines.filter (!·.isEmpty) := by
  induction lines generalizing kept with
  | nil => simp
  | cons line lines ih =>
    rw [foldl_cons, ih, remember]
    cases hline : line.isEmpty with
    | true => simp [hline]
    | false => simp [hline]

/-! ## Sessions -/

/-- A session in which some lines are typed: the history is read at the site `s`
and the file is written at the site `last`, wherever the lines have led by
then. -/
def Saves (path : String) (lines : List String) (s last t : Site) : Prop :=
  ∃ loaded, (loadHistory path s).1 = .ok loaded ∧
    saveHistory path (lines.foldl remember loaded) last = (.ok (), t)

/-- A session at whose end the history file can be written. -/
def Session (path : String) (lines : List String) (s t : Site) : Prop :=
  ∃ last, (∃ place, (Files.target path last).1 = .ok place) ∧
    Saves path lines s last t

/-- Sessions one after the other. Nothing but the history file need stay as it
is between two of them. -/
inductive Sessions (path : String) : List (List String) → Site →
    Site → Prop where
  | none {s : Site} : Sessions path [] s s
  | next {lines : List String} {rest : List (List String)} {s t t' last : Site}
      (hsession : Session path lines s t)
      (hopen : (Files.readBytes path t').1 = (Files.readBytes path t).1)
      (hrest : Sessions path rest t' last) :
      Sessions path (lines :: rest) s last

section Session

variable {path : String} {initial : List String} {s : Site}
  (hread : Files.readBytes path s = (.ok (utf8 (linesText initial)), s))
    (hinitial : ∀ line ∈ initial, OneLine line)

include hread hinitial

/-- **A `Session` adds the lines that are not empty to the history and drops the
oldest ones.** -/
theorem Session.readBytes {t : Site} (h : Session path lines s t) :
    Files.readBytes path t = (.ok (utf8
      (linesText (lastLines (initial ++ lines.filter (!·.isEmpty))))), t) := by
  obtain ⟨last, ⟨place, htarget⟩, loaded, hload, hsave⟩ := h
  rw [loadHistory_of_readBytes hread hinitial] at hload
  cases hload
  have hfound := Files.target_of_fst htarget
  rw [foldl_remember] at hsave
  obtain ⟨node, -, -, hwrite⟩ :=
    Files.writeBytes_of_target hfound
      (utf8 (historyText (initial ++ lines.filter (!·.isEmpty))))
  have hsaved : saveHistory path (initial ++ lines.filter (!·.isEmpty)) last =
      (.ok (), _) := orElse_of_ok hwrite
  rw [hsaved] at hsave
  cases hsave
  exact Files.readBytes_writeBytes hwrite

theorem exists_session (lines : List String) : ∃ t, Session path lines s t := by
  obtain ⟨-, hp, place, node, hfind, hfile, -⟩ := Files.ok_of_readBytes hread
  obtain ⟨hlocate, hplace⟩ := (Disk.find_eq_ok_iff hfile).1 hfind
  have htarget := Files.target_of_locate hp hlocate hplace hfile
  obtain ⟨_, _, _, hwrite⟩ :=
    Files.writeBytes_of_target htarget
      (utf8 (historyText (lines.foldl remember initial)))
  exact ⟨_, s, ⟨place, by rw [htarget]⟩,
    initial, by rw [loadHistory_of_readBytes hread hinitial],
    orElse_of_ok hwrite⟩

end Session

theorem oneLine_lastLines {old new : List String}
    (hold : ∀ line ∈ old, OneLine line) (hnew : ∀ line ∈ new, OneLine line) :
    ∀ line ∈ lastLines (old ++ new.filter (!·.isEmpty)), OneLine line := by
  intro line hline
  rcases mem_append.1 (mem_of_mem_drop hline) with hmem | hmem
  · exact hold line hmem
  · exact hnew line (mem_filter.1 hmem).1

/-- The lines of a history file after some sessions: none are dropped before the
first session ends. -/
def linesAfter (initial : List String) (sessions : List (List String)) :
    List String :=
  if sessions = [] then initial
    else lastLines (initial ++ sessions.flatten.filter (!·.isEmpty))

theorem linesAfter_cons (initial lines : List String)
    (rest : List (List String)) :
    linesAfter initial (lines :: rest) =
      linesAfter (lastLines (initial ++ lines.filter (!·.isEmpty))) rest := by
  cases rest with
  | nil => simp [linesAfter]
  | cons _ _ => simp [linesAfter, lastLines_append]

theorem exists_sessions {path : String} {initial : List String} {s : Site}
    {sessions : List (List String)}
    (hread : Files.readBytes path s = (.ok (utf8 (linesText initial)), s))
    (hinitial : ∀ line ∈ initial, OneLine line)
    (htyped : ∀ lines ∈ sessions, ∀ line ∈ lines, OneLine line) :
    ∃ t, Sessions path sessions s t := by
  induction sessions generalizing initial s with
  | nil => exact ⟨s, .none⟩
  | cons lines rest ih =>
    obtain ⟨t, hsession⟩ := exists_session hread hinitial lines
    have hkept := oneLine_lastLines hinitial (htyped lines mem_cons_self)
    obtain ⟨last, hrest⟩ :=
        ih (hsession.readBytes hread hinitial) hkept fun lines' hmem =>
      htyped lines' (mem_cons_of_mem _ hmem)
    exact ⟨last, .next hsession rfl hrest⟩

theorem Sessions.readBytes {path : String} {initial : List String} {s t : Site}
    {sessions : List (List String)}
    (h : Sessions path sessions s t)
    (hread : Files.readBytes path s = (.ok (utf8 (linesText initial)), s))
    (hinitial : ∀ line ∈ initial, OneLine line)
    (htyped : ∀ lines ∈ sessions, ∀ line ∈ lines, OneLine line) :
    Files.readBytes path t =
      (.ok (utf8 (linesText (linesAfter initial sessions))), t) := by
  induction h generalizing initial with
  | none => exact hread
  | @next lines rest s u u' t hsession hopen _ ih =>
    have hkept := oneLine_lastLines hinitial (htyped lines mem_cons_self)
    have hsaved := hsession.readBytes hread hinitial
    rw [hsaved] at hopen
    rw [linesAfter_cons]
    exact ih (Files.readBytes_of_fst hopen) hkept fun lines' hmem =>
      htyped lines' (mem_cons_of_mem _ hmem)

/-! ## The shell -/

/-- The lines that are read from some entries: all up to the one that asks to
leave. -/
def typed : List Entry → List String
  | [] => []
  | .ended :: _ => []
  | .nothing :: rest => typed rest
  | .interrupted :: rest => typed rest
  | .line text :: rest =>
    if leavingWords.contains (lower text) then [text] else text :: typed rest

/-- `converse` remembers the lines that are `typed`. -/
theorem editor_of_converse {inputs : List Entry} {kept : List String}
    {w w' : World} {course : Course (List String)}
    (h : converse readKept inputs kept w = (.ok course, w')) :
    course.editor = (typed inputs).foldl remember kept := by
  induction inputs generalizing kept w w' course with
  | nil =>
    obtain ⟨cwd, u, -, h⟩ := ok_of_bind h
    obtain ⟨rfl, -⟩ := ok_of_pure h
    rfl
  | cons entry rest ih =>
    rw [converse] at h
    obtain ⟨cwd, u, -, h⟩ := ok_of_bind h
    obtain ⟨⟨_, kept'⟩, u', hread, h⟩ := ok_of_bind h
    cases entry with
    | ended =>
      obtain ⟨hpair, -⟩ := ok_of_pure hread
      cases hpair
      obtain ⟨rfl, -⟩ := ok_of_pure h
      rfl
    | nothing =>
      obtain ⟨hpair, -⟩ := ok_of_pure hread
      cases hpair
      obtain ⟨after, v, hafter, h⟩ := ok_of_bind h
      obtain ⟨rfl, -⟩ := ok_of_pure h
      exact (ih hafter :)
    | interrupted =>
      obtain ⟨hpair, -⟩ := ok_of_pure hread
      cases hpair
      obtain ⟨_, _, -, h⟩ := ok_of_bind h
      obtain ⟨after, v, hafter, h⟩ := ok_of_bind h
      obtain ⟨rfl, -⟩ := ok_of_pure h
      exact (ih hafter :)
    | line text =>
      obtain ⟨hpair, -⟩ := ok_of_pure hread
      cases hpair
      dsimp only at h
      unfold typed
      cases hleave : leavingWords.contains (lower text) with
      | true =>
        rw [hleave, if_pos rfl] at h
        obtain ⟨rfl, -⟩ := ok_of_pure h
        rfl
      | false =>
        rw [hleave, if_neg Bool.false_ne_true] at h
        obtain ⟨_, _, -, h⟩ := ok_of_bind h
        obtain ⟨after, v, hafter, h⟩ := ok_of_bind h
        obtain ⟨rfl, -⟩ := ok_of_pure h
        exact (ih hafter :)

/-- **`startKept` saves the lines that are read** in the history file, at the
end of the session. -/
theorem startKept_saves {first : Bool} {words : List String}
    {inputs : List Entry} {w v w' : World} {orders : Orders}
    {course : Course (List String)}
    (hconfig : (if first then writeConfig else pure ()) w = (.ok (), v))
    (horders : (readOrders (Options.terminalColumns v.env) words).orders =
      .ok orders) (hscript : orders.script = none)
    (hcompile : orders.compile = none) (hbinary : orders.binary = none)
    (h : startKept first words inputs w = (.ok course, w')) :
    ∃ last,
      Saves (historyPath w.toSite) (typed inputs) v.toSite last w'.toSite := by
  rw [startKept, get_bind_apply] at h
  have hrest :
    start false words [] (loadHistory (historyPath w.toSite)) readKept
      (fun entered => saveHistory (historyPath w.toSite) entered) inputs v =
        (.ok course, w') := by
    cases first with
    | true =>
      unfold start at h
      rw [if_pos rfl] at hconfig h
      rw [bind_of_ok hconfig] at h
      exact h
    | false =>
      cases hconfig
      exact h
  unfold start at hrest
  rw [if_neg Bool.false_ne_true] at hrest
  beta_reduce at hrest
  rw [get_bind_apply, modify_bind_apply, horders] at hrest
  dsimp only at hrest
  rw [hscript, Option.isSome_none, if_neg Bool.false_ne_true] at hrest
  obtain ⟨loaded, u, hload, hrest⟩ := ok_of_bind hrest
  obtain ⟨course', u', hserve, hrest⟩ := ok_of_bind hrest
  obtain ⟨_, u'', hsave, hrest⟩ := ok_of_bind hrest
  obtain ⟨-, rfl⟩ := ok_of_pure hrest
  unfold serve at hserve
  rw [hscript, hcompile, hbinary] at hserve
  obtain ⟨_, _, -, htalk⟩ := ok_of_bind hserve
  rw [editor_of_converse htalk] at hsave
  exact ⟨u'.toSite, loaded, by rw [(ok_of_lift hload).1], (ok_of_lift hsave).1⟩

/-- **The history file after any number of sessions.** It holds the last of its
first lines and of all lines that were typed and are not empty, in their order.
A session in which nothing is typed leaves a file that is not too long as it
is. -/
theorem history_after_sessions {path : String} {initial : List String}
    {s : Site} {sessions : List (List String)}
    (hread : Files.readBytes path s = (.ok (utf8 (linesText initial)), s))
    (hinitial : ∀ line ∈ initial, OneLine line)
    (htyped : ∀ lines ∈ sessions, ∀ line ∈ lines, OneLine line) :
    (∃ t, Sessions path sessions s t) ∧
      (∀ t, Sessions path sessions s t →
        (Files.readBytes path t).1 = .ok (utf8 (linesText
        (if sessions = [] then initial
          else lastLines (initial ++ sessions.flatten.filter (!·.isEmpty)))))) ∧
      (initial.length ≤ historyLimit → ∀ t, Session path [] s t →
        (Files.readBytes path t).1 = (Files.readBytes path s).1) := by
  refine ⟨exists_sessions hread hinitial htyped, fun t h => ?_,
    fun hshort t h => ?_⟩
  · rw [h.readBytes hread hinitial htyped, linesAfter]
  · rw [h.readBytes hread hinitial, hread, filter_nil, append_nil,
      lastLines_of_le hshort]

/-- A site with a history of two lines, one of them empty. -/
def keptSite : Site :=
  { (default : Site) with
    disk := [([], ⟨.dir, 0o755, ⟨0, 0⟩⟩), ([".luw_history"],
      ⟨.file (utf8 (linesText ["ls", ""])), 0o644, ⟨0, 0⟩⟩)] }

/-- Two sessions, with an empty line in the first one. -/
theorem history_after_sessions_two :
    ∃ t, Sessions "/.luw_history" [["echo ß", "", "exit"], ["pwd"]] keptSite t ∧
    (Files.readBytes "/.luw_history" t).1 =
      .ok (utf8 "ls\n\necho ß\nexit\npwd\n") := by
  have hread : Files.readBytes "/.luw_history" keptSite =
      (.ok (utf8 (linesText ["ls", ""])), keptSite) := by
    simp only [Files.readBytes, Files.find, Files.checkPath,
      String.contains_char_eq]
    rfl
  have hclean : ∀ lines ∈ [["ls", ""], ["echo ß", "", "exit"], ["pwd"]],
      ∀ line ∈ lines, '\n' ∉ line.toList ∧ '\r' ∉ line.toList := by
    decide
  obtain ⟨⟨t, ht⟩, hafter, -⟩ :=
    history_after_sessions hread (hclean _ mem_cons_self)
    fun lines hmem => hclean lines (mem_cons_of_mem _ hmem)
  have htext : linesText (lastLines (["ls", ""] ++
      [["echo ß", "", "exit"], ["pwd"]].flatten.filter (!·.isEmpty))) =
        "ls\n\necho ß\nexit\npwd\n" := by
    decide
  refine ⟨t, ht, ?_⟩
  rw [hafter t ht, if_neg (cons_ne_nil _ _), htext]

end App

end TaskShell

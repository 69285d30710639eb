import TaskShell.Proofs.Bundling

/-!
# The lines of scripts and of bundled scripts

A script file is cut at its newlines, and a bundled script at every line break
of displayed text. Since empty lines are passed over, a bundled script is what
is left of cutting each line of the file once more. The two agree as long as
that changes nothing: a line that is run must have no further break in it, and a
line that is passed over must not have a part that is run.
-/

namespace TaskShell.App

open Act Text List

variable {line cs : List Char} {c : Char} {lines : List (List Char)}
  {p : String} {w : World} {data : List UInt8}

def runLine? (line : List Char) : Option String :=
  if isPassedOver line then none else some (String.ofList line)

def linesOfFile (cs : List Char) : List (List Char) :=
  (fileLines (unifyNewlines cs)).map (trimEnd (· == '\n'))

theorem scriptLines_eq (cs : List Char) :
    scriptLines (unifyNewlines cs) = (linesOfFile cs).filterMap runLine? := rfl

/-! ## Characters of lines -/

theorem trimEnd_of_not_mem (h : '\n' ∉ line) :
    trimEnd (· == '\n') line = line := by
  unfold trimEnd
  cases hrev : line.reverse with
  | nil =>
    rw [reverse_eq_nil_iff.1 hrev]
    rfl
  | cons c cs =>
    have hmem : c ∈ line := by
      rw [← mem_reverse, hrev]
      exact mem_cons_self
    have hc : ¬ (c == '\n') = true := by
      rw [beq_iff_eq]
      rintro rfl
      exact h hmem
    rw [dropWhile_cons, if_neg hc, ← hrev, reverse_reverse]

theorem unifyNewlines_append (h : '\r' ∉ cs) (rest : List Char) :
    unifyNewlines (cs ++ rest) = cs ++ unifyNewlines rest := by
  induction cs with
  | nil => rfl
  | cons c cs ih =>
    have hc : c ≠ '\r' := fun hc => h (hc ▸ mem_cons_self)
    have hcs : '\r' ∉ cs := fun hmem => h (mem_cons_of_mem _ hmem)
    rw [cons_append, cons_append, ← ih hcs, unifyNewlines]
    · intro _ hr
      exact absurd hr hc
    · exact hc

theorem fileLinesFrom_of_not_mem (h : '\n' ∉ cs) (rest line : List Char) :
    fileLinesFrom (cs ++ rest) line =
      fileLinesFrom rest (cs.reverse ++ line) := by
  induction cs generalizing line with
  | nil => rfl
  | cons c cs ih =>
    have hc : c ≠ '\n' := fun hc => h (hc ▸ mem_cons_self)
    have hcs : '\n' ∉ cs := fun hmem => h (mem_cons_of_mem _ hmem)
    rw [cons_append, fileLinesFrom]
    · rw [ih hcs, reverse_cons, append_assoc]
      rfl
    · exact hc

theorem trimEnd_append_newline (h : '\n' ∉ line) :
    trimEnd (· == '\n') (line ++ ['\n']) = line := by
  have htrim := trimEnd_of_not_mem h
  unfold trimEnd at htrim ⊢
  rw [reverse_append]
  exact htrim

theorem mem_of_mem_trimEnd (h : c ∈ trimEnd (· == '\n') line) : c ∈ line := by
  unfold trimEnd at h
  rw [mem_reverse] at h
  exact mem_reverse.1 ((dropWhile_sublist _).subset h)

private theorem unbroken_of_mem_breakLinesFrom {piece : List Char}
    (hline : ∀ c ∈ line, isLineBreak c = false)
    (h : piece ∈ breakLinesFrom cs line) :
    ∀ c ∈ piece, isLineBreak c = false := by
  fun_induction breakLinesFrom cs line with
  | case1 => cases h
  | case2 line hne =>
    obtain rfl := mem_singleton.1 h
    intro c hc
    exact hline c (mem_reverse.1 hc)
  | case3 cs line ih =>
    rcases mem_cons.1 h with rfl | h
    · intro c hc
      exact hline c (mem_reverse.1 hc)
    · exact ih (by simp) h
  | case4 c cs line hpair hbreak ih =>
    rcases mem_cons.1 h with rfl | h
    · intro c hc
      exact hline c (mem_reverse.1 hc)
    · exact ih (by simp) h
  | case5 c cs line hpair hbreak ih =>
    refine ih ?_ h
    intro d hd
    rcases mem_cons.1 hd with rfl | hd
    · exact Bool.eq_false_iff.2 hbreak
    · exact hline d hd

theorem unbroken_of_mem_breakLines {piece : List Char}
    (h : piece ∈ breakLines cs) : ∀ c ∈ piece, isLineBreak c = false :=
  unbroken_of_mem_breakLinesFrom (by simp) h

theorem not_mem_of_unbroken (h : ∀ c ∈ line, isLineBreak c = false) :
    '\n' ∉ line := by
  intro hmem
  have hbreak := h '\n' hmem
  revert hbreak
  decide

/-! ## Cutting once and cutting twice -/

/-- The lines that a bundled script runs from `cs` on, where `line` holds the
characters of the line being read, last one first. -/
def bundledFrom (cs line : List Char) : List String :=
  (breakLinesFrom cs line).filterMap fun line =>
    runLine? (trimEnd (· == '\n') line)

theorem bundledLines_eq (cs : List Char) :
    bundledLines cs = bundledFrom cs [] := rfl

theorem filterMap_cons_eq {α β : Type} (f : α → Option β) (a : α) (l : List α) :
    (a :: l).filterMap f = (f a).toList ++ l.filterMap f := by
  cases h : f a with
  | none => rw [filterMap_cons_none h, Option.toList_none, nil_append]
  | some b => rw [filterMap_cons_some h, Option.toList_some, singleton_append]

theorem bundledFrom_nil (line : List Char) :
    bundledFrom [] line =
      (runLine? (trimEnd (· == '\n') line.reverse)).toList := by
  cases line with
  | nil => rfl
  | cons c line =>
    unfold bundledFrom breakLinesFrom
    rw [filterMap_cons_eq]
    exact append_nil _

/-- Empty lines are passed over, so a pair of line breaks counts for
`bundledFrom` like two breaks on their own. -/
theorem bundledFrom_cons (c : Char) (cs line : List Char) :
    bundledFrom (c :: cs) line =
    if isLineBreak c then bundledFrom [] line ++ bundledFrom cs []
      else bundledFrom cs (c :: line) := by
  have hsingle : ∀ (c : Char) (cs line : List Char),
    (∀ rest, c = '\r' → cs = '\n' :: rest → False) →
      bundledFrom (c :: cs) line =
        if isLineBreak c then bundledFrom [] line ++ bundledFrom cs []
          else bundledFrom cs (c :: line) := by
    intro c cs line hpair
    rw [bundledFrom_nil]
    unfold bundledFrom
    rw [breakLinesFrom.eq_4 _ _ _ hpair]
    split
    · exact filterMap_cons_eq _ _ _
    · rfl
  by_cases hpair : c = '\r' ∧ ∃ rest, cs = '\n' :: rest
  · obtain ⟨rfl, rest, rfl⟩ := hpair
    have hr : isLineBreak '\r' = true := by decide
    have hn : isLineBreak '\n' = true := by decide
    rw [if_pos hr, hsingle '\n' rest [] (by simp), if_pos hn,
      bundledFrom_nil line]
    exact filterMap_cons_eq _ _ _
  · exact hsingle c cs line fun rest hc hcs => hpair ⟨hc, rest, hcs⟩

theorem bundledFrom_append (hc : isLineBreak c = true)
    (xs cs line : List Char) :
    bundledFrom (xs ++ c :: cs) line =
      bundledFrom xs line ++ bundledFrom cs [] := by
  induction xs generalizing line with
  | nil => rw [nil_append, bundledFrom_cons, if_pos hc]
  | cons x xs ih =>
    rw [cons_append, bundledFrom_cons, bundledFrom_cons x xs]
    by_cases hx : isLineBreak x = true
    · rw [if_pos hx, if_pos hx, ih, append_assoc]
    · rw [if_neg hx, if_neg hx, ih]

/-- The lines that are left of cutting each line of the file from `cs` on, where
`line` holds the characters of the line being read, last one first. -/
def spreadFrom (cs line : List Char) : List String :=
  ((fileLinesFrom (unifyNewlines cs) line).map (trimEnd (· == '\n'))).flatMap
    bundledLines

theorem spreadFrom_nil (h : '\n' ∉ line) :
    spreadFrom [] line = bundledLines line.reverse := by
  cases line with
  | nil => rfl
  | cons c line =>
    have htrim : trimEnd (· == '\n') (c :: line).reverse =
        (c :: line).reverse :=
      trimEnd_of_not_mem (by rwa [mem_reverse])
    show [trimEnd (· == '\n') (c :: line).reverse].flatMap bundledLines = _
    rw [htrim]
    exact append_nil _

theorem spreadFrom_newline (h : '\n' ∉ line) (cs : List Char) :
    spreadFrom ('\n' :: cs) line =
      bundledLines line.reverse ++ spreadFrom cs [] := by
  have htrim : trimEnd (· == '\n') (line.reverse ++ ['\n']) = line.reverse :=
    trimEnd_append_newline (by rwa [mem_reverse])
  unfold spreadFrom
  rw [unifyNewlines.eq_4 _ _ (by simp) (by simp), fileLinesFrom, map_cons,
    reverse_cons, htrim, flatMap_cons]

theorem spreadFrom_return (h : '\n' ∉ line) (cs : List Char) :
    spreadFrom ('\r' :: cs) line =
      bundledLines line.reverse ++ spreadFrom cs [] := by
  by_cases hpair : ∃ rest, cs = '\n' :: rest
  · obtain ⟨rest, rfl⟩ := hpair
    have hone : spreadFrom ('\r' :: '\n' :: rest) line =
        spreadFrom ('\n' :: rest) line := by
      unfold spreadFrom
      rw [unifyNewlines, unifyNewlines.eq_4 _ _ (by simp) (by simp)]
    rw [hone, spreadFrom_newline h, spreadFrom_newline not_mem_nil]
    rfl
  · have hone :
        spreadFrom ('\r' :: cs) line = spreadFrom ('\n' :: cs) line := by
      unfold spreadFrom
      rw [unifyNewlines.eq_3 _ fun rest hcs => hpair ⟨rest, hcs⟩,
        unifyNewlines.eq_4 _ _ (by simp) (by simp)]
    rw [hone, spreadFrom_newline h]

private theorem spreadFrom_cons (hn : c ≠ '\n') (hr : c ≠ '\r')
    (cs line : List Char) :
    spreadFrom (c :: cs) line = spreadFrom cs (c :: line) := by
  unfold spreadFrom
  rw [unifyNewlines.eq_4 _ _ (by simp [hr]) (by simp [hr]),
    fileLinesFrom.eq_4 _ _ _ (by simp [hn])]

private theorem spreadFrom_eq (cs : List Char) (h : '\n' ∉ line) :
    spreadFrom cs line = bundledFrom (line.reverse ++ cs) [] := by
  induction cs generalizing line with
  | nil =>
    rw [spreadFrom_nil h, append_nil]
    rfl
  | cons c cs ih =>
    have hrest : spreadFrom cs [] = bundledFrom cs [] := ih not_mem_nil
    by_cases hn : c = '\n'
    · subst hn
      rw [spreadFrom_newline h, bundledFrom_append (by decide), hrest,
        bundledLines_eq]
    · by_cases hr : c = '\r'
      · subst hr
        rw [spreadFrom_return h, bundledFrom_append (by decide), hrest,
          bundledLines_eq]
      · have hline : '\n' ∉ c :: line := by
          rw [mem_cons, not_or]
          exact ⟨Ne.symm hn, h⟩
        rw [spreadFrom_cons hn hr, ih hline, reverse_cons, append_assoc,
          singleton_append]

/-- **The `bundledLines` of a script are those of each line of the file.** -/
theorem bundledLines_eq_flatMap (cs : List Char) :
    bundledLines cs = (linesOfFile cs).flatMap bundledLines :=
  (spreadFrom_eq cs not_mem_nil).symm

/-! ## Where the lines agree -/

/-- A line of a script file that is the same for a bundle: one that is run has
no further line break in it, and one that is passed over has only parts that are
passed over. -/
def ReadsAlike (line : List Char) : Prop :=
  (isPassedOver line = true →
    ∀ piece ∈ breakLines line, isPassedOver piece = true) ∧
    (isPassedOver line = false → ∀ c ∈ line, isLineBreak c = false)

theorem unbroken_of_mem_bundledLines {s : String} (h : s ∈ bundledLines cs) :
    ∀ c ∈ s.toList, isLineBreak c = false := by
  obtain ⟨piece, hpiece, hs⟩ := mem_filterMap.1 h
  dsimp only at hs
  split at hs
  · cases hs
  · obtain rfl := Option.some.inj hs
    intro c hc
    rw [String.toList_ofList] at hc
    exact unbroken_of_mem_breakLines hpiece c (mem_of_mem_trimEnd hc)

theorem bundledLines_eq_nil_iff (line : List Char) :
    bundledLines line = [] ↔
    ∀ piece ∈ breakLines line, isPassedOver piece = true := by
  have htrim : ∀ piece ∈ breakLines line, trimEnd (· == '\n') piece = piece :=
      fun piece hpiece =>
    trimEnd_of_not_mem (not_mem_of_unbroken (unbroken_of_mem_breakLines hpiece))
  rw [bundledLines, filterMap_eq_nil_iff]
  constructor
  · intro h piece hpiece
    have hnone := h piece hpiece
    dsimp only at hnone
    rw [htrim piece hpiece] at hnone
    split at hnone
    · next hover => exact hover
    · cases hnone
  · intro h piece hpiece
    dsimp only
    rw [htrim piece hpiece, if_pos (h piece hpiece)]

private theorem bundledFrom_of_unbroken (h : ∀ c ∈ cs, isLineBreak c = false)
    (line : List Char) :
    bundledFrom cs line = bundledFrom [] (cs.reverse ++ line) := by
  induction cs generalizing line with
  | nil => rfl
  | cons c cs ih =>
    have hc : ¬ isLineBreak c = true := by
      rw [h c mem_cons_self]
      exact Bool.false_ne_true
    rw [bundledFrom_cons, if_neg hc, ih (fun d hd =>
      h d (mem_cons_of_mem _ hd)), reverse_cons, append_assoc, singleton_append]

theorem bundledLines_of_unbroken (h : ∀ c ∈ line, isLineBreak c = false) :
    bundledLines line = (runLine? line).toList := by
  rw [bundledLines_eq, bundledFrom_of_unbroken h, append_nil, bundledFrom_nil,
    reverse_reverse, trimEnd_of_not_mem (not_mem_of_unbroken h)]

theorem bundledLines_eq_toList_iff (line : List Char) :
    bundledLines line = (runLine? line).toList ↔ ReadsAlike line := by
  unfold runLine?
  cases hover : isPassedOver line with
  | true =>
    rw [if_pos rfl, Option.toList_none, bundledLines_eq_nil_iff]
    constructor
    · intro h
      constructor
      · intro _
        exact h
      · intro hfalse
        rw [hover] at hfalse
        cases hfalse
    · intro h
      exact h.1 hover
  | false =>
    rw [if_neg Bool.false_ne_true, Option.toList_some]
    constructor
    · intro h
      constructor
      · intro htrue
        rw [hover] at htrue
        cases htrue
      · intro _
        have hmem : String.ofList line ∈ bundledLines line := by
          rw [h]
          exact mem_singleton_self _
        have hunbroken := unbroken_of_mem_bundledLines hmem
        rwa [String.toList_ofList] at hunbroken
    · intro h
      rw [bundledLines_of_unbroken (h.2 hover), runLine?, hover]
      rfl

/-- No line that is run is cut. -/
def RunsWhole (lines : List (List Char)) : Prop :=
  ∀ line ∈ lines, isPassedOver line = false → ∀ c ∈ line, isLineBreak c = false

theorem RunsWhole.tail (h : RunsWhole (line :: lines)) :
    RunsWhole lines := fun l hl => h l (mem_cons_of_mem _ hl)

theorem RunsWhole.head (h : RunsWhole (line :: lines))
    (hover : isPassedOver line = false) :
    bundledLines line = (runLine? line).toList :=
  bundledLines_of_unbroken (h line mem_cons_self hover)

theorem runLine?_of_isPassedOver (h : isPassedOver line = true) :
    runLine? line = none :=
  if_pos h

/-- A bundle that `RunsWhole` lines runs no fewer than the file. -/
theorem RunsWhole.length_le (h : RunsWhole lines) :
    (lines.filterMap runLine?).length ≤
      (lines.flatMap bundledLines).length := by
  induction lines with
  | nil => exact Nat.le_refl _
  | cons line lines ih =>
    have hrest := ih h.tail
    rw [filterMap_cons_eq, flatMap_cons, length_append, length_append]
    cases hover : isPassedOver line with
    | true =>
      rw [runLine?_of_isPassedOver hover, Option.toList_none, length_nil]
      omega
    | false =>
      rw [h.head hover]
      omega

theorem RunsWhole.readsAlike (hrun : RunsWhole lines)
    (h : lines.filterMap runLine? = lines.flatMap bundledLines) :
    ∀ line ∈ lines, ReadsAlike line := by
  induction lines with
  | nil => simp
  | cons line lines ih =>
    rw [filterMap_cons_eq, flatMap_cons] at h
    -- either way the line and the lines after it agree on their own
    have hsplit : bundledLines line = (runLine? line).toList ∧
        lines.filterMap runLine? = lines.flatMap bundledLines := by
      cases hover : isPassedOver line with
      | true =>
        rw [runLine?_of_isPassedOver hover, Option.toList_none, nil_append] at h
        have hle := hrun.tail.length_le
        have hlength := congrArg List.length h
        rw [length_append] at hlength
        have hnil : bundledLines line = [] := length_eq_zero_iff.1 (by omega)
        rw [hnil, nil_append] at h
        exact ⟨by rw [hnil, runLine?_of_isPassedOver hover, Option.toList_none],
          h⟩
      | false =>
        rw [hrun.head hover] at h
        exact ⟨hrun.head hover, append_cancel_left h⟩
    intro l hl
    rcases mem_cons.1 hl with rfl | hl
    · exact (bundledLines_eq_toList_iff l).1 hsplit.1
    · exact ih hrun.tail hsplit.2 l hl

private theorem runsWhole_of_eq
    (h : lines.filterMap runLine? = lines.flatMap bundledLines) :
    RunsWhole lines := by
  intro line hline hover
  have hsome : runLine? line = some (String.ofList line) := by
    unfold runLine?
    rw [hover]
    rfl
  have hmem : String.ofList line ∈ lines.flatMap bundledLines := by
    rw [← h]
    exact mem_filterMap.2 ⟨line, hline, hsome⟩
  obtain ⟨other, -, hbundled⟩ := mem_flatMap.1 hmem
  have hunbroken := unbroken_of_mem_bundledLines hbundled
  rwa [String.toList_ofList] at hunbroken

/-- **`scriptLines` and `bundledLines` agree just when every line of the file
`ReadsAlike`.** -/
theorem scriptLines_eq_bundledLines_iff (cs : List Char) :
    scriptLines (unifyNewlines cs) = bundledLines cs ↔
    ∀ line ∈ linesOfFile cs, ReadsAlike line := by
  rw [scriptLines_eq, bundledLines_eq_flatMap]
  constructor
  · intro h
    exact (runsWhole_of_eq h).readsAlike h
  · intro h
    generalize linesOfFile cs = lines at h ⊢
    induction lines with
    | nil => rfl
    | cons line lines ih =>
      have hline := (bundledLines_eq_toList_iff line).2 (h line mem_cons_self)
      rw [filterMap_cons_eq, flatMap_cons, hline,
        ih fun l hl => h l (mem_cons_of_mem _ hl)]

/-! ## Scripts whose only line breaks are newlines -/

theorem mem_unifyNewlines (h : c ∈ unifyNewlines cs) :
    c = '\n' ∨ c ∈ cs ∧ c ≠ '\r' := by
  fun_induction unifyNewlines cs with
  | case1 => cases h
  | case2 cs ih =>
    rcases mem_cons.1 h with rfl | h
    · exact .inl rfl
    · refine (ih h).imp id fun hc => ⟨?_, hc.2⟩
      exact mem_cons_of_mem _ (mem_cons_of_mem _ hc.1)
  | case3 cs hcs ih =>
    rcases mem_cons.1 h with rfl | h
    · exact .inl rfl
    · exact (ih h).imp id fun hc => ⟨mem_cons_of_mem _ hc.1, hc.2⟩
  | case4 d cs hpair hreturn ih =>
    rcases mem_cons.1 h with rfl | h
    · exact .inr ⟨mem_cons_self, fun hc => hreturn hc⟩
    · exact (ih h).imp id fun hc => ⟨mem_cons_of_mem _ hc.1, hc.2⟩

private theorem mem_of_mem_fileLinesFrom {l : List Char} (hline : '\n' ∉ line)
    (hl : l ∈ fileLinesFrom cs line) (hc : c ∈ trimEnd (· == '\n') l) :
    c ≠ '\n' ∧ (c ∈ cs ∨ c ∈ line) := by
  fun_induction fileLinesFrom cs line with
  | case1 => cases hl
  | case2 line hne =>
    obtain rfl := mem_singleton.1 hl
    have hmem := mem_reverse.1 (mem_of_mem_trimEnd hc)
    exact ⟨fun hn => hline (hn ▸ hmem), .inr hmem⟩
  | case3 cs line ih =>
    rcases mem_cons.1 hl with rfl | hl
    · rw [reverse_cons, trimEnd_append_newline (by rwa [mem_reverse]),
        mem_reverse] at hc
      exact ⟨fun hn => hline (hn ▸ hc), .inr hc⟩
    · obtain ⟨hn, hmem⟩ := ih not_mem_nil hl
      refine ⟨hn, .inl ?_⟩
      rcases hmem with hmem | hmem
      · exact mem_cons_of_mem _ hmem
      · cases hmem
  | case4 d cs line hd ih =>
    have hdn : '\n' ∉ d :: line := by
      rw [mem_cons, not_or]
      exact ⟨fun hn => hd hn.symm, hline⟩
    obtain ⟨hn, hmem⟩ := ih hdn hl
    refine ⟨hn, ?_⟩
    rcases hmem with hmem | hmem
    · exact .inl (mem_cons_of_mem _ hmem)
    · rcases mem_cons.1 hmem with rfl | hmem
      · exact .inl mem_cons_self
      · exact .inr hmem

theorem scriptLines_eq_bundledLines
    (h : ∀ c ∈ cs, isLineBreak c = true → c = '\n' ∨ c = '\r') :
    scriptLines (unifyNewlines cs) = bundledLines cs := by
  rw [scriptLines_eq_bundledLines_iff]
  intro line hline
  obtain ⟨l, hl, rfl⟩ := mem_map.1 hline
  rw [← bundledLines_eq_toList_iff]
  apply bundledLines_of_unbroken
  intro c hc
  obtain ⟨hn, hmem⟩ := mem_of_mem_fileLinesFrom not_mem_nil hl hc
  have hcs : c ∈ cs ∧ c ≠ '\r' := by
    rcases hmem with hmem | hmem
    · exact (mem_unifyNewlines hmem).resolve_left hn
    · cases hmem
  rw [Bool.eq_false_iff]
  intro hbreak
  rcases h c hcs.1 hbreak with rfl | rfl
  · exact hn rfl
  · exact hcs.2 rfl

/-! ## Running a script and running its bundle -/

theorem runScript_of_bytes
    (hread : Files.readBytes p w.toSite = (.ok data, w.toSite)) :
    runScript p w = (do runShown (scriptLines
      (unifyNewlines (decodeIgnoring data))); Shell.waitForAll) w := by
  have htext : Files.readTextIgnoring p w.toSite =
      (.ok (unifyNewlines (decodeIgnoring data)), w.toSite) := by
    unfold Files.readTextIgnoring
    rw [bind_of_ok hread]
    rfl
  unfold runScript
  rw [bind_of_ok (lift_of_ok htext)]

theorem runScript_of_readBytes
    (hread : Files.readBytes p w.toSite = (.ok data, w.toSite))
    (hvalid : decodeStrict data = .ok cs) :
    runScript p w =
      (do runShown (scriptLines (unifyNewlines cs)); Shell.waitForAll) w := by
  rw [runScript_of_bytes hread, decodeIgnoring_of_strict hvalid]

theorem runBundle_of_unpack {bytes script : List UInt8}
    {fields : List (String × Value)}
    (hread : Files.readBytes p w.toSite = (.ok bytes, w.toSite))
    (hunpack : Bundle.unpack bytes = .ok (.record fields, script))
    (htype : fields.lookup "type" =
      some (.text Bundle.Interpreter.shell.name)) :
    runBundle p w = (do runBundled script; return true) w := by
  have hfile := Files.isFile_of_readBytes hread
  have hfield : manifestField (.record fields) "type" w =
      (.ok (.text Bundle.Interpreter.shell.name), w) := by
    show (pure ((fields.lookup "type").getD .null) : Act Value) w = _
    rw [htype]
    rfl
  have hkind : ¬ ((Value.text Bundle.Interpreter.shell.name).text? ==
      some Bundle.Interpreter.installed.name) = true := by
    decide
  unfold runBundle
  rw [get_bind_apply, hfile, Bool.not_true, if_neg Bool.false_ne_true]
  beta_reduce
  rw [bind_of_ok (lift_of_ok hread), hunpack]
  dsimp only
  rw [bind_of_ok hfield, if_neg hkind]

/-- `runBundle` runs the lines of a script that is no program of another
language in this shell. -/
theorem runBundle_of_compile {o script : String} {out : Option String}
    {u : World} (hcompile : compile p out w = (.ok o, u))
    (hscript : resolve p w.toSite = (.ok script, w.toSite))
    (hkind : lower (Path.splitExt script).2 ≠ ".py")
    (hdata : Files.readBytes script w.toSite = (.ok data, w.toSite))
    (hvalid : decodeStrict data = .ok cs)
    (hclock : Json.readDocument ⟨.brief, true⟩ (Json.signs
      (Json.numberFormat.write w.host.clock)) = .ok (.float w.host.clock)) :
    runBundle o u =
      (do runSilently (bundledLines cs); Shell.waitForAll; return true) u := by
  obtain ⟨hread, hlength⟩ := bundle_of_script hcompile hscript hdata
  have hunpack := Bundle.unpack_pack w.host.packer hlength hclock data
  have htype :=
    Bundle.lookup_type hkind w.host.clock (versionText w.host.version)
  rw [runBundle_of_unpack hread hunpack htype, runBundled,
    decodeReplacing_of_strict hvalid, bind_assoc]

/-- **What running a script file and running its bundle hand to the shell.** A
script that is no program of another language and whose bytes are valid is run
line by line, from its file and from its bundle. The lines are the same just
when every line of the file reads alike, and so they are if the script has no
line breaks but line feeds and carriage returns. The time of the bundling must
be a number whose text is read back. -/
theorem compiled_lines_agree_iff {p q o script : String} {out : Option String}
    {w u : World} {data : List UInt8}
    {cs : List Char} (hcompile : compile p out w = (.ok o, u))
    (hscript : resolve p w.toSite = (.ok script, w.toSite))
    (hkind : lower (Path.splitExt script).2 ≠ ".py")
    (hdata : Files.readBytes script w.toSite = (.ok data, w.toSite))
    (hvalid : decodeStrict data = .ok cs)
    (hsame : Files.readBytes q w.toSite = (.ok data, w.toSite))
    (hclock : Json.readDocument ⟨.brief, true⟩ (Json.signs
      (Json.numberFormat.write w.host.clock)) = .ok (.float w.host.clock)) :
    runScript q w =
      (do runShown (scriptLines (unifyNewlines cs)); Shell.waitForAll) w ∧
      runBundle o u =
        (do runSilently (bundledLines cs); Shell.waitForAll; return true) u ∧
      (scriptLines (unifyNewlines cs) = bundledLines cs ↔
        ∀ line ∈ linesOfFile cs, ReadsAlike line) ∧
      ((∀ c ∈ cs, isLineBreak c = true → c = '\n' ∨ c = '\r') →
        scriptLines (unifyNewlines cs) = bundledLines cs) := by
  refine ⟨?_, ?_, ?_, ?_⟩
  · exact runScript_of_readBytes hsame hvalid
  · exact runBundle_of_compile hcompile hscript hkind hdata hvalid hclock
  · exact scriptLines_eq_bundledLines_iff cs
  · exact scriptLines_eq_bundledLines

/-- A world with one script, `/s.latin`. -/
def latinWorld (text : String) : World :=
  { (default : World) with
    disk := [([], ⟨.dir, 0o755, ⟨0, 0⟩⟩),
      (["s.latin"], ⟨.file (utf8 text), 0o644, ⟨0, 0⟩⟩)]
    host := { (default : Host) with clock := quarterPast, version := (3, 11) } }

section Latin

variable (text : String)

theorem compile_latinWorld : compile "/s.latin" none (latinWorld text) =
    (.ok "/s.le", (compile "/s.latin" none (latinWorld text)).2) := by
  refine Prod.ext ?_ rfl
  simp only [compile, resolve, Files.isFile, Files.node?, Files.readBytes,
    Files.find, Files.checkPath, Files.writeBytes, Files.target,
    String.contains_char_eq]
  rfl

theorem resolve_latinWorld :
    resolve "/s.latin" (latinWorld text).toSite =
      (.ok "/s.latin", (latinWorld text).toSite) := by
  simp only [resolve, Files.isFile, Files.node?, String.contains_char_eq]
  rfl

theorem readBytes_latinWorld :
    Files.readBytes "/s.latin" (latinWorld text).toSite =
      (.ok (utf8 text), (latinWorld text).toSite) := by
  simp only [Files.readBytes, Files.find, Files.checkPath,
    String.contains_char_eq]
  rfl

end Latin

/-- Line feeds, carriage returns and both, and a line break in a comment, all
parts of which are comments. -/
theorem compiled_lines_agree_iff_mixed :
    runScript "/s.latin" (latinWorld "echo a\r\n# b\x0c# c\recho d") =
        (do runShown ["echo a", "echo d"]; Shell.waitForAll)
          (latinWorld "echo a\r\n# b\x0c# c\recho d") ∧
      runBundle "/s.le" (compile "/s.latin" none
        (latinWorld "echo a\r\n# b\x0c# c\recho d")).2 =
        (do runSilently ["echo a", "echo d"]; Shell.waitForAll; return true)
          (compile "/s.latin" none
            (latinWorld "echo a\r\n# b\x0c# c\recho d")).2 := by
  have hlines :
      scriptLines (unifyNewlines "echo a\r\n# b\x0c# c\recho d".toList) =
      ["echo a", "echo d"] := by
    decide
  have hbundled : bundledLines "echo a\r\n# b\x0c# c\recho d".toList =
      ["echo a", "echo d"] := by
    decide
  obtain ⟨hrun, hbundle, -, -⟩ := compiled_lines_agree_iff
    (compile_latinWorld "echo a\r\n# b\x0c# c\recho d") (resolve_latinWorld _)
    (by decide) (readBytes_latinWorld _) (decodeStrict_utf8Of _)
      (readBytes_latinWorld _) readDocument_quarterPast
  rw [hlines] at hrun
  rw [hbundled] at hbundle
  exact ⟨hrun, hbundle⟩

/-- A vertical tab is part of a line of the file, and a bundle runs what follows
it as a line of its own. -/
theorem compiled_lines_differ_verticalTab :
    runScript "/s.latin" (latinWorld "upper a\x0bb\n") =
        (do runShown ["upper a\x0bb"]; Shell.waitForAll)
          (latinWorld "upper a\x0bb\n") ∧
      runBundle "/s.le"
        (compile "/s.latin" none (latinWorld "upper a\x0bb\n")).2 =
        (do runSilently ["upper a", "b"]; Shell.waitForAll; return true)
          (compile "/s.latin" none (latinWorld "upper a\x0bb\n")).2 ∧
      ¬ (scriptLines (unifyNewlines "upper a\x0bb\n".toList) =
        bundledLines "upper a\x0bb\n".toList) := by
  have hlines : scriptLines (unifyNewlines "upper a\x0bb\n".toList) =
      ["upper a\x0bb"] := by
    decide
  have hbundled : bundledLines "upper a\x0bb\n".toList = ["upper a", "b"] := by
    decide
  have hrun := runScript_of_readBytes (readBytes_latinWorld "upper a\x0bb\n")
    (decodeStrict_utf8Of _)
  have hbundle := runBundle_of_compile (compile_latinWorld "upper a\x0bb\n")
    (resolve_latinWorld _)
    (by decide) (readBytes_latinWorld _) (decodeStrict_utf8Of _)
      readDocument_quarterPast
  rw [hlines] at hrun
  rw [hbundled] at hbundle
  refine ⟨hrun, hbundle, ?_⟩
  rw [hlines, hbundled]
  decide

end TaskShell.App

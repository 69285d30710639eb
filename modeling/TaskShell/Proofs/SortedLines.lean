import TaskShell.Proofs.ScriptLines

/-!
# Sorted and distinct lines

Lines are sorted by their code points, and repeated lines are dropped in two
ways: a line like the one right before it, or a line like any one before it.
Among sorted lines the two are the same, since like lines stand together.

Between the two commands the lines are joined to a text and cut from it again.
This loses one thing, an empty line at the end, and sorted lines end in one only
if all of them are empty.
-/

namespace TaskShell

open Act Text List

variable {cs : List Char} {ls : List String} {p : String}

namespace Text

/-! ## Joining lines and cutting them again -/

def Unbroken (l : String) : Prop := ∀ c ∈ l.toList, isLineBreak c = false

theorem unbroken_of_mem_lines {t l : String} (h : l ∈ lines t) :
    Unbroken l := by
  obtain ⟨cs, hcs, rfl⟩ := mem_map.1 h
  unfold Unbroken
  rw [String.toList_ofList]
  exact App.unbroken_of_mem_breakLines hcs

private theorem breakLinesFrom_plain {c : Char} (h : isLineBreak c = false)
    (cs line : List Char) :
    breakLinesFrom (c :: cs) line = breakLinesFrom cs (c :: line) := by
  have hpair : ∀ rest, c = '\r' → cs = '\n' :: rest → False := by
    rintro rest rfl -
    cases h
  rw [breakLinesFrom.eq_4 _ _ _ hpair, h, if_neg Bool.false_ne_true]

theorem breakLinesFrom_append (h : ∀ c ∈ cs, isLineBreak c = false)
    (rest line : List Char) :
    breakLinesFrom (cs ++ rest) line =
      breakLinesFrom rest (cs.reverse ++ line) := by
  induction cs generalizing line with
  | nil => rfl
  | cons c cs ih =>
    obtain ⟨hc, hcs⟩ := forall_mem_cons.1 h
    rw [cons_append, breakLinesFrom_plain hc, ih hcs,
      reverse_cons, append_assoc]
    rfl

theorem breakLines_feed (h : ∀ c ∈ cs, isLineBreak c = false)
    (rest : List Char) :
    breakLines (cs ++ '\n' :: rest) = cs :: breakLines rest := by
  calc breakLines (cs ++ '\n' :: rest) =
        breakLinesFrom ('\n' :: rest) cs.reverse := by
        rw [breakLines, breakLinesFrom_append h, append_nil]
    _ = cs.reverse.reverse :: breakLines rest := rfl
    _ = cs :: breakLines rest := by rw [reverse_reverse]

theorem breakLines_of_unbroken (h : ∀ c ∈ cs, isLineBreak c = false) :
    breakLines cs = if cs = [] then [] else [cs] := by
  have hread := breakLinesFrom_append h [] []
  rw [append_nil, append_nil] at hread
  rw [breakLines, hread]
  cases hrev : cs.reverse with
  | nil =>
    rw [if_pos (reverse_eq_nil_iff.1 hrev)]
    rfl
  | cons c rest =>
    have hne : cs ≠ [] := by
      rintro rfl
      cases hrev
    rw [if_neg hne]
    show [(c :: rest).reverse] = [cs]
    rw [← hrev, reverse_reverse]

theorem lines_feed {l : String} (h : Unbroken l) (t : String) :
    lines (l ++ "\n" ++ t) = l :: lines t := by
  have htext : (l ++ "\n" ++ t).toList = l.toList ++ '\n' :: t.toList := by
    rw [String.toList_append, String.toList_append, append_assoc]
    rfl
  rw [lines, htext, breakLines_feed h, map_cons, String.ofList_toList, ← lines]

theorem joinLines_cons_cons (l next : String) (ls : List String) :
    joinLines (l :: next :: ls) = l ++ "\n" ++ joinLines (next :: ls) :=
  String.intercalate_cons_cons

/-- **`lines` undoes `joinLines`**, but for an empty line at the end. -/
theorem lines_joinLines (h : ∀ l ∈ ls, Unbroken l) :
    lines (joinLines ls) =
      if ls.getLast? = some "" then ls.dropLast else ls := by
  induction ls with
  | nil => rfl
  | cons l ls ih =>
    obtain ⟨hl, hls⟩ := forall_mem_cons.1 h
    cases ls with
    | nil =>
      have hempty : l.toList = [] ↔ l = "" := String.toList_eq_nil_iff
      rw [joinLines, String.intercalate_singleton, lines,
        breakLines_of_unbroken hl]
      by_cases hnil : l = ""
      · simp [hnil]
      · simp [hempty, hnil]
    | cons next ls =>
      rw [joinLines_cons_cons, lines_feed hl, ih hls, getLast?_cons_cons]
      split
      · rw [dropLast_cons_cons]
      · rfl

/-! ## The order of lines -/

def codes (l : String) : List Nat := l.toList.map Char.toNat

private theorem map_toNat_lt_iff (as bs : List Char) :
    as.map Char.toNat < bs.map Char.toNat ↔ as < bs := by
  induction as generalizing bs with
  | nil => cases bs <;> simp
  | cons a as ih =>
    cases bs with
    | nil => simp
    | cons b bs =>
      have hlt : a.toNat < b.toNat ↔ a < b := UInt32.lt_iff_toNat_lt.symm
      rw [map_cons, map_cons, cons_lt_cons_iff, cons_lt_cons_iff, ih, hlt,
        Char.toNat_inj]

theorem codes_lt_iff {a b : String} :
    codes a < codes b ↔ a < b := map_toNat_lt_iff a.toList b.toList

theorem sortLines_perm (ls : List String) :
    (sortLines ls).Perm ls := mergeSort_perm ls _

theorem sortLines_pairwise (ls : List String) :
    (sortLines ls).Pairwise (· ≤ ·) := by
  have htrans : ∀ a b c : String, decide (a ≤ b) = true →
      decide (b ≤ c) = true → decide (a ≤ c) = true := by
    intro a b c hab hbc
    exact decide_eq_true
      (String.le_trans (of_decide_eq_true hab) (of_decide_eq_true hbc))
  have htotal : ∀ a b : String, (decide (a ≤ b) || decide (b ≤ a)) = true := by
    intro a b
    rw [Bool.or_eq_true, decide_eq_true_eq, decide_eq_true_eq]
    exact String.le_total a b
  exact (pairwise_mergeSort htrans htotal ls).imp of_decide_eq_true

theorem eq_empty_of_getLast? (h : ls.Pairwise (· ≤ ·))
    (hlast : ls.getLast? = some "") : ∀ l ∈ ls, l = "" := by
  obtain ⟨front, rfl⟩ := getLast?_eq_some_iff.1 hlast
  intro l hl
  rcases mem_append.1 hl with hl | hl
  · have hle := (pairwise_append.1 h).2.2 l hl "" (mem_singleton.2 rfl)
    exact String.le_antisymm hle (String.not_lt.1 fun hlt =>
      not_lt_nil _ (codes_lt_iff.2 hlt))
  · exact mem_singleton.1 hl

/-! ## Dropping repeated lines -/

/-- `dropRepeats` leaves of sorted lines, behind a line `p` that comes before
none of them, lines that increase. -/
theorem pairwise_dropRepeats (h : (p :: ls).Pairwise (· ≤ ·)) :
    (p :: dropRepeats (some p) ls).Pairwise (· < ·) := by
  induction ls generalizing p with
  | nil => exact pairwise_singleton _ p
  | cons l ls ih =>
    obtain ⟨hp, htail⟩ := pairwise_cons.1 h
    rw [dropRepeats]
    by_cases hl : p = l
    · subst hl
      rw [if_pos (beq_self_eq_true _)]
      exact ih htail
    · have hlt : p < l := Std.lt_of_le_of_ne (hp l mem_cons_self) hl
      have hrest := ih htail
      rw [if_neg (by simpa using hl)]
      refine pairwise_cons.2 ⟨forall_mem_cons.2 ⟨hlt, ?_⟩, hrest⟩
      intro m hm
      exact String.lt_trans hlt ((pairwise_cons.1 hrest).1 m hm)

/-- `dropRepeats` loses only lines like `p` and repetitions. -/
theorem mem_dropRepeats {m : String} :
    m ∈ p :: dropRepeats (some p) ls ↔ m ∈ p :: ls := by
  induction ls generalizing p with
  | nil => rfl
  | cons l ls ih =>
    rw [dropRepeats]
    by_cases hl : p = l
    · subst hl
      rw [if_pos (beq_self_eq_true _), ih]
      simp
    · rw [if_neg (by simpa using hl), mem_cons, ih, ← mem_cons]

/-- `dropSeen` drops a line that was seen before, which is the last one, if no
line comes before `p` and none that was seen behind it. -/
theorem dropSeen_eq_dropRepeats {seen : List String} (hp : p ∈ seen)
    (hseen : ∀ m ∈ seen, m ≤ p) (h : (p :: ls).Pairwise (· ≤ ·)) :
    dropSeen seen ls = dropRepeats (some p) ls := by
  induction ls generalizing p seen with
  | nil => rfl
  | cons l ls ih =>
    obtain ⟨hle, htail⟩ := pairwise_cons.1 h
    have hpl := hle l mem_cons_self
    rw [dropSeen, dropRepeats]
    by_cases hl : p = l
    · subst hl
      rw [if_pos (contains_iff_mem.2 hp), if_pos (beq_self_eq_true _)]
      exact ih hp hseen htail
    · have hnew : l ∉ seen :=
        fun hmem => hl (String.le_antisymm hpl (hseen l hmem))
      rw [if_neg (mt contains_iff_mem.1 hnew), if_neg (by simpa using hl)]
      refine congrArg (l :: ·)
        (ih mem_cons_self (forall_mem_cons.2 ⟨String.le_refl l, ?_⟩) htail)
      exact fun m hm => String.le_trans (hseen m hm) hpl

/-- **Sorted lines without repetitions.** `dropSeen` and `dropRepeats` leave the
same lines, each one once and in increasing order. -/
theorem distinct_of_sorted (h : ls.Pairwise (· ≤ ·)) :
    dropSeen [] ls = dropRepeats none ls ∧
    (dropRepeats none ls).Pairwise (· < ·) ∧
      ∀ l, l ∈ dropRepeats none ls ↔ l ∈ ls := by
  cases ls with
  | nil => exact ⟨rfl, List.Pairwise.nil, fun _ => Iff.rfl⟩
  | cons l ls =>
    have hdrop :
        dropRepeats none (l :: ls) = l :: dropRepeats (some l) ls := rfl
    have hseen : dropSeen [] (l :: ls) = l :: dropSeen [l] ls := rfl
    rw [hdrop, hseen, dropSeen_eq_dropRepeats (mem_singleton.2 rfl) (by simp) h]
    exact ⟨rfl, pairwise_dropRepeats h, fun _ => mem_dropRepeats⟩

end Text

namespace Shell

private theorem uniqCommand_text (s : Site) (t : String) :
    uniqCommand [("str", .text t)] s =
      (.ok (.text (joinLines (dropRepeats none (lines t)))), s) ∧
      uniqCommand [("str", .text t), ("all", .text "1")] s =
        (.ok (.text (joinLines (dropSeen [] (lines t)))), s) := by
  have hnot : Args.getD [("str", .text t)] "all" (.text "") = .text "" := rfl
  have hall : Args.getD [("str", .text t), ("all", .text "1")] "all"
      (.text "") = .text "1" := rfl
  have hno : ["1", "true", "yes"].contains (lower (trim "")) =
      false := by decide
  have hyes : ["1", "true", "yes"].contains (lower (trim "1")) =
      true := by decide
  unfold uniqCommand
  rw [hnot, hall, Value.display, hno, Value.display, hyes]
  exact ⟨rfl, rfl⟩

/-- **Sorting brings like lines together.** For every text the sorted text has
its lines in the order of their code points; cut again, these are the same
lines, or one fewer if all of them are empty. Dropping the repetitions right
after their like and dropping all repetitions then leave the same lines: each
line of the sorted text once, in strictly increasing order. -/
theorem sort_uniq_distinct (s : Site) (t : String) :
    ∃ sorted distinct : List String,
      sorted.Perm (lines t) ∧ sorted.Pairwise (fun a b => ¬ codes b < codes a) ∧
      Command.run .sort [("str", .text t)] s =
        (.ok (.text (joinLines sorted)), s) ∧
      ((∃ l ∈ lines t, l ≠ "") → lines (joinLines sorted) = sorted) ∧
      ((∀ l ∈ lines t, l = "") → lines (joinLines sorted) = sorted.dropLast) ∧
      dropRepeats none (lines (joinLines sorted)) = distinct ∧
      dropSeen [] (lines (joinLines sorted)) = distinct ∧
      Command.run .uniq [("str", .text (joinLines sorted))] s =
        (.ok (.text (joinLines distinct)), s) ∧
      Command.run .uniq
        [("str", .text (joinLines sorted)), ("all", .text "1")] s =
        (.ok (.text (joinLines distinct)), s) ∧
      distinct.Pairwise (fun a b => codes a < codes b) ∧ ∀ l, l ∈ distinct ↔
        l ∈ lines (joinLines sorted) := by
  have hperm := sortLines_perm (lines t)
  have hsorted := sortLines_pairwise (lines t)
  have hcut :=
    lines_joinLines fun l hl => unbroken_of_mem_lines (hperm.mem_iff.1 hl)
  have hlines : (lines (joinLines (sortLines (lines t)))).Pairwise (· ≤ ·) := by
    rw [hcut]
    split
    · exact hsorted.sublist (dropLast_sublist _)
    · exact hsorted
  obtain ⟨hsame, hincreasing, hmem⟩ := distinct_of_sorted hlines
  obtain ⟨hrepeats, hseen⟩ :=
    uniqCommand_text s (joinLines (sortLines (lines t)))
  rw [hsame] at hseen
  refine ⟨sortLines (lines t), _, hperm, ?_, rfl, ?_, ?_, rfl, hsame, hrepeats,
    hseen, ?_, hmem⟩
  · exact hsorted.imp fun hle hlt => String.not_lt.2 hle (codes_lt_iff.1 hlt)
  · rintro ⟨l, hl, hne⟩
    rw [hcut, if_neg]
    exact fun hlast =>
      hne (eq_empty_of_getLast? hsorted hlast l (hperm.mem_iff.2 hl))
  · intro hall
    rw [hcut]
    split
    · rfl
    · next hlast =>
      -- the last of only empty lines would be empty, so there is none
      cases hend : (sortLines (lines t)).getLast? with
      | none => rw [getLast?_eq_none_iff.1 hend, dropLast_nil]
      | some l =>
        exact absurd
          (hall l (hperm.mem_iff.1 (mem_of_getLast? hend)) ▸ hend) hlast
  · exact hincreasing.imp codes_lt_iff.2

end Shell

end TaskShell

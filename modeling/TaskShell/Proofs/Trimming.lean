import TaskShell.Text.Blank
import TaskShell.Text.Search

/-!
# Trimming

A text is its trimmed form between two runs of blanks. Whatever begins and ends
with characters that are not blank is therefore found in the one if and only if
it is found in the other, and a text is its own trimmed form if and only if it
begins and ends so itself.
-/

namespace TaskShell.Text

open List

variable {cs pat : List Char} {c : Char}

variable {p : Char → Bool}

/-! ## The trimmed form -/

theorem trimEnd_append_takeWhile (p : Char → Bool) (cs : List Char) :
    trimEnd p cs ++ (cs.reverse.takeWhile p).reverse = cs := by
  rw [trimEnd, ← reverse_append, takeWhile_append_dropWhile, reverse_reverse]

theorem trimEnd_isPrefix (p : Char → Bool) (cs : List Char) :
    trimEnd p cs <+: cs := ⟨_, trimEnd_append_takeWhile p cs⟩

/-- A text falls into characters that are dropped, what `trimBy` leaves, and
characters that are dropped. -/
theorem trimBy_spec (p : Char → Bool) (cs : List Char) :
    ∃ before after, cs = before ++ trimBy p cs ++ after ∧
      (∀ c ∈ before, p c = true) ∧ ∀ c ∈ after, p c = true := by
  refine ⟨cs.takeWhile p,
    ((trimStart p cs).reverse.takeWhile p).reverse, ?_, ?_, ?_⟩
  · rw [trimBy, append_assoc, trimEnd_append_takeWhile, trimStart,
      takeWhile_append_dropWhile]
  · exact all_eq_true.1 all_takeWhile
  · intro c hc
    exact all_eq_true.1 all_takeWhile c (mem_reverse.1 hc)

theorem head?_trimStart (h : (trimStart p cs).head? = some c) :
    p c = false := by
  have hnot := head?_dropWhile_not p cs
  rw [trimStart] at h
  rw [h] at hnot
  simpa using hnot

theorem getLast?_trimEnd (h : (trimEnd p cs).getLast? = some c) :
    p c = false := by
  rw [trimEnd, getLast?_reverse] at h
  exact head?_trimStart h

theorem head?_trimEnd (h : (trimEnd p cs).head? = some c) :
    cs.head? = some c := by
  rw [← trimEnd_append_takeWhile p cs, head?_append, h]
  rfl

/-- `trimBy` leaves a text that begins and ends with characters that stay. -/
theorem ends_trimBy (p : Char → Bool) (cs : List Char) :
    (∀ c, (trimBy p cs).head? = some c → p c = false) ∧
    ∀ c, (trimBy p cs).getLast? = some c → p c = false :=
  ⟨fun _ h => head?_trimStart (head?_trimEnd h), fun _ h => getLast?_trimEnd h⟩

theorem trimStart_eq_self (h : ∀ c, cs.head? = some c → p c = false) :
    trimStart p cs = cs := by
  cases cs with
  | nil => rfl
  | cons c cs => rw [trimStart, dropWhile_cons, h c rfl, if_neg (by decide)]

theorem trimEnd_eq_self (h : ∀ c, cs.getLast? = some c → p c = false) :
    trimEnd p cs = cs := by
  have hreverse : trimStart p cs.reverse = cs.reverse := by
    refine trimStart_eq_self fun c hc => h c ?_
    rwa [head?_reverse] at hc
  rw [trimEnd, ← trimStart, hreverse, reverse_reverse]

theorem trimBy_eq_self_iff : trimBy p cs = cs ↔
    (∀ c, cs.head? = some c → p c = false) ∧ ∀ c, cs.getLast? = some c →
      p c = false := by
  constructor
  · intro h
    have hends := ends_trimBy p cs
    rwa [h] at hends
  · rintro ⟨hhead, hlast⟩
    rw [trimBy, trimStart_eq_self hhead, trimEnd_eq_self hlast]

private theorem trimBy_trimBy (p : Char → Bool) (cs : List Char) :
    trimBy p (trimBy p cs) = trimBy p cs :=
  trimBy_eq_self_iff.2 (ends_trimBy p cs)

theorem trim_trim (s : String) : trim (trim s) = trim s := by
  unfold trim
  rw [String.toList_ofList, trimBy_trimBy]

theorem trim_eq_self_iff {s : String} : trim s = s ↔
    (∀ c, s.toList.head? = some c → isBlank c = false) ∧
    ∀ c, s.toList.getLast? = some c → isBlank c = false := by
  rw [← trimBy_eq_self_iff, trim]
  constructor
  · intro h
    simpa using congrArg String.toList h
  · intro h
    rw [h, String.ofList_toList]

theorem trimBy_eq_nil_iff : trimBy p cs = [] ↔ ∀ c ∈ cs, p c = true := by
  constructor
  · intro h
    obtain ⟨before, after, hcs, hbefore, hafter⟩ := trimBy_spec p cs
    rw [h, append_nil] at hcs
    rw [hcs]
    exact forall_mem_append.2 ⟨hbefore, hafter⟩
  · intro h
    have hdrop : (cs ++ []).dropWhile p = [].dropWhile p :=
      dropWhile_append_of_pos h
    rw [append_nil] at hdrop
    rw [trimBy, trimStart, hdrop]
    rfl

theorem forall_of_trimEnd_eq_nil (h : trimEnd p cs = []) :
    ∀ c ∈ cs, p c = true := by
  intro c hc
  rw [← trimEnd_append_takeWhile p cs, h, nil_append, mem_reverse] at hc
  exact all_eq_true.1 all_takeWhile c hc

/-- `trim` leaves nothing exactly if a text is all blanks. -/
theorem isEmpty_trim (s : String) :
    (trim s).isEmpty = s.toList.all isBlank := by
  rw [Bool.eq_iff_iff, String.isEmpty_iff, ← String.toList_eq_nil_iff,
    all_eq_true, ← trimBy_eq_nil_iff, trim, String.toList_ofList]

/-! ## What is found in a text -/

theorem occursIn_iff (pat cs : List Char) :
    occursIn pat cs = true ↔ pat <:+: cs := by
  unfold occursIn
  induction cs with
  | nil => cases pat <;> simp [indexOf?]
  | cons c cs ih =>
    rw [infix_cons_iff, ← ih, indexOf?]
    by_cases hhere : pat.isPrefixOf (c :: cs)
    · simp [hhere, isPrefixOf_iff_prefix.1 hhere]
    · have hnot : ¬ pat <+: c :: cs :=
        fun h => hhere ( isPrefixOf_iff_prefix.2 h)
      simp [hhere, hnot]

theorem prefix_of_prefix_append {before after : List Char} (hc : c ∉ pat)
    (h : pat <+: before ++ c :: after) : pat <+: before := by
  rcases prefix_or_prefix_of_prefix h (prefix_append before _)
    with hbefore | ⟨more, rfl⟩
  · exact hbefore
  · rw [prefix_append_right_inj] at h
    cases more with
    | nil => simp
    | cons d more =>
      rw [(cons_prefix_cons.1 h).1] at hc
      exact absurd (by simp) hc

theorem infix_append_cons_iff {s : Char} (h : s ∉ pat) (cs more : List Char) :
    pat <:+: cs ++ s :: more ↔ pat <:+: cs ∨ pat <:+: more := by
  constructor
  · intro hpat
    induction cs with
    | nil =>
      rcases infix_cons_iff.1 hpat with hhere | hlater
      · have hnone : pat <+: [] := prefix_of_prefix_append h hhere
        exact .inl hnone.isInfix
      · exact .inr hlater
    | cons c cs ih =>
      rcases infix_cons_iff.1 hpat with hhere | hlater
      · have hbefore : pat <+: c :: cs := prefix_of_prefix_append h hhere
        exact .inl hbefore.isInfix
      · exact (ih hlater).imp_left fun hcs => infix_cons hcs
  · rintro (⟨before, after, rfl⟩ | ⟨before, after, rfl⟩)
    · exact ⟨before, after ++ s :: more, by simp⟩
    · exact ⟨cs ++ s :: before, after, by simp⟩

theorem infix_of_infix_append {before : List Char} (hne : pat ≠ [])
    (hhead : ∀ c, pat.head? = some c → p c = false)
    (hbefore : ∀ c ∈ before, p c = true) (h : pat <:+: before ++ cs) :
    pat <:+: cs := by
  induction before with
  | nil => exact h
  | cons b before ih =>
    rw [cons_append, infix_cons_iff] at h
    rcases h with hhere | hlater
    · obtain ⟨c, pat, rfl⟩ := exists_cons_of_ne_nil hne
      obtain ⟨rfl, -⟩ := cons_prefix_cons.1 hhere
      have hdropped := hbefore c (by simp)
      rw [hhead c rfl] at hdropped
      contradiction
    · exact ih (fun c hc => hbefore c (mem_cons_of_mem _ hc)) hlater

/-- **What begins and ends with characters that stay is found in what `trimBy`
leaves** if it is found at all. -/
theorem occursIn_trimBy (cs : List Char) (hne : pat ≠ [])
    (hhead : ∀ c, pat.head? = some c → p c = false)
    (hlast : ∀ c, pat.getLast? = some c → p c = false) :
    occursIn pat (trimBy p cs) = occursIn pat cs := by
  obtain ⟨before, after, hcs, hbefore, hafter⟩ := trimBy_spec p cs
  rw [Bool.eq_iff_iff, occursIn_iff, occursIn_iff]
  constructor
  · rintro ⟨s, t, h⟩
    exact ⟨before ++ s, t ++ after, by rw [hcs, ← h]; simp⟩
  · intro h
    rw [hcs, append_assoc] at h
    have hstart : pat <:+: trimBy p cs ++ after :=
      infix_of_infix_append hne hhead hbefore h
    -- from the other end the characters behind the trimmed form come first
    rw [← reverse_infix, reverse_append] at hstart
    have hend : pat.reverse <:+: (trimBy p cs).reverse := by
      refine infix_of_infix_append (p := p) (by simpa using hne) ?_ ?_ hstart
      · intro c hc
        rw [head?_reverse] at hc
        exact hlast c hc
      · intro c hc
        exact hafter c (mem_reverse.1 hc)
    exact reverse_infix.1 hend

end TaskShell.Text

import TaskShell.Proofs.Delegation

/-!
# Blanks before a line

Blanks and tabs before a line are no part of its words, of its trimmed form or
of anything in quotes, so most lines do the same with and without them. Four
words take the text behind them as it stands, and they cut it out by counting
characters from the start of the line: as many as the word has. Blanks before
the line are counted too, so that the end of the word is left in the text.

## Main results

* `splitOrBlanks_indent`, `trim_indent`, `isLink_indent` - what blanks before a
  line leave alone.
* `postExpanded_indent` - the first half of a line does the same behind blanks,
  unless its word cuts the line.
* `remainder_indent_iff` - when blanks leave the text behind a word alone.
* `indented_dispatch` - what a line does behind blanks.
-/

namespace TaskShell.Text

open List

variable {p : Char → Bool}

/-! ## Trimming what begins with blanks -/

theorem trimBy_append {before : List Char} (h : ∀ c ∈ before, p c = true)
    (cs : List Char) :
    trimBy p (before ++ cs) = trimBy p cs := by
  rw [trimBy, trimBy, trimStart, trimStart, dropWhile_append_of_pos h]

theorem trimBy_append_of_kept {kept : List Char} (hne : kept ≠ [])
    (h : ∀ c ∈ kept, p c = false) (cs : List Char) :
    trimBy p (kept ++ cs) = kept ++ trimEnd p cs := by
  obtain ⟨d, rest, rfl⟩ := exists_cons_of_ne_nil hne
  have hstart : trimStart p (d :: rest ++ cs) = d :: rest ++ cs := by
    refine trimStart_eq_self fun c hc => h c ?_
    obtain rfl : d = c := Option.some.inj hc
    exact mem_cons_self
  have hself : trimEnd p (d :: rest) = d :: rest :=
    trimEnd_eq_self fun c hc => h c (mem_of_getLast? hc)
  rw [trimBy, hstart, trimEnd, reverse_append, dropWhile_append]
  split
  · next hall =>
    have hnone : trimEnd p cs = [] := by
      rw [trimEnd, List.isEmpty_iff.1 hall]
      rfl
    rw [hnone, append_nil]
    exact hself
  · rw [reverse_append, reverse_reverse]
    rfl

private theorem length_trimBy_le (p : Char → Bool) (cs : List Char) :
    (trimBy p cs).length ≤ (trimEnd p cs).length := by
  have hsplit :
      cs.reverse = (trimStart p cs).reverse ++ (cs.takeWhile p).reverse := by
    rw [← reverse_append, trimStart, takeWhile_append_dropWhile]
  rw [trimBy, trimEnd, trimEnd, hsplit, length_reverse, length_reverse,
    dropWhile_append]
  split
  · next hall =>
    rw [List.isEmpty_iff.1 hall]
    exact Nat.zero_le _
  · rw [length_append]
    exact Nat.le_add_right _ _

/-- Dropping as many characters as a word has, behind blanks, cuts into the word
unless there are as many blanks. More blanks before them leave the rest alone
only in that case. -/
theorem trimBy_drop_iff {before margin word : List Char}
    (hbefore : ∀ c ∈ before, p c = true)
    (hmargin : ∀ c ∈ margin, p c = true) (hword : ∀ c ∈ word, p c = false)
    (after : List Char) :
    trimBy p ((before ++ (margin ++ (word ++ after))).drop word.length) =
        trimBy p ((margin ++ (word ++ after)).drop word.length) ↔
      before = [] ∨ word.length ≤ margin.length := by
  by_cases hwide : word.length ≤ margin.length
  · have hdrop : ∀ blanks : List Char, (∀ c ∈ blanks, p c = true) →
      word.length ≤ blanks.length →
        trimBy p ((blanks ++ (word ++ after)).drop word.length) =
          trimBy p (word ++ after) := by
      intro blanks hblanks hle
      rw [drop_append_of_le_length hle]
      exact trimBy_append (fun c hc => hblanks c (mem_of_mem_drop hc)) _
    have hboth : ∀ c ∈ before ++ margin, p c = true :=
      fun c hc => (mem_append.1 hc).elim (hbefore c) (hmargin c)
    rw [← append_assoc, hdrop _ hboth (by rw [length_append]; omega),
      hdrop margin hmargin hwide]
    exact iff_of_true rfl (.inr hwide)
  · constructor
    · -- with blanks before it the text keeps more of the word
      intro hsame
      refine Or.inl (Classical.byContradiction fun hne => ?_)
      have hlength : 0 < before.length := length_pos_iff.2 hne
      obtain ⟨k, hk⟩ : ∃ k, word.length - margin.length = k := ⟨_, rfl⟩
      obtain ⟨m, hm⟩ : ∃ m,
        word.length - before.length - margin.length = m := ⟨_, rfl⟩
      have hshort : (margin ++ (word ++ after)).drop word.length =
          (word ++ after).drop k := by
        rw [drop_append, drop_eq_nil_of_le (by omega), nil_append, hk]
      have hlong :
        trimBy p ((before ++ (margin ++ (word ++ after))).drop word.length) =
          trimBy p ((word ++ after).drop m) := by
        rw [drop_append, drop_append, hm,
          trimBy_append fun c hc => hbefore c (mem_of_mem_drop hc),
          trimBy_append fun c hc => hmargin c (mem_of_mem_drop hc)]
      have hsplit : (word ++ after).drop m =
          (word.drop m).take (k - m) ++ (word ++ after).drop k := by
        have hend :
            (word ++ after).drop k = ((word ++ after).drop m).drop (k - m) := by
          rw [drop_drop, Nat.add_sub_cancel' (by omega)]
        have hstart : (word.drop m).take (k - m) =
            ((word ++ after).drop m).take (k - m) := by
          rw [drop_append_of_le_length (by omega),
            take_append_of_le_length (by rw [length_drop]; omega)]
        rw [hstart, hend, take_append_drop]
      have hkept : 0 < ((word.drop m).take (k - m)).length := by
        rw [length_take, length_drop]
        omega
      rw [hlong, hshort, hsplit,
        trimBy_append_of_kept (ne_nil_of_length_pos hkept) fun c hc =>
        hword c (mem_of_mem_drop (mem_of_mem_take hc))] at hsame
      have hle := length_trimBy_le p ((word ++ after).drop k)
      rw [← hsame, length_append] at hle
      omega
    · rintro (rfl | hle)
      · rfl
      · contradiction

end TaskShell.Text

namespace TaskShell.Words

open List

variable {c : Char} {first : List Char} {rest : List (List Char)}

/-! ## Where the first word of a line stands -/

def Solid (n : Nat) (cs : List Char) : Prop :=
  n ≤ cs.length ∧ ∀ c ∈ cs.take n, Text.isBlank c = false

theorem solid_zero (cs : List Char) : Solid 0 cs := ⟨Nat.zero_le _, by simp⟩

theorem Solid.mono {m n : Nat} {cs : List Char} (h : Solid n cs)
    (hle : m ≤ n) : Solid m cs :=
  ⟨Nat.le_trans hle h.1, fun c hc => h.2 c (take_subset_take_left cs hle hc)⟩

theorem Solid.cons {n : Nat} {cs : List Char} (hc : Text.isBlank c = false)
    (h : Solid n cs) : Solid (n + 1) (c :: cs) := by
  refine ⟨Nat.succ_le_succ h.1, ?_⟩
  rw [take_succ_cons]
  exact forall_mem_cons.2 ⟨hc, h.2⟩

def owed : Mode → Nat
  | .quotedEscape => 1
  | _ => 0

theorem isBlank_of_isQuote (h : isQuote c = true) : Text.isBlank c = false := by
  rw [isQuote, Bool.or_eq_true, beq_iff_eq, beq_iff_eq] at h
  rcases h with rfl | rfl
  · decide
  · decide

theorem isBlank_of_backslash (h : (c == '\\') = true) :
    Text.isBlank c = false := by
  rw [beq_iff_eq.1 h]
  decide

/-- A word without blanks that `splitFrom` reads has taken at least as many
characters from the line, quotes and backslashes among them, and none of these
is blank either. -/
theorem solid_splitFrom (cs : List Char) :
    ∀ (mode : Mode) (word : List Char), mode ≠ .between →
    (∀ q, mode = .quote q → Text.isBlank q = false) →
    ∀ first rest, splitFrom cs mode word = .ok (first :: rest) →
      (∀ c ∈ first, Text.isBlank c = false) →
      ∃ more, first = word.reverse ++ more ∧
        Solid (more.length - owed mode) cs := by
  induction cs with
  | nil =>
    intro mode word hmode _ first rest hfound _
    cases mode with
    | between => contradiction
    | bare =>
      cases hfound
      exact ⟨[], (append_nil _).symm, solid_zero []⟩
    | _ => cases hfound
  | cons d cs ih =>
    intro mode word hmode hquote first rest hfound hfirst
    -- a character that is read for itself, or one that only changes the mode
    have hkeep : ∀ next, next ≠ .between →
      (∀ q, next = .quote q → Text.isBlank q = false) → owed next = 0 →
        splitFrom cs next (d :: word) = .ok (first :: rest) →
        ∃ more, first = word.reverse ++ more ∧ Solid more.length (d :: cs) := by
      intro next hnext hnextQuote howed hread
      obtain ⟨more, hmore, hsolid⟩ :=
        ih next (d :: word) hnext hnextQuote first rest hread hfirst
      rw [howed, Nat.sub_zero] at hsolid
      rw [reverse_cons, append_assoc] at hmore
      exact ⟨d :: more, hmore, hsolid.cons (hfirst d (by rw [hmore]; simp))⟩
    have hskip : ∀ next, next ≠ .between →
      (∀ q, next = .quote q → Text.isBlank q = false) →
        Text.isBlank d = false → splitFrom cs next word = .ok (first :: rest) →
        ∃ more, first = word.reverse ++ more ∧ Solid more.length (d :: cs) := by
      intro next hnext hnextQuote hd hread
      obtain ⟨more, hmore, hsolid⟩ :=
        ih next word hnext hnextQuote first rest hread hfirst
      refine ⟨more, hmore, (hsolid.cons hd).mono ?_⟩
      cases next with
      | quotedEscape => exact Nat.le_add_of_sub_le (Nat.le_refl _)
      | _ => exact Nat.le_succ _
    cases mode with
    | between => contradiction
    | bare =>
      simp only [splitFrom] at hfound
      split at hfound
      · rcases hmore : splitFrom cs .between [] with e | more
        · rw [hmore] at hfound
          cases hfound
        · rw [hmore] at hfound
          cases hfound
          exact ⟨[], (append_nil _).symm, solid_zero _⟩
      · split at hfound
        · next hq =>
          refine hskip _ (by simp) ?_ (isBlank_of_isQuote hq) hfound
          rintro q ⟨⟩
          exact isBlank_of_isQuote hq
        · split at hfound
          · next hb =>
            exact hskip _ (by simp) (by simp) (isBlank_of_backslash hb) hfound
          · exact hkeep _ (by simp) (by simp) rfl hfound
    | quote q =>
      simp only [splitFrom] at hfound
      split at hfound
      · next hq =>
        refine hskip _ (by simp) (by simp) ?_ hfound
        rw [beq_iff_eq.1 hq]
        exact hquote q rfl
      · split at hfound
        · next hb =>
          exact hskip _ (by simp) (by simp)
            (isBlank_of_backslash (Bool.and_eq_true_iff.1 hb).1) hfound
        · exact hkeep _ (by simp) hquote rfl hfound
    | escape => exact hkeep _ (by simp) (by simp) rfl hfound
    | quotedEscape =>
      have hdouble : ∀ q, Mode.quote '"' = .quote q →
          Text.isBlank q = false := by
        rintro q ⟨⟩
        decide
      simp only [splitFrom] at hfound
      split at hfound
      · obtain ⟨more, hmore, hsolid⟩ := hkeep _ (by simp) hdouble rfl hfound
        exact ⟨more, hmore, hsolid.mono (Nat.sub_le _ _)⟩
      · -- the backslash read before becomes part of the word with this
        -- character
        obtain ⟨more, hmore, hsolid⟩ :=
          ih _ _ (by simp) hdouble first rest hfound hfirst
        rw [reverse_cons, reverse_cons, append_assoc, append_assoc] at hmore
        exact ⟨'\\' :: d :: more, hmore,
          hsolid.cons (hfirst d (by rw [hmore]; simp))⟩

theorem solid_wordsFrom (cs word : List Char) (hword : word ≠ [])
    (hfound : Text.wordsFrom cs word = first :: rest) :
    ∃ more, first = word.reverse ++ more ∧ Solid more.length cs := by
  fun_induction Text.wordsFrom cs word with
  | case1 => contradiction
  | case2 word _ =>
    cases hfound
    exact ⟨[], (append_nil _).symm, solid_zero []⟩
  | case3 d cs hblank ih => contradiction
  | case4 d cs word hblank hne ih =>
    cases hfound
    exact ⟨[], (append_nil _).symm, solid_zero _⟩
  | case5 d cs word hblank ih =>
    obtain ⟨more, hmore, hsolid⟩ := ih (cons_ne_nil _ _) hfound
    refine ⟨d :: more, ?_, hsolid.cons (by simpa using hblank)⟩
    rw [hmore, reverse_cons, append_assoc]
    rfl

private theorem isBlank_of_isSeparator (h : isSeparator c = true) :
    Text.isBlank c = true := by
  simp only [isSeparator, Bool.or_eq_true, beq_iff_eq] at h
  rcases h with ((rfl | rfl) | rfl) | rfl
  · decide
  · decide
  · decide
  · decide

theorem solid_between (hfirst : ∀ c ∈ first, Text.isBlank c = false)
    (cs : List Char) (hfound : splitFrom cs .between [] = .ok (first :: rest)) :
    Solid first.length (cs.dropWhile Text.isBlank) := by
  induction cs with
  | nil => cases hfound
  | cons c cs ih =>
    simp only [splitFrom] at hfound
    split at hfound
    · next hseparator =>
      rw [dropWhile_cons_of_pos (isBlank_of_isSeparator hseparator)]
      exact ih hfound
    · -- the word begins at this character
      have hbegin : Text.isBlank c = false → Solid first.length (c :: cs) →
          Solid first.length ((c :: cs).dropWhile Text.isBlank) := by
        intro hc hsolid
        rwa [dropWhile_cons_of_neg (by rw [hc]; exact Bool.false_ne_true)]
      split at hfound
      · next hb =>
        obtain ⟨more, rfl, hsolid⟩ :=
          solid_splitFrom cs _ _ (by simp) (by simp) first rest hfound hfirst
        have hc := isBlank_of_backslash hb
        exact hbegin hc ((hsolid.cons hc).mono (Nat.le_succ _))
      · split at hfound
        · next hq =>
          have hc := isBlank_of_isQuote hq
          have hquote : ∀ q, Mode.quote c = .quote q →
              Text.isBlank q = false := by
            rintro q ⟨⟩
            exact hc
          obtain ⟨more, rfl, hsolid⟩ :=
            solid_splitFrom cs _ _ (by simp) hquote first rest hfound hfirst
          exact hbegin hc ((hsolid.cons hc).mono (Nat.le_succ _))
        · obtain ⟨more, rfl, hsolid⟩ :=
            solid_splitFrom cs _ _ (by simp) (by simp) first rest hfound hfirst
          have hc := hfirst c (by simp)
          exact hbegin hc (hsolid.cons hc)

private theorem solid_words (cs : List Char)
    (hfound : Text.wordsFrom cs [] = first :: rest) :
    Solid first.length (cs.dropWhile Text.isBlank) := by
  induction cs with
  | nil => cases hfound
  | cons c cs ih =>
    conv at hfound => lhs; unfold Text.wordsFrom
    by_cases hblank : Text.isBlank c = true
    · rw [dropWhile_cons_of_pos hblank]
      exact ih ((if_pos hblank).symm.trans hfound)
    · obtain ⟨more, rfl, hsolid⟩ := solid_wordsFrom cs [c] (cons_ne_nil _ _)
        ((if_neg hblank).symm.trans hfound)
      rw [dropWhile_cons_of_neg hblank]
      exact hsolid.cons (by simpa using hblank)

/-- **A first word without blanks stands behind the blanks before a line**: as
many characters as it has follow them, in whatever quotes, before any blank
does. -/
theorem solid_splitOrBlanks {line word : String}
    (hword : (splitOrBlanks line).head? = some word)
    (hsolid : ∀ c ∈ word.toList, Text.isBlank c = false) :
    Solid word.length (line.toList.dropWhile Text.isBlank) := by
  rw [← String.length_toList]
  unfold splitOrBlanks split at hword
  rcases hsplit : splitFrom line.toList .between [] with e | found
  · rw [hsplit] at hword
    obtain ⟨first, hfirst, rfl⟩ :=
      Option.map_eq_some_iff.1 ((head?_map).symm.trans hword)
    obtain ⟨rest, hfound⟩ := head?_eq_some_iff.1 hfirst
    rw [String.toList_ofList]
    exact solid_words _ hfound
  · rw [hsplit] at hword
    obtain ⟨first, hfirst, rfl⟩ :=
      Option.map_eq_some_iff.1 ((head?_map).symm.trans hword)
    obtain ⟨rest, rfl⟩ := head?_eq_some_iff.1 hfirst
    rw [String.toList_ofList] at hsolid ⊢
    exact solid_between hsolid _ hsplit

end TaskShell.Words

namespace TaskShell.Shell

open Act Text Words List

variable {line word indent : String} {w : World}

/-! ## What blanks before a line leave alone -/

def IsIndent (s : String) : Prop := ∀ c ∈ s.toList, c = ' ' ∨ c = '\t'

section Indent

variable (h : IsIndent indent)
include h

theorem IsIndent.separators : ∀ c ∈ indent.toList, isSeparator c = true := by
  intro c hc
  rcases h c hc with rfl | rfl
  · decide
  · decide

theorem IsIndent.blanks : ∀ c ∈ indent.toList, isBlank c = true := by
  intro c hc
  rcases h c hc with rfl | rfl
  · decide
  · decide

theorem splitOrBlanks_indent (line : String) :
    splitOrBlanks (indent ++ line) = splitOrBlanks line := by
  unfold splitOrBlanks split words wordsOf
  rw [String.toList_append, splitFrom_append h.separators,
    wordsFrom_append h.blanks]

theorem trim_indent (line : String) : trim (indent ++ line) = trim line := by
  unfold trim
  rw [String.toList_append, trimBy_append h.blanks]

theorem toggles_indent (line : String) :
    Toggles (indent ++ line) ↔ Toggles line := by
  unfold Toggles
  rw [trim_indent h]

theorem all_isBlank_indent (line : String) :
    (indent ++ line).toList.all isBlank = line.toList.all isBlank := by
  rw [String.toList_append, all_append, all_eq_true.2 h.blanks, Bool.true_and]

private theorem wasQuoted_indent (hne : line ≠ "") (word : String) :
    wasQuoted word (some (indent ++ line)) = wasQuoted word (some line) := by
  have hline : line.isEmpty = false := by
    rwa [String.isEmpty_eq_false_iff]
  have hindented : (indent ++ line).isEmpty = false := by
    rw [String.isEmpty_eq_false_iff, ne_eq, ← String.toList_eq_nil_iff,
      String.toList_append, append_eq_nil_iff, String.toList_eq_nil_iff,
      String.toList_eq_nil_iff]
    exact fun hempty => hne hempty.2
  have hfind : ∀ (c : Char) (inner : List Char), isBlank c = false →
    ∀ pat : String, pat.toList = c :: inner →
      contains (indent ++ line) pat = contains line pat := by
    intro c inner hc pat hpat
    unfold Text.contains
    rw [hpat, String.toList_append, Bool.eq_iff_iff, occursIn_iff, occursIn_iff]
    constructor
    · refine infix_of_infix_append (cons_ne_nil _ _) ?_ h.blanks
      rintro d ⟨⟩
      exact hc
    · exact fun hinfix => hinfix.trans (suffix_append _ _).isInfix
  unfold wasQuoted
  dsimp only
  rw [hline, hindented, hfind '"' (word.toList ++ ['"']) (by decide) _
    (by simp), hfind '\'' (word.toList ++ ['\'']) (by decide) _ (by simp),
    hfind '$' ('\x7b' :: (word.toList ++ ['\x7d'])) (by decide) _ (by simp)]

theorem isLink_indent (hne : line ≠ "") :
    isLink (some (indent ++ line)) = isLink (some line) := by
  funext word
  rw [isLink, isLink, wasQuoted_indent h hne]

end Indent

private theorem firstChain_congr {text text' : Option String}
    (h : isLink text = isLink text') (words : List String) (i : Nat) :
    firstChain text words i = firstChain text' words i := by
  induction words generalizing i with
  | nil => rfl
  | cons word rest ih => rw [firstChain, firstChain, h, ih]

theorem runComposed_congr {text text' : Option String}
    (h : isLink text = isLink text') (command : String) (parts : List String) :
    runComposed command parts text = runComposed command parts text' := by
  have hlocate : locate? parts text = locate? parts text' := by
    simp only [locate?, firstChain_congr h]
  unfold runComposed
  rw [hlocate]

/-! ## Lines whose first word takes the text behind it -/

/-- The words that take the text behind them as it stands. -/
def cuttingWords : List String := ["!pwsh", "!cmd", "!multithread", "!mt"]

/-- What one of the `cuttingWords` does with its text. -/
def handOn (word text : String) : Act Demand :=
  if word == "!pwsh" then dispatchOther text >>= fun _ => pure .nothing
  else if word == "!cmd" then dispatchSystem text >>= fun _ => pure .nothing
  else postMany text

def margin (line : String) : Nat := (line.toList.takeWhile isBlank).length

theorem not_isBlank_of_cuttingWord (h : word ∈ cuttingWords) :
    ∀ c ∈ word.toList, isBlank c = false := by
  have hall : cuttingWords.all (fun word => word.toList.all fun c =>
      !isBlank c) = true := by decide
  intro c hc
  have hc' := all_eq_true.1 (all_eq_true.1 hall word h) c hc
  rwa [Bool.not_eq_true'] at hc'

private theorem not_toggles_of_cuttingWord
    (hword : (splitOrBlanks line).head? = some word)
    (hcuts : word ∈ cuttingWords) : ¬ Toggles line := by
  have hletters : ∀ word ∈ cuttingWords, ∃ c ∈ ['w', 'c', 't'], c ∈
      word.toList := by
    simp only [cuttingWords, forall_mem_cons]
    exact ⟨⟨'w', by decide, by decide⟩, ⟨'c', by decide, by decide⟩,
      ⟨'t', by decide, by decide⟩, ⟨'t', by decide, by decide⟩,
      forall_mem_nil _⟩
  have hlines : (['w', 'c', 't'].all fun c => (quietLines ++ loudLines).all
      fun toggle => c ∉ toggle.toList) = true := by
    decide
  have hplain : ∀ c ∈ ['w', 'c', 't'], c ≠ capitalSigma ∧
      isBlank c = false := by
    simp only [forall_mem_cons]
    exact ⟨⟨by decide, rfl⟩, ⟨by decide, rfl⟩, ⟨by decide, rfl⟩,
      forall_mem_nil _⟩
  have hlower : ∀ c ∈ ['w', 'c', 't'], lowerOf c = [c] := by
    simp only [forall_mem_cons]
    exact ⟨rfl, rfl, rfl, by simp⟩
  obtain ⟨c, hc, hin⟩ := hletters word hcuts
  have hline : c ∈ line.toList :=
    mem_of_mem_splitOrBlanks (mem_of_mem_head? hword) hin
  have hlow : c ∈ (lower (trim line)).toList :=
    mem_lower (hplain c hc).1 (hlower c hc) (mem_trim (hplain c hc).2 hline)
  intro htoggles
  exact of_decide_eq_true
    (all_eq_true.1 (all_eq_true.1 hlines c hc) _ htoggles) hlow

theorem postExpanded_of_cuttingWord
    (hword : (splitOrBlanks line).head? = some word)
    (hcuts : word ∈ cuttingWords) :
    postExpanded line = handOn word (remainder line word.length) := by
  obtain ⟨rest, hwords⟩ := head?_eq_some_iff.1 hword
  rw [postExpanded_of_words (not_toggles_of_cuttingWord hword hcuts) hwords]
  have hlast : ∀ word ∈ cuttingWords, ¬ (word == "!pwsh") → ¬ (word == "!cmd") →
      (word == "!multithread" || word == "!mt") = true := by
    decide
  unfold handOn
  split
  · rfl
  · next hpwsh =>
    split
    · rfl
    · next hcmd => rw [if_pos (hlast word hcuts hpwsh hcmd)]

/-- **Blanks before a line leave its `remainder` alone** only if there are none,
or if the line has enough blanks of its own for the whole word to stay in the
text. -/
theorem remainder_indent_iff (h : IsIndent indent)
    (hword : (splitOrBlanks line).head? = some word)
    (hcuts : word ∈ cuttingWords) :
    remainder (indent ++ line) word.length = remainder line word.length ↔
      indent = "" ∨ word.length ≤ margin line := by
  obtain ⟨hlength, hsolid⟩ :=
    solid_splitOrBlanks hword (not_isBlank_of_cuttingWord hcuts)
  have htake : ((line.toList.dropWhile isBlank).take word.length).length =
      word.length :=
    length_take_of_le hlength
  have hline : line.toList = line.toList.takeWhile isBlank ++
    ((line.toList.dropWhile isBlank).take word.length ++
      (line.toList.dropWhile isBlank).drop word.length) := by
    rw [take_append_drop, takeWhile_append_dropWhile]
  have hblank : ∀ c ∈ line.toList.takeWhile isBlank, isBlank c = true :=
    all_eq_true.1 all_takeWhile
  have hiff := trimBy_drop_iff h.blanks hblank hsolid
    ((line.toList.dropWhile isBlank).drop word.length)
  rw [htake, ← hline] at hiff
  have hremainder : ∀ text : String,
      (remainder text word.length).toList =
        trimBy isBlank (text.toList.drop word.length) := by
    intro text
    rw [remainder, trim, String.toList_ofList, String.toList_ofList]
  rw [← String.toList_inj, hremainder, hremainder, String.toList_append, hiff,
    String.toList_eq_nil_iff]
  rfl

/-! ## Lines of other words -/

/-- With debug messages held back, `postOne` does not depend on blanks before a
line. -/
theorem postOne_indent (hquiet : w.quiet = true)
    (h : IsIndent indent) (hne : line ≠ "") (command : String)
    (words : List String) :
    postOne (indent ++ line) command words w =
      postOne line command words w := by
  unfold postOne
  rw [runComposed_congr (isLink_indent h hne)]
  have hdirect : Direct True (composedNames command words (some line))
      (runComposed command words (some line)) := direct_runComposed _ _ _
  obtain ⟨composed, t, ht⟩ := hdirect.sure_of trivial w
  have hquiet' : t.quiet = true := by
    have hsame := hdirect.plain.quiet w
    rw [ht] at hsame
    rw [hsame, hquiet]
  rw [bind_of_ok ht, bind_of_ok ht]
  cases composed with
  | some s => rfl
  | none =>
    refine bind_congr_of_ok fun handled u hu => ?_
    cases handled with
    | some out => rfl
    | none =>
      have hquiet'' : u.quiet = true := by
        have hdirect : Direct True [command]
            (callBuiltin command (argsOf words)) :=
          direct_callBuiltin command fun _ => texts_argsOf words
        have hsame := hdirect.plain.quiet t
        rw [hu] at hsame
        rw [hsame, hquiet']
      -- the note is the only place where the text of the line counts
      unfold postTask noteTask
      dsimp only
      rw [get_bind_apply, get_bind_apply,
        bind_of_ok (logDebug_of_quiet hquiet'' _),
        bind_of_ok (logDebug_of_quiet hquiet'' _)]

/-- `postExpanded` does not depend on blanks before a line unless its first word
is one of `cuttingWords`. -/
theorem postExpanded_indent (hquiet : w.quiet = true)
    (h : IsIndent indent)
    (hword : ∀ word, (splitOrBlanks line).head? = some word →
      word ∉ cuttingWords) :
    postExpanded (indent ++ line) w = postExpanded line w := by
  by_cases htoggles : Toggles line
  · unfold postExpanded
    rw [trim_indent h]
    dsimp only
    rcases mem_append.1 htoggles with hquietLine | hloudLine
    · rw [if_pos (contains_iff_mem.2 hquietLine),
        if_pos (contains_iff_mem.2 hquietLine)]
    · rw [if_pos (contains_iff_mem.2 hloudLine),
        if_pos (contains_iff_mem.2 hloudLine)]
  · have htoggles' : ¬ Toggles (indent ++ line) := by rwa [toggles_indent h]
    cases hwords : splitOrBlanks line with
    | nil =>
      rw [postExpanded_of_no_words htoggles hwords,
        postExpanded_of_no_words htoggles'
          (by rw [splitOrBlanks_indent h, hwords])]
    | cons command rest =>
      have hnot := hword command (by rw [hwords]; rfl)
      have hne : line ≠ "" := by
        rintro rfl
        cases hwords
      simp only [cuttingWords, mem_cons, not_mem_nil, or_false, not_or] at hnot
      rw [postExpanded_of_words htoggles hwords,
        postExpanded_of_words htoggles'
          (by rw [splitOrBlanks_indent h, hwords])]
      simp only [beq_iff_eq, Bool.or_eq_true, hnot, if_false, or_self]
      exact postOne_indent hquiet h hne command _

/-! ## Aliases -/

private theorem expandAliasOnce_indent (h : IsIndent indent)
    (aliases : List (String × String))
    (line : String) : expandAliasOnce aliases (indent ++ line) =
      expandAliasOnce aliases line := by
  unfold expandAliasOnce
  rw [splitOrBlanks_indent h]

/-- A line that is not blank either has an alias at its start, which takes the
place of the blanks too, or stays as it is with the blanks before it. -/
theorem expandedIn_indent (w : World) (h : IsIndent indent)
    (hblank : ¬ line.toList.all isBlank) :
    expandedIn w (indent ++ line) = expandedIn w line ∧
        (∃ word, (splitOrBlanks line).head? = some word ∧
          w.aliases.lookup word ≠ none) ∨
      expandedIn w (indent ++ line) = indent ++ line ∧
      expandedIn w line = line ∧
        ∀ word, (splitOrBlanks line).head? = some word →
          w.aliases.lookup word = none := by
  have hexpand : ∀ text : String, ¬ text.toList.all isBlank →
    expandAliasOnce w.aliases text = expandAliasOnce w.aliases line →
      expandedIn w text = ((expandAliasOnce w.aliases line).map
        (expandAliasesAtMost w.aliases 4)).getD text := by
    intro text htext honce
    unfold expandedIn expandAliases
    rw [if_neg htext]
    show expandAliasesAtMost w.aliases (4 + 1) text = _
    rw [expandAliasesAtMost, honce]
    cases expandAliasOnce w.aliases line with
    | none => rfl
    | some expanded => rfl
  have hindented := hexpand (indent ++ line) (by rwa [all_isBlank_indent h])
    (expandAliasOnce_indent h _ _)
  have hown := hexpand line hblank rfl
  cases hwords : splitOrBlanks line with
  | nil =>
    have hnone : expandAliasOnce w.aliases line = none := by
      rw [expandAliasOnce, hwords]
    rw [hnone] at hindented hown
    exact .inr ⟨hindented, hown, fun word hword => by cases hword⟩
  | cons first rest =>
    cases halias : w.aliases.lookup first with
    | none =>
      have hnone : expandAliasOnce w.aliases line = none := by
        simp only [expandAliasOnce, hwords, halias, Option.map_none]
      rw [hnone] at hindented hown
      refine .inr ⟨hindented, hown, ?_⟩
      rintro word ⟨⟩
      exact halias
    | some expansion =>
      obtain ⟨expanded, hsome⟩ : ∃ expanded, expandAliasOnce w.aliases line =
          some expanded := by
        simp only [expandAliasOnce, hwords, halias, Option.map_some]
        exact ⟨_, rfl⟩
      rw [hsome] at hindented hown
      refine .inl ⟨hindented.trans hown.symm, first, rfl, ?_⟩
      rw [halias]
      exact Option.some_ne_none _

/-! ## Whole lines -/

theorem dispatch_of_quiet (hquiet : w.quiet = true)
    (hblank : ¬ line.toList.all isBlank) :
    dispatch line w =
      (postExpanded (expandedIn w line) >>= collectResults) w := by
  have htell : tellExpansion w line w = (.ok ⟨⟩, w) := by
    unfold tellExpansion
    split
    · exact logDebug_of_quiet hquiet _
    · rfl
  have hpost : post line w = postExpanded (expandedIn w line) w := by
    rw [post_eq line hblank, get_bind_apply, bind_of_ok htell]
  unfold dispatch
  exact bind_of_eq hpost _

/-- The first word of a line is no alias, and is one of `cuttingWords`. -/
structure Cuts (w : World) (line word : String) : Prop where
  head : (splitOrBlanks line).head? = some word
  mem : word ∈ cuttingWords
  plain : w.aliases.lookup word = none

/-- A line that `Cuts` hands on the text behind as many characters as the word
has. -/
theorem dispatch_cuts (hquiet : w.quiet = true) (hcuts : Cuts w line word)
    (h : IsIndent indent) :
    dispatch (indent ++ line) w = (handOn word
      (remainder (indent ++ line) word.length) >>= collectResults) w := by
  have hblank : ¬ line.toList.all isBlank := by
    intro hall
    obtain ⟨c, hc⟩ := exists_mem_of_ne_nil word.toList (by
      have hne : ∀ word ∈ cuttingWords, word.toList ≠ [] := by decide
      exact hne word hcuts.mem)
    have hline : c ∈ line.toList :=
      mem_of_mem_splitOrBlanks (mem_of_mem_head? hcuts.head) hc
    have hblank := all_eq_true.1 hall c hline
    rw [not_isBlank_of_cuttingWord hcuts.mem c hc] at hblank
    contradiction
  have hexpanded : expandedIn w (indent ++ line) = indent ++ line := by
    rcases expandedIn_indent w h hblank
      with ⟨-, other, hother, halias⟩ | ⟨hsame, -⟩
    · rw [hcuts.head] at hother
      obtain rfl := Option.some.inj hother
      exact absurd hcuts.plain halias
    · exact hsame
  have hhead : (splitOrBlanks (indent ++ line)).head? = some word := by
    rw [splitOrBlanks_indent h, hcuts.head]
  rw [dispatch_of_quiet hquiet (by rwa [all_isBlank_indent h]), hexpanded,
    postExpanded_of_cuttingWord hhead hcuts.mem]

theorem isIndent_empty : IsIndent "" := by
  intro c hc
  cases hc

/-- **Blanks before a line.** With debug messages held back, a line does the
same with blanks and tabs before it as without them: the same in the same world,
with the same output. The exception is a line whose first word, which is no
alias, takes the text behind it. Such a line hands on what follows the first
characters of the line, as many as the word has, and with blanks before it this
is another text unless the line itself begins with as many blanks. -/
theorem indented_dispatch {w : World} (hquiet : w.quiet = true)
    {indent : String} (h : IsIndent indent) (line : String) :
    ((∀ word, Cuts w line word → indent = "" ∨ word.length ≤ margin line) →
      dispatch (indent ++ line) w = dispatch line w) ∧
    ∀ word, Cuts w line word →
      dispatch line w =
        (handOn word (remainder line word.length) >>= collectResults) w ∧
      dispatch (indent ++ line) w = (handOn word
        (remainder (indent ++ line) word.length) >>= collectResults) w ∧
      (remainder (indent ++ line) word.length = remainder line word.length ↔
        indent = "" ∨ word.length ≤ margin line) := by
  have hcut : ∀ word, Cuts w line word →
      dispatch line w =
        (handOn word (remainder line word.length) >>= collectResults) w := by
    intro word hcuts
    have hown := dispatch_cuts hquiet hcuts isIndent_empty
    rwa [String.empty_append] at hown
  refine ⟨fun hwide => ?_, fun word hcuts =>
    ⟨hcut word hcuts, dispatch_cuts hquiet hcuts h,
      remainder_indent_iff h hcuts.head hcuts.mem⟩⟩
  by_cases hblank : line.toList.all isBlank
  · have hboth : ∀ text : String, text.toList.all isBlank →
        dispatch text w = (.ok ⟨⟩, w) := by
      intro text htext
      unfold dispatch post
      rw [if_pos htext]
      rfl
    rw [hboth line hblank, hboth _ (by rwa [all_isBlank_indent h])]
  · by_cases hcuts : ∃ word, Cuts w line word
    · obtain ⟨word, hcuts⟩ := hcuts
      rw [dispatch_cuts hquiet hcuts h, hcut word hcuts,
        (remainder_indent_iff h hcuts.head hcuts.mem).2 (hwide word hcuts)]
    · rw [dispatch_of_quiet hquiet hblank,
        dispatch_of_quiet hquiet (by rwa [all_isBlank_indent h])]
      refine bind_of_eq ?_ _
      rcases expandedIn_indent w h hblank
        with ⟨hsame, -⟩ | ⟨hindented, hown, hplain⟩
      · rw [hsame]
      · rw [hindented, hown]
        exact postExpanded_indent hquiet h fun word hword hmem =>
          hcuts ⟨word, hword, hmem, hplain word hword⟩

def quietWorld : World := { (default : World) with quiet := true }

/-- Three blanks are enough for `!mt`: more before them change nothing. -/
theorem indented_dispatch_margin :
    quietWorld.quiet = true ∧ IsIndent " \t" ∧
    Cuts quietWorld "   !mt echo a" "!mt" ∧
      dispatch (" \t" ++ "   !mt echo a") quietWorld =
        dispatch "   !mt echo a" quietWorld := by
  have hindent : IsIndent " \t" := by simp [IsIndent]
  have hhead : (splitOrBlanks "   !mt echo a").head? = some "!mt" := by rfl
  refine ⟨rfl, hindent, ⟨hhead, by decide, rfl⟩,
    (indented_dispatch rfl hindent "   !mt echo a").1 ?_⟩
  intro word hcuts
  obtain rfl : "!mt" = word := Option.some.inj (hhead.symm.trans hcuts.head)
  exact .inr (by decide)

/-- One blank before `!mt` leaves its last letter in the text, where it is taken
for a command. -/
theorem indented_mt_differs :
    (dispatch "!mt" quietWorld).2.out = "" ∧
      (dispatch (" " ++ "!mt") quietWorld).2.out =
        "Unbekanntes Kommando: t\n" := by
  have hcuts : Cuts quietWorld "!mt" "!mt" := ⟨by rfl, by decide, rfl⟩
  constructor
  · have hown := dispatch_cuts rfl hcuts isIndent_empty
    have htext : remainder "!mt" "!mt".length = "" := by rfl
    rw [String.empty_append, htext] at hown
    rw [hown]
    rfl
  · have hblank : IsIndent " " := by simp [IsIndent]
    have hindented := dispatch_cuts rfl hcuts hblank
    have htext : remainder (" " ++ "!mt") "!mt".length = "t" := by rfl
    have htrim : trim "t" = "t" := by rfl
    have hwords : splitOrBlanks "t" = ["t"] := by rfl
    have hmark := not_marked_of_words hwords (by decide)
    have hrest : AtRest quietWorld := ⟨⟨rfl, rfl, fun _ => rfl⟩, rfl⟩
    -- the letter is a part without a chain, and goes to a worker
    have hinner : runInner ["t"] (some (trim "t")) quietWorld =
        (.ok none, quietWorld) := by rfl
    have hpart := dispatchPart_of_none hrest (by rw [htrim, hwords]) (by decide)
      hinner (by rfl)
    have htexts := texts_expandArgs quietWorld.env (texts_argsOf ["t"])
    obtain ⟨text, w₁, parts, waits, htext', hbeside, hquiet, hshow, -⟩ :=
      show_withTask hrest "t" htexts
    have hmany := postMany_of_part (by decide) (by rfl) (by rwa [htrim]) hpart
      hbeside hquiet
    rw [htrim] at hmany
    have hunknown : Command.ofName? "t" = none := by rfl
    obtain ⟨houtcome, hafter⟩ := afterTask_unknown hunknown quietWorld
      (.record (expandArgs quietWorld.env (argsOf ["t"])))
    obtain rfl : "Unbekanntes Kommando: t" = text :=
      Value.text.inj (houtcome.symm.trans htext')
    rw [hindented, htext,
      bind_of_ok (show handOn "!mt" "t" quietWorld = _ from hmany)]
    show (showResults 1 _).2.out = _
    rw [hshow, hafter]
    rfl

end TaskShell.Shell

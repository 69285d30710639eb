import TaskShell.Text.Case
import TaskShell.Text.Search
import TaskShell.Words.Split

/-!
# Characters of words

Splitting a line into words drops characters, but makes up none, and neither
does trimming a text lose a character that is not blank. So a character that a
word is made of, or that is the same in lower case, can be followed from one
form of a line to another. The first character of a line is even followed to its
place: it stays the first one of the first word. A text is also cut into pieces
at every separator; there nothing but the separators is lost.
-/

namespace TaskShell.Words

open List

/-- What holds of all characters of a text holds of all characters of the words
that `splitFrom` gives. Behind a backslash in double quotes the backslash has
been read but may still become part of the word. -/
theorem forall_splitFrom {P : Char → Prop} (cs : List Char) :
    ∀ (mode : Mode) (word : List Char),
    (∀ c ∈ cs, P c) → (∀ c ∈ word, P c) → (mode = .quotedEscape → P '\\') →
      ∀ found, splitFrom cs mode word = .ok found →
        ∀ w ∈ found, ∀ c ∈ w, P c := by
  induction cs with
  | nil =>
    intro mode word _ hword _ found hfound
    cases mode with
    | between =>
      cases hfound
      simp
    | bare =>
      cases hfound
      simpa using hword
    | _ => cases hfound
  | cons c cs ih =>
    intro mode word hcs hword hmode found hfound
    have hc : P c := hcs c (by simp)
    have hrest : ∀ d ∈ cs, P d := fun d hd => hcs d (mem_cons_of_mem _ hd)
    have hnil : ∀ d ∈ ([] : List Char), P d := by simp
    have hadd : ∀ d ∈ c :: word, P d := forall_mem_cons.2 ⟨hc, hword⟩
    cases mode with
    | between =>
      simp only [splitFrom] at hfound
      split at hfound
      · exact ih _ _ hrest hword (by simp) found hfound
      · split at hfound
        · exact ih _ _ hrest hnil (by simp) found hfound
        · split at hfound
          · exact ih _ _ hrest hnil (by simp) found hfound
          · exact ih _ _ hrest (by simpa using hc) (by simp) found hfound
    | bare =>
      simp only [splitFrom] at hfound
      split at hfound
      · rcases hmore : splitFrom cs .between [] with e | more
        · rw [hmore] at hfound
          cases hfound
        · rw [hmore] at hfound
          cases hfound
          refine forall_mem_cons.2 ⟨by simpa using hword, ?_⟩
          exact ih _ _ hrest hnil (by simp) more hmore
      · split at hfound
        · exact ih _ _ hrest hword (by simp) found hfound
        · split at hfound
          · exact ih _ _ hrest hword (by simp) found hfound
          · exact ih _ _ hrest hadd (by simp) found hfound
    | quote q =>
      simp only [splitFrom] at hfound
      split at hfound
      · exact ih _ _ hrest hword (by simp) found hfound
      · split at hfound
        · next hescape =>
          have hbackslash : c = '\\' := by
            simp only [Bool.and_eq_true, beq_iff_eq] at hescape
            exact hescape.1
          exact ih _ _ hrest hword (fun _ => hbackslash ▸ hc) found hfound
        · exact ih _ _ hrest hadd (by simp) found hfound
    | escape => exact ih _ _ hrest hadd (by simp) found hfound
    | quotedEscape =>
      simp only [splitFrom] at hfound
      split at hfound
      · exact ih _ _ hrest hadd (by simp) found hfound
      · refine ih _ _ hrest ?_ (by simp) found hfound
        exact forall_mem_cons.2 ⟨hc, forall_mem_cons.2 ⟨hmode rfl, hword⟩⟩

private theorem forall_wordsFrom {P : Char → Prop} (cs word : List Char)
    (hcs : ∀ c ∈ cs, P c) (hword : ∀ c ∈ word, P c) :
    ∀ w ∈ Text.wordsFrom cs word, ∀ c ∈ w, P c := by
  fun_induction Text.wordsFrom cs word with
  | case1 => simp
  | case2 word _ => simpa using hword
  | case3 c cs hblank ih =>
    exact ih (fun d hd => hcs d (mem_cons_of_mem _ hd)) hword
  | case4 c cs word hblank hne ih =>
    refine forall_mem_cons.2 ⟨by simpa using hword, ?_⟩
    exact ih (fun d hd => hcs d (mem_cons_of_mem _ hd)) (by simp)
  | case5 c cs word hblank ih =>
    exact ih (fun d hd => hcs d (mem_cons_of_mem _ hd))
      (forall_mem_cons.2 ⟨hcs c (by simp), hword⟩)

theorem mem_of_mem_splitOrBlanks {line word : String} {c : Char}
    (hword : word ∈ splitOrBlanks line) (hc : c ∈ word.toList) :
    c ∈ line.toList := by
  unfold splitOrBlanks split at hword
  rcases hsplit : splitFrom line.toList .between [] with e | found
  · rw [hsplit] at hword
    obtain ⟨w, hw, rfl⟩ := mem_map.1 hword
    rw [String.toList_ofList] at hc
    exact forall_wordsFrom _ [] (fun _ h => h) (by simp) w hw c hc
  · rw [hsplit] at hword
    obtain ⟨w, hw, rfl⟩ := mem_map.1 hword
    rw [String.toList_ofList] at hc
    exact forall_splitFrom _ .between [] (fun _ h => h) (by simp) (by simp)
      found hsplit w hw c hc

/-! ## Separators and blanks -/

/-- `splitFrom` passes over separators before a line. -/
theorem splitFrom_append {before : List Char}
    (h : ∀ c ∈ before, isSeparator c = true) (cs : List Char) :
    splitFrom (before ++ cs) .between [] = splitFrom cs .between [] := by
  induction before with
  | nil => rfl
  | cons c before ih =>
    rw [cons_append, splitFrom, if_pos (h c mem_cons_self)]
    exact ih fun d hd => h d (mem_cons_of_mem _ hd)

/-- `wordsFrom` passes over blanks before a line. -/
theorem wordsFrom_append {before : List Char}
    (h : ∀ c ∈ before, Text.isBlank c = true) (cs : List Char) :
    Text.wordsFrom (before ++ cs) [] = Text.wordsFrom cs [] := by
  induction before with
  | nil => rfl
  | cons c before ih =>
    have hskip : Text.wordsFrom (c :: (before ++ cs)) [] =
        Text.wordsFrom (before ++ cs) [] := by
      conv => lhs; unfold Text.wordsFrom
      exact if_pos (h c mem_cons_self)
    rw [cons_append, hskip]
    exact ih fun d hd => h d (mem_cons_of_mem _ hd)

theorem wordsFrom_cons_blank {b : Char} (hb : Text.isBlank b = true)
    (cs word : List Char) :
    Text.wordsFrom (b :: cs) word =
      Text.wordsFrom [] word ++ Text.wordsFrom cs [] := by
  conv => lhs; rw [Text.wordsFrom.eq_def]
  dsimp only
  rw [hb, if_pos rfl]
  cases word with
  | nil => rfl
  | cons c word => rfl

theorem wordsFrom_append_blank {b : Char} (hb : Text.isBlank b = true)
    (cs more word : List Char) :
    Text.wordsFrom (cs ++ b :: more) word =
      Text.wordsFrom cs word ++ Text.wordsFrom more [] := by
  induction cs generalizing word with
  | nil => exact wordsFrom_cons_blank hb more word
  | cons c cs ih =>
    by_cases hc : Text.isBlank c = true
    · rw [cons_append, wordsFrom_cons_blank hc, wordsFrom_cons_blank hc,
        ih, append_assoc]
    · have hgoes : ∀ ds, Text.wordsFrom (c :: ds) word =
          Text.wordsFrom ds (c :: word) := by
        intro ds
        conv => lhs; rw [Text.wordsFrom.eq_def]
        exact if_neg hc
      rw [cons_append, hgoes, hgoes, ih]

/-! ## The first character -/

/-- A word that has been begun is the first one that `splitFrom` finds, and its
first character stays. -/
theorem head?_splitFrom {c : Char} (cs : List Char) :
    ∀ (mode : Mode) (word : List Char), mode ≠ .between →
    word.getLast? = some c → ∀ found, splitFrom cs mode word = .ok found →
      ∃ first rest, found = first :: rest ∧ first.head? = some c := by
  induction cs with
  | nil =>
    intro mode word hmode hword found hfound
    cases mode with
    | between => contradiction
    | bare =>
      cases hfound
      exact ⟨_, [], rfl, by rw [head?_reverse, hword]⟩
    | _ => cases hfound
  | cons d cs ih =>
    intro mode word hmode hword found hfound
    have hadd : ∀ d, (d :: word).getLast? = some c := by
      intro d
      rw [getLast?_cons, hword]
      rfl
    cases mode with
    | between => contradiction
    | bare =>
      simp only [splitFrom] at hfound
      split at hfound
      · rcases hmore : splitFrom cs .between [] with e | more
        · rw [hmore] at hfound
          cases hfound
        · rw [hmore] at hfound
          cases hfound
          exact ⟨_, more, rfl, by rw [head?_reverse, hword]⟩
      · split at hfound
        · exact ih _ _ (by simp) hword found hfound
        · split at hfound
          · exact ih _ _ (by simp) hword found hfound
          · exact ih _ _ (by simp) (hadd d) found hfound
    | quote q =>
      simp only [splitFrom] at hfound
      split at hfound
      · exact ih _ _ (by simp) hword found hfound
      · split at hfound
        · exact ih _ _ (by simp) hword found hfound
        · exact ih _ _ (by simp) (hadd d) found hfound
    | escape => exact ih _ _ (by simp) (hadd d) found hfound
    | quotedEscape =>
      simp only [splitFrom] at hfound
      split at hfound
      · exact ih _ _ (by simp) (hadd d) found hfound
      · refine ih _ _ (by simp) ?_ found hfound
        rw [getLast?_cons, hadd '\\']
        rfl

private theorem head?_wordsFrom {c : Char} (cs word : List Char)
    (hword : word.getLast? = some c) :
    ∃ first rest, Text.wordsFrom cs word = first :: rest ∧
      first.head? = some c := by
  fun_induction Text.wordsFrom cs word with
  | case1 => cases hword
  | case2 word _ => exact ⟨_, [], rfl, by rw [head?_reverse, hword]⟩
  | case3 d cs hblank ih => cases hword
  | case4 d cs word hblank hne ih =>
    exact ⟨_, _, rfl, by rw [head?_reverse, hword]⟩
  | case5 d cs word hblank ih =>
    refine ih ?_
    rw [getLast?_cons, hword]
    rfl

/-- A line that starts with a character that neither separates nor quotes has a
first word that starts with it. -/
theorem head?_splitOrBlanks {line : String} {c : Char}
    (hc : line.toList.head? = some c) (hblank : Text.isBlank c = false)
    (hseparator : isSeparator c = false) (hquote : isQuote c = false)
    (hescape : (c == '\\') = false) :
    ∃ first rest, splitOrBlanks line = first :: rest ∧
      first.toList.head? = some c := by
  obtain ⟨cs, hline⟩ : ∃ cs, line.toList = c :: cs := head?_eq_some_iff.1 hc
  unfold splitOrBlanks split
  rcases hsplit : splitFrom line.toList .between [] with e | found
  · obtain ⟨first, rest, hwords, hfirst⟩ := head?_wordsFrom (c := c) cs [c] rfl
    have hbegin : Text.wordsFrom line.toList [] = first :: rest := by
      rw [hline]
      conv => lhs; unfold Text.wordsFrom
      exact (if_neg (by rw [hblank]; exact Bool.false_ne_true)).trans hwords
    refine ⟨String.ofList first, rest.map String.ofList,
      congrArg (List.map String.ofList) hbegin, ?_⟩
    rw [String.toList_ofList, hfirst]
  · rw [hline] at hsplit
    simp only [splitFrom, hseparator, hescape, hquote, Bool.false_eq_true,
      if_false] at hsplit
    obtain ⟨first, rest, rfl, hfirst⟩ :=
      head?_splitFrom (c := c) cs .bare [c] (by simp) rfl found hsplit
    exact ⟨String.ofList first, rest.map String.ofList,
      rfl, by rw [String.toList_ofList, hfirst]⟩

end TaskShell.Words

namespace TaskShell.Text

open List

variable {c : Char} {s : String} {cs : List Char}

private theorem mem_lowerFrom (hc : c ≠ capitalSigma) (hlow : lowerOf c = [c])
    (cs : List Char) : ∀ before, c ∈ cs → c ∈ lowerFrom before cs := by
  induction cs with
  | nil => simp
  | cons d cs ih =>
    intro before hm
    rw [lowerFrom, mem_append]
    rcases mem_cons.1 hm with rfl | hm
    · left
      rw [if_neg (by simpa using hc), hlow]
      simp
    · exact .inr (ih _ hm)

theorem mem_lower (hc : c ≠ capitalSigma) (hlow : lowerOf c = [c])
    (hm : c ∈ s.toList) : c ∈ (lower s).toList := by
  unfold lower
  rw [String.toList_ofList]
  exact mem_lowerFrom hc hlow _ _ hm

private theorem mem_trimBy {p : Char → Bool} (hc : p c = false) (hm : c ∈ cs) :
    c ∈ trimBy p cs := by
  have hdrop : ∀ ds : List Char, c ∈ ds → c ∈ ds.dropWhile p := by
    intro ds hds
    rw [← takeWhile_append_dropWhile (p := p) (l := ds)] at hds
    refine (mem_append.1 hds).resolve_left ?_
    intro htake
    rw [all_eq_true.1 all_takeWhile c htake] at hc
    contradiction
  unfold trimBy trimEnd trimStart
  rw [mem_reverse]
  exact hdrop _ (mem_reverse.2 (hdrop _ hm))

theorem mem_trim (hc : isBlank c = false) (hm : c ∈ s.toList) :
    c ∈ (trim s).toList := by
  unfold trim
  rw [String.toList_ofList]
  exact mem_trimBy hc hm

theorem CaseRow.apply_cases {rows : List CaseRow} {bound : Nat}
    (h : ∀ row ∈ rows, (bound : Int) < row.lo + row.shift) (code : Nat) :
    CaseRow.apply rows code = code ∨ bound < CaseRow.apply rows code := by
  induction rows with
  | nil => exact .inl rfl
  | cons row rest ih =>
    have hrow := h row (by simp)
    rw [CaseRow.apply]
    split
    · exact .inl rfl
    · split
      · right
        omega
      · exact ih fun r hr => h r (mem_cons_of_mem _ hr)

theorem lowerRows_above : ∀ row ∈ lowerRows, ((33 : Nat) : Int) <
    row.lo + row.shift := by decide +kernel

/-- `lowerOf` makes two characters of one, and one of every other by the
table. -/
theorem lowerOf_cases (c : Char) :
    lowerOf c = [Char.ofNat 0x69, Char.ofNat 0x307] ∨
    lowerOf c = [Char.ofNat (CaseRow.apply lowerRows c.toNat)] := by
  unfold lowerOf mapCase
  by_cases hcode : c.toNat = 0x130
  · left
    rw [hcode]
    rfl
  · right
    have hnone : lowerLong.lookup c.toNat = none := by
      simp only [lowerLong, lookup_cons, lookup_nil,
        beq_eq_false_iff_ne.2 hcode]
    rw [hnone]

private theorem ofNat_ne_of_lt {n : Nat} (h : 33 < n) : Char.ofNat n ≠ '!' := by
  intro heq
  by_cases hvalid : n.isValidChar
  · rw [Char.ofNat, dif_pos hvalid] at heq
    have hcode : n = 33 := congrArg Char.toNat heq
    omega
  · rw [Char.ofNat, dif_neg hvalid] at heq
    revert heq
    decide

/-- Only an exclamation mark becomes one by `lowerFrom`. -/
theorem eq_of_head?_lowerFrom (h : (lowerFrom [] (c :: cs)).head? = some '!') :
    c = '!' := by
  rw [lowerFrom] at h
  split at h
  · have hsigma : smallSigma [] cs = '!' := by simpa using h
    unfold smallSigma at hsigma
    split at hsigma
    · exact absurd hsigma (by decide)
    · exact absurd hsigma (by decide)
  · rcases lowerOf_cases c with hlong | hrow
    · rw [hlong] at h
      exact absurd h (by simp)
    · rw [hrow, singleton_append, head?_cons, Option.some.injEq] at h
      rcases CaseRow.apply_cases lowerRows_above c.toNat with hsame | habove
      · rw [hsame, Char.ofNat_toNat] at h
        exact h
      · exact absurd h (ofNat_ne_of_lt habove)

theorem eq_of_head?_lower (h : (lower s).toList.head? = some '!') :
    s.toList.head? = some '!' := by
  unfold lower at h
  rw [String.toList_ofList] at h
  cases hs : s.toList with
  | nil =>
    rw [hs] at h
    cases h
  | cons c cs =>
    rw [hs] at h
    rw [head?_cons, eq_of_head?_lowerFrom h]

/-! ## Pieces -/

theorem splitAll_of_not_mem {sep : Char} (h : sep ∉ cs) :
    splitAll sep cs = [cs] := by
  induction cs with
  | nil => rfl
  | cons c cs ih =>
    have hc : (c == sep) = false := by
      rw [beq_eq_false_iff_ne]
      rintro rfl
      exact h (by simp)
    rw [splitAll, hc, ih fun hm => h (mem_cons_of_mem _ hm)]
    rfl

theorem splitAll_ne_nil (sep : Char) (cs : List Char) :
    splitAll sep cs ≠ [] := by
  cases cs with
  | nil => exact cons_ne_nil _ _
  | cons c cs =>
    rw [splitAll]
    split
    · exact cons_ne_nil _ _
    · split
      · exact cons_ne_nil _ _
      · exact cons_ne_nil _ _

private theorem splitAll_append (sep : Char) (before after : List Char) :
    splitAll sep (before ++ sep :: after) =
      splitAll sep before ++ splitAll sep after := by
  induction before with
  | nil =>
    have hnil : splitAll sep [] = [[]] := rfl
    rw [nil_append, hnil, splitAll, if_pos (beq_self_eq_true sep)]
    rfl
  | cons c before ih =>
    rw [cons_append, splitAll, splitAll, ih]
    split
    · rfl
    · cases hsplit : splitAll sep before with
      | nil => exact absurd hsplit (splitAll_ne_nil sep before)
      | cons piece pieces => rfl

theorem pieces_append (sep : Char) (before after : String) :
    pieces sep (before ++ String.singleton sep ++ after) =
      pieces sep before ++ pieces sep after := by
  have hjoin : (before ++ String.singleton sep ++ after).toList =
      before.toList ++ sep :: after.toList := by simp
  rw [pieces, hjoin, splitAll_append, map_append]
  rfl

theorem mem_of_mem_splitAll {sep : Char} {piece : List Char}
    (h : piece ∈ splitAll sep cs) (hc : c ∈ piece) : c ∈ cs ∧ c ≠ sep := by
  induction cs generalizing piece with
  | nil =>
    rw [splitAll, mem_singleton] at h
    rw [h] at hc
    cases hc
  | cons d cs ih =>
    rw [splitAll] at h
    split at h
    · rcases mem_cons.1 h with rfl | h
      · cases hc
      · exact ⟨mem_cons_of_mem _ (ih h hc).1, (ih h hc).2⟩
    · next hd =>
      have hne : d ≠ sep := fun hsep => hd (beq_iff_eq.2 hsep)
      split at h
      · rw [mem_singleton] at h
        rw [h, mem_singleton] at hc
        rw [hc]
        exact ⟨mem_cons_self, hne⟩
      · next first rest hsplit =>
        rw [hsplit] at ih
        rcases mem_cons.1 h with rfl | h
        · rcases mem_cons.1 hc with rfl | hc
          · exact ⟨mem_cons_self, hne⟩
          · have hfirst := ih mem_cons_self hc
            exact ⟨mem_cons_of_mem _ hfirst.1, hfirst.2⟩
        · have hlater := ih (mem_cons_of_mem _ h) hc
          exact ⟨mem_cons_of_mem _ hlater.1, hlater.2⟩

end TaskShell.Text

import TaskShell.Proofs.Arguments
import TaskShell.Proofs.Splitting
import TaskShell.Proofs.Trimming

/-!
# How words are written

A line that splits falls into the texts that its words were read from, with
separators between them. Such a text is the *source* of its word: it may hold
quotes and backslashes that the word has not, and apart from these it holds the
same characters. Where the words of a line are known, their sources are what is
left to be known about the line, and whatever is looked for in the line and has
no separator in it stands in one of the sources.
-/

namespace TaskShell.Words

open List

variable {c x : Char} {r next last : Reader} {cs more before : List Char}

/-- Whether a character may be taken away from a word. -/
def isMark (c : Char) : Bool := isQuote c || c == '\\'

theorem isMark_of_isQuote (h : isQuote c = true) :
    isMark c = true := by simp [isMark, h]

theorem isMark_of_isPlain (h : isPlain c = true) : isMark c = false := by
  rw [isPlain_iff] at h
  simp [isMark, h]

theorem isMark_of_isSeparator (h : isSeparator c = true) :
    isMark c = false := by
  simp only [isSeparator, Bool.or_eq_true, beq_iff_eq] at h
  rcases h with ((rfl | rfl) | rfl) | rfl <;> rfl

theorem isPlain_of_not_isMark (h : isMark c = false)
    (hc : isSeparator c = false) : isPlain c = true := by
  rw [isMark, Bool.or_eq_false_iff] at h
  simp [isPlain, h, hc, bne]

namespace Reader

/-! ## Reading a part of a line -/

/-- What a reader does with some characters: the words that it ends, and the
reader behind them. -/
def readAll (r : Reader) : List Char → List (List Char) × Reader
  | [] => ([], r)
  | c :: cs =>
    let (ended, next) := r.advance c
    let (more, last) := next.readAll cs
    (ended ++ more, last)

theorem readAll_cons (r : Reader) (c : Char) (cs : List Char) :
    r.readAll (c :: cs) =
    ((r.advance c).1 ++ ((r.advance c).2.readAll cs).1,
      ((r.advance c).2.readAll cs).2) := rfl

theorem readAll_singleton (r : Reader) (c : Char) :
    r.readAll [c] = r.advance c := by
  simp [readAll]

theorem readAll_append (r : Reader) (cs more : List Char) :
    r.readAll (cs ++ more) =
    ((r.readAll cs).1 ++ ((r.readAll cs).2.readAll more).1,
      ((r.readAll cs).2.readAll more).2) := by
  induction cs generalizing r with
  | nil => rfl
  | cons c cs ih => simp [readAll_cons, ih]

/-- **A text is read in front of whatever follows it** (`readAll`). -/
theorem run_append (r : Reader) (cs rest : List Char) :
    r.run (cs ++ rest) =
      ((r.readAll cs).2.run rest).map ((r.readAll cs).1 ++ ·) := by
  induction cs generalizing r with
  | nil => exact (map_nil_append _).symm
  | cons c cs ih =>
    rw [cons_append, run_cons, ih, readAll_cons]
    cases ((r.advance c).2.readAll cs).2.run rest with
    | error e => rfl
    | ok found => exact congrArg Except.ok (append_assoc ..).symm

theorem run_of_readAll (h : r.readAll cs = ([], next)) (rest : List Char) :
    r.run (cs ++ rest) = next.run rest := by
  rw [run_append, h]
  exact map_nil_append _

theorem readAll_of_append (cs : List Char)
    (h : r.readAll (cs ++ more) = ([], last)) :
    ∃ next, r.readAll cs = ([], next) ∧ next.readAll more = ([], last) := by
  rw [readAll_append, Prod.mk.injEq, append_eq_nil_iff] at h
  obtain ⟨⟨hfirst, hmore⟩, hlast⟩ := h
  exact ⟨(r.readAll cs).2, Prod.ext hfirst rfl, Prod.ext hmore hlast⟩

theorem run_separators {gap : List Char} (h : ∀ c ∈ gap, isSeparator c = true)
    (rest : List Char) :
    fresh.run (gap ++ rest) = fresh.run rest := splitFrom_append h rest

theorem advance_bare_of_separator (h : isSeparator c = true)
    (word : List Char) :
    (⟨.bare, word⟩ : Reader).advance c = ([word.reverse], fresh) := by
  simp [advance, h]

theorem eq_bare_of_ended (h : (r.advance c).1 ≠ []) :
    ∃ word, r = ⟨.bare, word⟩ ∧ isSeparator c = true := by
  obtain ⟨mode, word⟩ := r
  cases mode with
  | bare =>
    refine ⟨word, rfl, ?_⟩
    by_cases hseparator : isSeparator c = true
    · exact hseparator
    · simp only [advance, if_neg hseparator] at h
      repeat' split at h
      all_goals exact absurd rfl h
  | _ =>
    simp only [advance] at h
    repeat' split at h
    all_goals exact absurd rfl h

theorem run_bare_of_break {rest : List Char}
    (h : ∀ c, rest.head? = some c → isSeparator c = true) (word : List Char) :
    (⟨.bare, word⟩ : Reader).run rest = (fresh.run rest).map
    (word.reverse :: ·) := by
  cases rest with
  | nil => rfl
  | cons c rest =>
    have hc : isSeparator c = true := h c rfl
    have hgap : ∀ d ∈ [c], isSeparator d = true := by simpa using hc
    have hskip : fresh.run (c :: rest) = fresh.run rest :=
      run_separators hgap rest
    rw [run_cons, advance_bare_of_separator hc, hskip]
    rfl

theorem run_of_unmarked (h : ∀ c ∈ cs, isMark c = false) :
    ∀ r : Reader, r.mode = .between ∨ r.mode = .bare →
      ∃ found, r.run cs = .ok found := by
  induction cs with
  | nil =>
    rintro ⟨mode, word⟩ (hmode | hmode)
    · obtain rfl : mode = .between := hmode
      exact ⟨[], rfl⟩
    · obtain rfl : mode = .bare := hmode
      exact ⟨[word.reverse], rfl⟩
  | cons c cs ih =>
    intro r hmode
    have hnext : (r.advance c).2.mode = .between ∨
        (r.advance c).2.mode = .bare := by
      obtain ⟨mode, word⟩ := r
      by_cases hseparator : isSeparator c = true
      · rcases hmode with hmode | hmode <;> cases hmode
        · simp [advance, hseparator]
        · simp [advance_bare_of_separator hseparator, fresh]
      · have hplain :=
          isPlain_of_not_isMark (h c (by simp)) (by simpa using hseparator)
        rcases hmode with hmode | hmode <;> cases hmode
        · simp [advance_between_of_plain hplain]
        · simp [advance_bare_of_plain hplain]
    obtain ⟨found, hfound⟩ := ih (fun d hd => h d (by simp [hd])) _ hnext
    exact ⟨_, by rw [run_cons, hfound]; rfl⟩

/-! ## Inside of a word -/

def Inside (r : Reader) : Prop :=
  match r.mode with
  | .between => False
  | .quote q => isQuote q = true
  | _ => True

/-- The characters of the word being read, last one first; a backslash in double
quotes is one of them until the character behind it is known. -/
def kept (r : Reader) : List Char :=
  match r.mode with
  | .quotedEscape => '\\' :: r.word
  | _ => r.word

/-- How some characters, last one first, extend the word in which they stand: it
goes on, it keeps all that it had, and it gets no other characters than these,
in this order, and all of them but for quotes and backslashes. -/
structure Extends (r : Reader) (cs : List Char) (next : Reader) : Prop where
  inside : next.Inside
  keeps : r.word <:+ next.word
  sublist : next.kept.Sublist (cs ++ r.kept)
  count : ∀ x, isMark x = false →
    next.word.count x = cs.count x + r.word.count x

theorem count_singleton_of_isMark (hc : isMark c = true)
    (hx : isMark x = false) :
    [c].count x = 0 := by
  rw [count_eq_zero, mem_singleton]
  rintro rfl
  rw [hc] at hx
  cases hx

theorem extends_kept (hinside : next.Inside) (hword : next.word = c :: r.word)
    (hkept : next.kept.Sublist (c :: r.kept)) : Extends r [c] next where
  inside := hinside
  keeps := hword ▸ suffix_cons c r.word
  sublist := hkept
  count := by
    intro x _
    rw [hword, count_cons, count_singleton]
    omega

theorem extends_dropped (hc : isMark c = true) (hinside : next.Inside)
    (hword : next.word = r.word) (hkept : next.kept.Sublist (c :: r.kept)) :
    Extends r [c] next where
  inside := hinside
  keeps := hword ▸ suffix_refl r.word
  sublist := hkept
  count := by
    intro x hx
    rw [hword, count_singleton_of_isMark hc hx, Nat.zero_add]

/-- **`advance` extends the word in which it stands**, unless the character is
the separator that ends it. -/
theorem extends_advance (hinside : r.Inside) (h : (r.advance c).1 = []) :
    Extends r [c] (r.advance c).2 := by
  obtain ⟨mode, word⟩ := r
  cases mode with
  | between => exact hinside.elim
  | bare =>
    simp only [advance] at h ⊢
    by_cases hseparator : isSeparator c = true
    · simp [hseparator] at h
    by_cases hquote : isQuote c = true
    · simp only [hseparator, hquote, if_true, if_false, Bool.false_eq_true]
      exact extends_dropped (isMark_of_isQuote hquote) hquote rfl
        (sublist_cons_self ..)
    by_cases hescape : (c == '\\') = true
    · simp only [hseparator, hquote, hescape, if_true, if_false,
        Bool.false_eq_true]
      exact extends_dropped (by simp [isMark, hescape]) trivial rfl
        (sublist_cons_self ..)
    · simp only [hseparator, hquote, hescape, if_false, Bool.false_eq_true]
      exact extends_kept trivial rfl (List.Sublist.refl _)
  | quote q =>
    have hq : isQuote q = true := hinside
    simp only [advance]
    by_cases hclose : (c == q) = true
    · simp only [hclose, if_true]
      rw [beq_iff_eq] at hclose
      exact extends_dropped (isMark_of_isQuote (hclose ▸ hq)) trivial rfl
        (sublist_cons_self ..)
    by_cases hescape : (c == '\\' && q == '"') = true
    · simp only [hclose, hescape, if_true, if_false, Bool.false_eq_true]
      rw [Bool.and_eq_true, beq_iff_eq] at hescape
      refine extends_dropped (by simp [isMark, hescape.1]) trivial rfl ?_
      rw [hescape.1]
      exact List.Sublist.refl _
    · simp only [hclose, hescape, if_false, Bool.false_eq_true]
      exact extends_kept hq rfl (List.Sublist.refl _)
  | escape => exact extends_kept trivial rfl (List.Sublist.refl _)
  | quotedEscape =>
    simp only [advance]
    by_cases hknown : (c == '\\' || c == '"') = true
    · -- the backslash before it is taken away
      simp only [hknown, if_true]
      exact extends_kept rfl rfl ((sublist_cons_self ..).cons_cons c)
    · simp only [hknown, if_false, Bool.false_eq_true]
      refine ⟨rfl, ⟨[c, '\\'], rfl⟩, List.Sublist.refl _, fun x hx => ?_⟩
      have hbackslash : ('\\' == x) = false := by
        rw [beq_eq_false_iff_ne]
        rintro rfl
        cases hx
      simp [count_cons, hbackslash]
      omega

theorem Extends.trans (h : Extends r cs next) (h' : Extends next more last) :
    Extends r (more ++ cs) last where
  inside := h'.inside
  keeps := h.keeps.trans h'.keeps
  sublist := by
    rw [append_assoc]
    exact h'.sublist.trans (h.sublist.append_left more)
  count := by
    intro x hx
    rw [h'.count x hx, h.count x hx, count_append]
    omega

theorem extends_readAll (hinside : r.Inside) (h : r.readAll cs = ([], last)) :
    Extends r cs.reverse last := by
  induction cs generalizing r with
  | nil =>
    obtain rfl : r = last := congrArg Prod.snd h
    exact ⟨hinside, suffix_refl _, List.Sublist.refl _, by simp⟩
  | cons c cs ih =>
    obtain ⟨next, hfirst, hrest⟩ := readAll_of_append [c] h
    have hnext : r.advance c = ([], next) := by
      rwa [readAll_singleton] at hfirst
    have hstep : Extends r [c] next := by
      have hone := extends_advance (c := c) hinside (by rw [hnext])
      rwa [hnext] at hone
    rw [reverse_cons]
    exact hstep.trans (ih hstep.inside hrest)

theorem extends_begin (h : isSeparator c = false) :
    (fresh.advance c).1 = [] ∧ Extends fresh [c] (fresh.advance c).2 := by
  simp only [fresh, advance, h, Bool.false_eq_true, if_false]
  by_cases hescape : (c == '\\') = true
  · simp only [hescape, if_true]
    exact ⟨trivial, extends_dropped (by simp [isMark, hescape]) trivial rfl
      (sublist_cons_self ..)⟩
  by_cases hquote : isQuote c = true
  · simp only [hescape, hquote, if_true, if_false, Bool.false_eq_true]
    exact ⟨trivial, extends_dropped (isMark_of_isQuote hquote) hquote rfl
      (sublist_cons_self ..)⟩
  · simp only [hescape, hquote, if_false, Bool.false_eq_true]
    exact ⟨trivial, extends_kept trivial rfl (List.Sublist.refl _)⟩

end Reader

/-! ## The source of a word -/

/-- Whether a text is the source of a word: it begins with no separator, and
behind it the reader stands in the word, outside of quotes, and has ended no
other. -/
structure Writes (source word : List Char) : Prop where
  begins : ∀ c, source.head? = some c → isSeparator c = false
  reads : Reader.fresh.readAll source = ([], ⟨.bare, word.reverse⟩)

namespace Writes

variable {source word : List Char} (h : Writes source word)
include h

theorem run (rest : List Char) : Reader.fresh.run (source ++ rest) =
    (⟨.bare, word.reverse⟩ : Reader).run rest :=
  Reader.run_of_readAll h.reads rest

theorem ne_nil : source ≠ [] := by
  rintro rfl
  cases h.reads

/-- What the beginning of a source does to the word that it `Writes`. -/
theorem extends_start {start : List Char} (hsource : source = start ++ more)
    (hne : start ≠ []) :
    ∃ next, Reader.Extends .fresh start.reverse next ∧
      Reader.Extends next more.reverse ⟨.bare, word.reverse⟩ := by
  subst hsource
  obtain ⟨c, cs, rfl⟩ := exists_cons_of_ne_nil hne
  obtain ⟨next, hstart, hmore⟩ := Reader.readAll_of_append _ h.reads
  obtain ⟨first, hfirst, hrest⟩ := Reader.readAll_of_append [c] hstart
  obtain ⟨-, hbegin⟩ := Reader.extends_begin (h.begins c rfl)
  rw [Reader.readAll_singleton] at hfirst
  rw [hfirst] at hbegin
  have hnext := hbegin.trans (Reader.extends_readAll hbegin.inside hrest)
  rw [← reverse_cons] at hnext
  exact ⟨next, hnext, Reader.extends_readAll hnext.inside hmore⟩

theorem extends_all :
    Reader.Extends .fresh source.reverse ⟨.bare, word.reverse⟩ := by
  obtain ⟨next, hsource, hrest⟩ :=
    h.extends_start (append_nil source).symm h.ne_nil
  simpa using hsource.trans hrest

/-- A word is its source with some characters left out. -/
theorem sublist : word.Sublist source := by
  have hkept := h.extends_all.sublist
  simp only [Reader.kept, Reader.fresh, append_nil] at hkept
  exact reverse_sublist.1 hkept

/-- Only quotes and backslashes are left out. -/
theorem count_eq (hx : isMark x = false) : word.count x = source.count x := by
  simpa [Reader.fresh] using h.extends_all.count x hx

end Writes

/-- What stands before a word at the end of a text is made of the characters
behind its source, apart from quotes and backslashes. -/
theorem Writes.count_before {source word trail : List Char}
    (h : Writes source word) (hbefore : before ++ word = source ++ trail)
    (hx : isMark x = false) : before.count x = trail.count x := by
  have hsum := congrArg (List.count x) hbefore
  rw [count_append, count_append, h.count_eq hx] at hsum
  omega

theorem Writes.isMark_around {source word mid after : List Char}
    (h : Writes source word) (hsource : source = before ++ mid ++ after)
    (hmid : word.Sublist mid) {m : Char} (hm : m ∈ before ∨ m ∈ after) :
    isMark m = true := by
  by_cases hmark : isMark m = true
  · exact hmark
  · have hcount := h.count_eq (by simpa using hmark)
    have hle := hmid.count_le m
    rw [hsource, count_append, count_append] at hcount
    rcases hm with hm | hm
    · have hpos := count_pos_iff.2 hm
      omega
    · have hpos := count_pos_iff.2 hm
      omega

theorem Writes.trail_eq_nil {source word trail : List Char}
    (h : Writes source word) (htrail : ∀ s ∈ trail, isSeparator s = true)
    (hbefore : before ++ word = source ++ trail) (hhead : word.head? = some c)
    (hplain : isPlain c = true) : trail = [] := by
  have hout : c ∉ trail := by
    intro hm
    exact (isPlain_iff.1 hplain).1 (htrail c hm)
  have hcount := h.count_before hbefore (isMark_of_isPlain hplain)
  rw [count_eq_zero.2 hout] at hcount
  rcases append_eq_append_iff.1 hbefore with ⟨rest, hsource, -⟩ |
    ⟨rest, -, hrest⟩
  · by_cases hempty : trail = []
    · exact hempty
    · -- a separator before the word is part of it, so the word begins there
      -- and not with the plain character
      obtain ⟨s, more, rfl⟩ := exists_cons_of_ne_nil hempty
      have hseparator : isMark s = false :=
        isMark_of_isSeparator (htrail s (by simp))
      have hpos : 0 < before.count s := by
        rw [h.count_before hbefore hseparator]
        simp
      obtain ⟨next, hnext, hlast⟩ :=
        h.extends_start hsource (by rintro rfl; simp at hpos)
      have hword : next.word ≠ [] := by
        intro hnil
        have hsum := hnext.count s hseparator
        rw [hnil, count_reverse] at hsum
        simp at hsum
        omega
      have hprefix : next.word.reverse <+: word := by
        simpa using reverse_prefix.2 hlast.keeps
      obtain ⟨first, others, hfirst⟩ :=
        exists_cons_of_ne_nil (reverse_ne_nil_iff.2 hword)
      rw [hfirst] at hprefix
      obtain ⟨after, rfl⟩ := hprefix
      obtain rfl : first = c := by simpa using hhead
      have hmem : first ∈ next.word := by
        rw [← mem_reverse, hfirst]
        simp
      have hsum := hnext.count first (isMark_of_isPlain hplain)
      have hzero := count_pos_iff.2 hmem
      simp [Reader.fresh, hcount] at hsum
      omega
  · refine absurd ?_ hout
    rw [hrest]
    exact mem_append_right _ (mem_of_head? hhead)

/-- **When a text ends with the word that it `Writes`.** It has only quotes and
backslashes before it. With separators behind its source a word is found at the
end of the text only by chance: it does not begin with a plain character
then. -/
theorem Writes.suffix_iff {source word trail : List Char}
    (h : Writes source word) (htrail : ∀ c ∈ trail, isSeparator c = true)
    (hstart : trail = [] ∨ ∃ c, word.head? = some c ∧ isPlain c = true) :
    word <:+ source ++ trail ↔ trail = [] ∧ ∃ marks, source = marks ++ word ∧
      ∀ m ∈ marks, isMark m = true := by
  constructor
  · rintro ⟨before, hbefore⟩
    have hempty : trail = [] := by
      rcases hstart with hempty | ⟨c, hhead, hplain⟩
      · exact hempty
      · exact h.trail_eq_nil htrail hbefore hhead hplain
    subst hempty
    have hsource : source = before ++ word ++ [] := by simpa using hbefore.symm
    refine ⟨rfl, before, by simpa using hsource, fun m hm => ?_⟩
    exact h.isMark_around hsource (List.Sublist.refl _) (.inl hm)
  · rintro ⟨rfl, marks, hsource, -⟩
    exact ⟨marks, by simp [hsource]⟩

/-! ## The layout of a line -/

/-- A word in a line, with its source and the separators in front of it. -/
structure Piece where
  gap : List Char
  source : List Char
  word : List Char

def Piece.text (p : Piece) : List Char := p.gap ++ p.source

/-- A line that consists of pieces and of the separators behind them. Between
two sources there is at least one separator. -/
structure IsLayout (line : List Char) (pieces : List Piece)
    (trail : List Char) : Prop where
  text : line = pieces.flatMap Piece.text ++ trail
  gaps : ∀ p ∈ pieces, ∀ c ∈ p.gap, isSeparator c = true
  writes : ∀ p ∈ pieces, Writes p.source p.word
  apart : ∀ p ∈ pieces.drop 1, p.gap ≠ []
  trail : ∀ c ∈ trail, isSeparator c = true

namespace IsLayout

variable {line trail : List Char} {pieces : List Piece} {p : Piece}

theorem cons_iff : IsLayout line (p :: pieces) trail ↔
    ∃ rest, line = p.gap ++ p.source ++ rest ∧
    (∀ c ∈ p.gap, isSeparator c = true) ∧ Writes p.source p.word ∧
    IsLayout rest pieces trail ∧
    ∀ c, rest.head? = some c → isSeparator c = true := by
  constructor
  · intro h
    have hapart : ∀ q ∈ pieces, q.gap ≠ [] := by simpa using h.apart
    have hrest : IsLayout (pieces.flatMap Piece.text ++ trail) pieces trail :=
      ⟨rfl, fun q hq => h.gaps q (by simp [hq]), fun q hq => h.writes q
        (by simp [hq]), fun q hq => hapart q (mem_of_mem_drop hq), h.trail⟩
    refine ⟨_, ?_, h.gaps p (by simp), h.writes p (by simp), hrest, ?_⟩
    · rw [h.text, flatMap_cons, append_assoc]
      rfl
    · intro c hc
      cases pieces with
      | nil => exact h.trail c (mem_of_head? (by simpa using hc))
      | cons q pieces =>
        obtain ⟨s, gap, hgap⟩ := exists_cons_of_ne_nil (hapart q (by simp))
        obtain rfl : s = c := by simpa [Piece.text, hgap] using hc
        exact h.gaps q (by simp) s (by simp [hgap])
  · rintro ⟨rest, rfl, hgap, hwrites, hrest, hbreak⟩
    refine ⟨?_, forall_mem_cons.2 ⟨hgap, hrest.gaps⟩,
      forall_mem_cons.2 ⟨hwrites, hrest.writes⟩, ?_, hrest.trail⟩
    · conv => lhs; rw [hrest.text]
      simp [Piece.text]
    · cases pieces with
      | nil => simp
      | cons q pieces =>
        refine forall_mem_cons.2 ⟨?_, hrest.apart⟩
        -- a source begins with no separator, and something separates it from
        -- the one before
        intro hnil
        obtain ⟨c, source, hsource⟩ :=
          exists_cons_of_ne_nil (hrest.writes q (by simp)).ne_nil
        have hc := (hrest.writes q (by simp)).begins c (by rw [hsource]; rfl)
        rw [hbreak c (by rw [hrest.text]; simp [Piece.text, hnil, hsource])]
          at hc
        cases hc

theorem run (h : IsLayout line pieces trail) :
    Reader.fresh.run line = .ok (pieces.map Piece.word) := by
  induction pieces generalizing line with
  | nil =>
    have hline : line = trail ++ [] := by simpa using h.text
    rw [hline, Reader.run_separators h.trail]
    rfl
  | cons p pieces ih =>
    obtain ⟨rest, rfl, hgap, hwrites, hrest, hbreak⟩ := cons_iff.1 h
    rw [append_assoc, Reader.run_separators hgap, hwrites.run,
      Reader.run_bare_of_break hbreak, ih hrest]
    simp [Except.map]

end IsLayout

/-- A word that is begun goes on to the next separator outside of quotes, or to
the end of the line. -/
theorem exists_source :
    ∀ {start : List Char} {r : Reader} {found : List (List Char)},
    (∀ c, start.head? = some c → isSeparator c = false) →
    Reader.fresh.readAll start = ([], r) → r.Inside →
    r.run cs = .ok found →
    ∃ source word rest more, start ++ cs = source ++ rest ∧ Writes source word ∧
      (∀ c, rest.head? = some c → isSeparator c = true) ∧
      Reader.fresh.run rest = .ok more ∧ found = word :: more := by
  induction cs with
  | nil =>
    intro start r found hbegins hread hinside hrun
    obtain ⟨mode, word⟩ := r
    cases mode with
    | bare =>
      obtain rfl : [word.reverse] = found := Except.ok.inj hrun
      exact ⟨start, word.reverse, [], [], rfl,
        ⟨hbegins, by rw [reverse_reverse, hread]⟩, by simp, rfl, rfl⟩
    | between => exact hinside.elim
    | _ => cases hrun
  | cons c cs ih =>
    intro start r found hbegins hread hinside hrun
    have hne : start ≠ [] := by
      rintro rfl
      obtain rfl : Reader.fresh = r := congrArg Prod.snd hread
      exact hinside
    by_cases hgoes : (r.advance c).1 = []
    · -- the word goes on with the character
      obtain ⟨rest, hrest, hfound⟩ := Reader.exists_of_run_cons hrun
      rw [hgoes, nil_append] at hfound
      have hnext : Reader.fresh.readAll (start ++ [c]) =
          ([], (r.advance c).2) := by
        rw [Reader.readAll_append, hread, Reader.readAll_singleton, hgoes]
        rfl
      have hhead : ∀ d, (start ++ [c]).head? = some d →
          isSeparator d = false := by
        intro d hd
        obtain ⟨first, others, rfl⟩ := exists_cons_of_ne_nil hne
        exact hbegins d (by simpa using hd)
      have hmore :=
        ih hhead hnext (Reader.extends_advance hinside hgoes).inside hrest
      rwa [append_assoc, singleton_append, ← hfound] at hmore
    · obtain ⟨word, rfl, hseparator⟩ := Reader.eq_bare_of_ended hgoes
      have hbreak : ∀ d, (c :: cs).head? = some d → isSeparator d = true := by
        intro d hd
        obtain rfl : c = d := by simpa using hd
        exact hseparator
      rw [Reader.run_bare_of_break hbreak] at hrun
      cases hrest : Reader.fresh.run (c :: cs) with
      | error e =>
        rw [hrest] at hrun
        cases hrun
      | ok more =>
        rw [hrest] at hrun
        exact ⟨start, word.reverse, c :: cs, more, rfl,
          ⟨hbegins, by rw [reverse_reverse, hread]⟩, hbreak, hrest,
          (Except.ok.inj hrun).symm⟩

theorem exists_first {line : List Char} {found : List (List Char)}
    (h : Reader.fresh.run line = .ok found) :
    (found = [] ∧ ∀ c ∈ line, isSeparator c = true) ∨
      ∃ p rest more, line = Piece.text p ++ rest ∧
        (∀ c ∈ p.gap, isSeparator c = true) ∧ Writes p.source p.word ∧
        (∀ c, rest.head? = some c → isSeparator c = true) ∧
        Reader.fresh.run rest = .ok more ∧ found = p.word :: more := by
  have hgap : ∀ c ∈ line.takeWhile isSeparator, isSeparator c = true :=
    all_eq_true.1 all_takeWhile
  have hline := takeWhile_append_dropWhile (p := isSeparator) (l := line)
  generalize hrest : line.dropWhile isSeparator = rest at hline
  rw [← hline, Reader.run_separators hgap] at h
  cases rest with
  | nil =>
    left
    rw [append_nil] at hline
    rw [hline] at hgap
    exact ⟨(Except.ok.inj h).symm, hgap⟩
  | cons c cs =>
    right
    have hc : isSeparator c = false := by
      have hnot := head?_dropWhile_not isSeparator line
      rw [hrest] at hnot
      simpa using hnot
    obtain ⟨hended, hbegin⟩ := Reader.extends_begin hc
    have hread :
        Reader.fresh.readAll [c] = ([], (Reader.fresh.advance c).2) := by
      rw [Reader.readAll_singleton, ← hended]
    rw [run_of_advance (Prod.ext hended rfl)] at h
    obtain ⟨source, word, after, more, htext, hwrites, hbreak, hmore, hfound⟩ :=
      exists_source (by simpa using hc) hread hbegin.inside h
    refine ⟨⟨line.takeWhile isSeparator, source, word⟩, after, more, ?_, hgap,
      hwrites, hbreak, hmore, hfound⟩
    rw [Piece.text, append_assoc, ← htext]
    exact hline.symm

theorem exists_layout {line : List Char} {found : List (List Char)}
    (h : Reader.fresh.run line = .ok found) :
    ∃ pieces trail, IsLayout line pieces trail ∧
      pieces.map Piece.word = found := by
  induction found generalizing line with
  | nil =>
    rcases exists_first h
      with ⟨-, hline⟩ | ⟨p, rest, more, -, -, -, -, -, hfound⟩
    · exact ⟨[], line, ⟨by simp, by simp, by simp, by simp, hline⟩, rfl⟩
    · cases hfound
  | cons word found ih =>
    rcases exists_first h with ⟨hnil, -⟩ | ⟨p, rest, more, hline, hgap, hwrites,
      hbreak, hrest, hfound⟩
    · cases hnil
    · obtain ⟨rfl, rfl⟩ := List.cons.inj hfound
      obtain ⟨pieces, trail, hlayout, hwords⟩ := ih hrest
      exact ⟨p :: pieces, trail, IsLayout.cons_iff.2 ⟨rest, hline, hgap,
        hwrites, hlayout, hbreak⟩, by simp [hwords]⟩

/-- **A line splits into some words exactly if it is laid out (`IsLayout`) as
their sources.** -/
theorem split_eq_ok_iff {line : String} {words : List String} :
    split line = .ok words ↔
    ∃ pieces trail, IsLayout line.toList pieces trail ∧
      pieces.map (fun p => String.ofList p.word) = words := by
  constructor
  · intro h
    obtain ⟨pieces, trail, hlayout, hwords⟩ := exists_layout (run_of_split h)
    refine ⟨pieces, trail, hlayout, ?_⟩
    have hback := congrArg (List.map String.ofList) hwords
    simpa [Function.comp_def] using hback
  · rintro ⟨pieces, trail, hlayout, rfl⟩
    rw [split_eq, hlayout.run]
    simp [Except.map, Function.comp_def]

/-! ## What is found in a line -/

/-- **What has no separator in it is found in a line if it is found in the
source of a word.** -/
theorem IsLayout.infix_iff {line trail pat : List Char} {pieces : List Piece}
    (h : IsLayout line pieces trail)
    (hne : pat ≠ []) (hpat : ∀ c ∈ pat, isSeparator c = false) :
    pat <:+: line ↔ ∃ p ∈ pieces, pat <:+: p.source := by
  have hhead : ∀ c, pat.head? = some c → isSeparator c = false :=
    fun c hc => hpat c (mem_of_head? hc)
  induction pieces generalizing line with
  | nil =>
    have hline : line = trail ++ [] := by simpa using h.text
    constructor
    · intro hfound
      rw [hline] at hfound
      exact absurd
        (infix_nil.1 (Text.infix_of_infix_append hne hhead h.trail hfound)) hne
    · rintro ⟨p, hp, -⟩
      cases hp
  | cons p pieces ih =>
    obtain ⟨rest, rfl, hgap, -, hrest, hbreak⟩ := cons_iff.1 h
    have hskip : pat <:+: p.gap ++ p.source ++ rest ↔
        pat <:+: p.source ++ rest := by
      rw [append_assoc]
      constructor
      · exact Text.infix_of_infix_append hne hhead hgap
      · intro hfound
        exact hfound.trans (suffix_append ..).isInfix
    have hcut : pat <:+: p.source ++ rest ↔ pat <:+: p.source ∨
        pat <:+: rest := by
      cases rest with
      | nil => simp [infix_nil, hne]
      | cons s rest =>
        have hs : s ∉ pat := by
          intro hm
          have hnot := hpat s hm
          rw [hbreak s rfl] at hnot
          cases hnot
        rw [Text.infix_append_cons_iff hs]
        have htail : pat <:+: s :: rest ↔ pat <:+: rest := by
          simpa [infix_nil, hne] using Text.infix_append_cons_iff hs [] rest
        rw [htail]
    have hlater : pat <:+: rest ↔ ∃ q ∈ pieces, pat <:+: q.source := ih hrest
    rw [hskip, hcut, hlater]
    simp

end TaskShell.Words

import TaskShell.App.Completion
import TaskShell.Proofs.Sources
import TaskShell.Proofs.Wrapping

/-!
# The word that a completion replaces

The editor counts characters back from the cursor, while the candidates are
matched with the word that was read. A word is read from its source, which may
have quotes and backslashes more than the word, and separators that are no plain
blanks may stand behind it. So a completion never touches what stands before the
word, but it leaves the beginning of a longer source in place.
-/

namespace TaskShell

open List

open TaskShell.Words (IsLayout Piece Writes isMark isPlain isSeparator)
open TaskShell.Editor (Completion Document)

namespace Text

/-! ## The last run of characters that are not blank -/

theorem exists_last_run {cs : List Char} (h : ∃ c ∈ cs, isBlank c = false) :
    ∃ lead word trail,
    cs = lead ++ word ++ trail ∧
    (∀ c, lead.getLast? = some c → isBlank c = true) ∧ Blankless word ∧
      ∀ c ∈ trail, isBlank c = true := by
  have houter := trimEnd_append_takeWhile isBlank cs
  generalize htrail : (cs.reverse.takeWhile isBlank).reverse = trail at houter
  have hinner := trimEnd_append_takeWhile (!isBlank ·) (trimEnd isBlank cs)
  generalize hword : ((trimEnd isBlank cs).reverse.takeWhile
    (!isBlank ·)).reverse = word at hinner
  have hblanks : ∀ c ∈ trail, isBlank c = true := by
    intro c hc
    rw [← htrail, mem_reverse] at hc
    exact all_eq_true.1 all_takeWhile c hc
  have hnone : ∀ c ∈ word, isBlank c = false := by
    intro c hc
    rw [← hword, mem_reverse] at hc
    simpa using all_eq_true.1 all_takeWhile c hc
  refine ⟨_, word, trail, by rw [hinner, houter],
    fun c hc => by simpa using getLast?_trimEnd hc, ⟨?_, hnone⟩, hblanks⟩
  -- the last character before the trail is no blank, so the run has at least
  -- that one
  rintro rfl
  rw [append_nil] at hinner
  cases hlast : (trimEnd isBlank cs).getLast? with
  | none =>
    obtain ⟨c, hc, hblank⟩ := h
    rw [← houter, getLast?_eq_none_iff.1 hlast, nil_append] at hc
    rw [hblanks c hc] at hblank
    cases hblank
  | some c =>
    have hblank : isBlank c = true := by
      have hc := hlast
      rw [← hinner] at hc
      simpa using getLast?_trimEnd hc
    rw [getLast?_trimEnd hlast] at hblank
    cases hblank

theorem wordsFrom_blanks {cs : List Char} (h : ∀ c ∈ cs, isBlank c = true) :
    wordsFrom cs [] = [] := by
  rw [← append_nil cs, Words.wordsFrom_append h]
  rfl

theorem getLast?_wordsFrom {lead word trail : List Char}
    (hstart : ∀ c, lead.getLast? = some c → isBlank c = true)
    (hword : Blankless word) (htrail : ∀ c ∈ trail, isBlank c = true) :
    (wordsFrom (lead ++ word ++ trail) []).getLast? = some word := by
  have hend : wordsFrom (word ++ trail) [] = [word] := by
    cases trail with
    | nil => rw [append_nil, wordsFrom_end hword]
    | cons b trail =>
      rw [forall_mem_cons] at htrail
      rw [Words.wordsFrom_append_blank htrail.1, wordsFrom_end hword,
        wordsFrom_blanks htrail.2, append_nil]
  rcases eq_nil_or_concat lead with rfl | ⟨start, b, rfl⟩
  · rw [nil_append, hend]
    rfl
  · have hb : isBlank b = true := hstart b (by simp)
    have hline : start.concat b ++ word ++ trail =
        start ++ b :: (word ++ trail) := by simp
    rw [hline, Words.wordsFrom_append_blank hb, hend]
    simp

theorem endsWith_blank_iff {cs : List Char} :
    endsWith (String.ofList cs) " " = true ↔ cs.getLast? = some ' ' := by
  show [' '].isPrefixOf (String.ofList cs).toList.reverse = true ↔ _
  rw [String.toList_ofList, ← head?_reverse]
  cases cs.reverse with
  | nil => simp
  | cons c rest =>
    rw [isPrefixOf_cons_cons, isPrefixOf_nil_left, Bool.and_true, beq_iff_eq,
      head?_cons, Option.some.injEq]
    exact eq_comm

end Text

namespace App

open Text

/-! ## The word being typed -/

theorem isBlank_of_isMark {c : Char} (h : isMark c = true) :
    isBlank c = false := by
  simp only [isMark, Words.isQuote, Bool.or_eq_true, beq_iff_eq] at h
  rcases h with (rfl | rfl) | rfl <;> rfl

/-- A word before the cursor: its source, what it is read as, and the text on
both sides of the source. -/
structure Token where
  lead : List Char
  source : List Char
  trail : List Char
  word : List Char

namespace Token

/-- The `Token` that is being typed at the end of a text. In a text that splits
it is the last one, or a new one after a plain blank; in any other text it is
the last run of characters that are not blank. -/
inductive IsCurrent (before : List Char) : Token → Prop
  | unbegun {pieces : List Piece} {trail : List Char}
      (layout : IsLayout before pieces trail)
      (start : pieces = [] ∨ before.getLast? = some ' ') :
        IsCurrent before ⟨before, [], [], []⟩
  | written {pieces : List Piece} {p : Piece} {trail : List Char}
      (layout : IsLayout before (pieces ++ [p]) trail)
      (goes : before.getLast? ≠ some ' ') : IsCurrent before
        ⟨pieces.flatMap Piece.text ++ p.gap, p.source, trail, p.word⟩
  | unreadable {lead word trail : List Char} (layout : ∀ pieces rest,
      ¬ IsLayout before pieces rest)
      (text : before = lead ++ word ++ trail) (start : ∀ c,
        lead.getLast? = some c → isBlank c = true)
      (blankless : Blankless word) (blanks : ∀ c ∈ trail, isBlank c = true) :
        IsCurrent before ⟨lead, word, trail, word⟩

/-- What is left of the source and of what stands behind it, if as many
characters as the word has are taken away at the end. -/
def left (t : Token) : List Char :=
  (t.source ++ t.trail).take ((t.source ++ t.trail).length - t.word.length)

theorem length_left (t : Token) :
    t.left.length = t.source.length + t.trail.length - t.word.length := by
  simp [left]

namespace IsCurrent

variable {before : List Char} {t : Token} (h : t.IsCurrent before)
include h

theorem text_eq : before = t.lead ++ t.source ++ t.trail := by
  cases h with
  | unbegun layout start => simp
  | written layout goes => simpa [Piece.text] using layout.text
  | unreadable layout text start blankless blanks => exact text

theorem sublist : t.word.Sublist t.source := by
  cases h with
  | unbegun layout start => exact List.Sublist.refl _
  | written layout goes => exact (layout.writes _ (by simp)).sublist
  | unreadable layout text start blankless blanks => exact List.Sublist.refl _

theorem length_le : t.word.length ≤ t.source.length := h.sublist.length_le

theorem left_eq_nil_iff : t.left = [] ↔ t.source = t.word ∧ t.trail = [] := by
  have hlength := h.length_le
  rw [← length_eq_zero_iff, length_left]
  constructor
  · intro hzero
    have hsource : t.word = t.source := h.sublist.eq_of_length (by omega)
    exact ⟨hsource.symm, length_eq_zero_iff.1 (by omega)⟩
  · rintro ⟨hsource, htrail⟩
    rw [hsource, htrail]
    simp

theorem take_eq :
    before.take (before.length - t.word.length) = t.lead ++ t.left := by
  have hlength := h.length_le
  have hsum : before.length - t.word.length =
      t.lead.length + ((t.source ++ t.trail).length - t.word.length) := by
    rw [h.text_eq]
    simp only [length_append]
    omega
  rw [hsum]
  conv => lhs; rw [h.text_eq, append_assoc]
  exact take_length_add_append _

/-- A text ends with the word itself if only quotes and backslashes stand before
it in the source, and nothing behind. -/
theorem drop_eq_iff
    (hstart : t.trail = [] ∨ ∃ c, t.word.head? = some c ∧ isPlain c = true) :
    before.drop (before.length - t.word.length) = t.word ↔
      t.trail = [] ∧ ∃ marks, t.source = marks ++ t.word ∧
        ∀ m ∈ marks, isMark m = true := by
  have hend : before.drop (before.length - t.word.length) = t.word ↔
      t.word <:+ t.source ++ t.trail := by
    have hsuffix : t.word <:+ t.source ++ t.trail ↔ t.word <:+ before := by
      rw [h.text_eq, append_assoc]
      constructor
      · intro hword
        exact hword.trans (suffix_append ..)
      · intro hword
        refine suffix_of_suffix_length_le hword (suffix_append ..) ?_
        rw [length_append]
        exact Nat.le_trans h.length_le (Nat.le_add_right ..)
    rw [hsuffix, suffix_iff_eq_drop]
    exact eq_comm
  rw [hend]
  cases h with
  | unbegun layout start => simp
  | written layout goes =>
    exact (layout.writes _ (by simp)).suffix_iff layout.trail hstart
  | @unreadable lead word trail layout text start blankless blanks =>
    constructor
    · intro hword
      refine ⟨?_, [], rfl, by simp⟩
      -- the word ends with no blank, and what stands behind it does
      cases htrail : trail.getLast? with
      | none => exact getLast?_eq_none_iff.1 htrail
      | some b =>
        obtain ⟨c, rest, hrev⟩ := blankless.reverse_eq_cons
        obtain ⟨start, hstart⟩ := hword
        have hlast := congrArg List.getLast? hstart
        have hc : word.getLast? = some c := by rw [← head?_reverse, hrev]; rfl
        simp only [getLast?_append, hc, htrail, Option.some_or,
          Option.some.injEq] at hlast
        have hblank := blanks b (mem_of_getLast? htrail)
        rw [← hlast, blankless.2 c (mem_of_getLast? hc)] at hblank
        cases hblank
    · rintro ⟨htrail, -⟩
      have hnil : trail = [] := htrail
      exact ⟨[], by simp [hnil]⟩

end IsCurrent

/-- Every text before the cursor has a word that `IsCurrent`. -/
theorem exists_isCurrent (before : List Char) :
    ∃ t : Token, t.IsCurrent before := by
  cases hrun : Words.Reader.fresh.run before with
  | ok found =>
    obtain ⟨pieces, trail, layout, -⟩ := Words.exists_layout hrun
    by_cases hstart : pieces = [] ∨ before.getLast? = some ' '
    · exact ⟨_, .unbegun layout hstart⟩
    · rw [not_or] at hstart
      obtain ⟨hne, hend⟩ := hstart
      obtain ⟨others, p, hpieces⟩ := (eq_nil_or_concat pieces).resolve_left hne
      rw [concat_eq_append] at hpieces
      subst hpieces
      exact ⟨_, .written layout hend⟩
  | error fault =>
    have hnone : ∀ pieces rest, ¬ IsLayout before pieces rest := by
      intro pieces rest layout
      rw [layout.run] at hrun
      cases hrun
    -- a text that does not split has a quote or a backslash, which is no blank
    have hchar : ∃ c ∈ before, isBlank c = false := by
      by_cases hmark : ∃ c ∈ before, isMark c = true
      · obtain ⟨c, hc, hm⟩ := hmark
        exact ⟨c, hc, isBlank_of_isMark hm⟩
      · have hunmarked : ∀ c ∈ before, isMark c = false := by simpa using hmark
        obtain ⟨found, hfound⟩ :=
          Words.Reader.run_of_unmarked hunmarked .fresh (.inl rfl)
        rw [hfound] at hrun
        cases hrun
    obtain ⟨lead, word, trail, htext, hstart, hword, htrail⟩ :=
      exists_last_run hchar
    exact ⟨_, .unreadable hnone htext hstart hword htrail⟩

end Token

/-! ## The words that were typed -/

theorem Token.IsCurrent.typedWords_eq {before : List Char} {t : Token}
    (h : t.IsCurrent before) :
    (typedWords (String.ofList before)).getLast?.getD "" =
      String.ofList t.word := by
  have hsplit {pieces : List Piece} {trail : List Char}
    (layout : IsLayout before pieces trail) :
      Words.split (String.ofList before) =
        .ok (pieces.map fun p => String.ofList p.word) :=
    Words.split_eq_ok_iff.2 ⟨pieces, trail, by rwa [String.toList_ofList], rfl⟩
  unfold typedWords
  cases h with
  | unbegun layout start =>
    rw [hsplit layout]
    by_cases hend : endsWith (String.ofList before) " " = true
    · simp [hend]
    · have hempty := start.resolve_right (mt endsWith_blank_iff.2 hend)
      simp [hend, hempty]
  | written layout goes =>
    have hend : ¬ endsWith (String.ofList before) " " = true := by
      rwa [endsWith_blank_iff]
    rw [hsplit layout]
    simp [hend]
  | @unreadable lead word trail layout text start blankless blanks =>
    cases hresult : Words.split (String.ofList before) with
    | ok found =>
      obtain ⟨pieces, rest, hlayout, -⟩ := Words.split_eq_ok_iff.1 hresult
      rw [String.toList_ofList] at hlayout
      exact absurd hlayout (layout pieces rest)
    | error fault =>
      show ((wordsFrom (String.ofList before).toList []).map
        String.ofList).getLast?.getD "" = String.ofList word
      rw [String.toList_ofList, text, getLast?_map,
        getLast?_wordsFrom start blankless blanks]
      rfl

/-! ## Completions -/

/-- Whether a text is offered for a word: it begins with the word, or the word
looks like a path and the text is one of the paths that begin so. -/
def Matches (w : Site) (word text : String) : Prop :=
  startsWith text word = true ∨ looksLikePath word = true ∧
    text ∈ Path.glob w (word ++ "*")

private theorem matches_of_mem_replacements {w : Site}
    {before current text : String}
    {parts : List String} (h : text ∈ replacements w before parts current) :
    Matches w current text := by
  unfold replacements at h
  split at h
  · cases h
  · split at h
    · next hpath => exact .inr ⟨hpath, h⟩
    · left
      split at h
      · split at h
        · exact (mem_filter.1 h).2
        · exact (mem_filter.1 h).2
      · exact (mem_filter.1 h).2

/-- A completion `Matches` the word that is being typed, and takes away as many
characters as that word has. -/
theorem Token.IsCurrent.of_mem_completions {w : Site} {before : List Char}
    {t : Token} {c : Completion}
    (h : t.IsCurrent before) (hc : c ∈ completions w (String.ofList before)) :
    Matches w (String.ofList t.word) c.text ∧ c.back = t.word.length := by
  unfold completions at hc
  simp only [h.typedWords_eq] at hc
  obtain ⟨text, htext, rfl⟩ := mem_map.1 hc
  exact ⟨matches_of_mem_replacements htext, by simp⟩

theorem mem_flagsOf_of_known {command flag : String} {known : List String}
    (hcommand : command.isEmpty = false)
    (hknown : knownFlags.lookup command = some known) (hflag : flag ∈ known) :
    flag ∈ flagsOf command := by
  unfold flagsOf
  rw [hcommand, hknown]
  exact mem_append_left _ hflag

/-- A flag of the command is among the `completions` of the word behind it. -/
theorem mem_completions_of_flag (w : Site)
    {before command current flag : String} {cmd : Shell.Command}
    (hwords : typedWords before = [command, current])
    (hforeign : isForeign [command, current] = false)
    (hpath : looksLikePath current = false)
    (hcommand : Shell.Command.ofName? command = some cmd)
    (hflag : flag ∈ flagsOf command) (hstart : startsWith flag current = true) :
    (⟨flag, current.length⟩ : Completion) ∈ completions w before := by
  unfold completions replacements
  rw [hwords]
  refine mem_map.2 ⟨flag, ?_, rfl⟩
  simp [hforeign, hpath, hcommand, isFirstWord, hflag, hstart]

/-- **What a completion makes of a document.** The text before the word that is
being typed stays, and the completion stands in place of the word if the word
was written as it is and reaches up to the cursor. Otherwise the beginning of
its source is left. The characters that are taken away are the word itself only
if its source has no quotes or backslashes but in front. -/
theorem apply_of_mem_completions (w : Site) (d : Document) (c : Completion)
    (hc : c ∈ completions w (String.ofList d.before)) :
    (∃ t : Token, t.IsCurrent d.before) ∧ ∀ t : Token, t.IsCurrent d.before →
      d.before = t.lead ++ t.source ++ t.trail ∧
      Matches w (String.ofList t.word) c.text ∧ c.back = t.word.length ∧
      c.apply d = ⟨t.lead ++ t.left ++ c.text.toList ++ d.after,
        (t.lead ++ t.left ++ c.text.toList).length⟩ ∧
      (t.left = [] ↔ t.source = t.word ∧ t.trail = []) ∧
      (t.trail = [] ∨
        (∃ first, t.word.head? = some first ∧ isPlain first = true) →
        (d.before.drop (d.before.length - c.back) = t.word ↔
          t.trail = [] ∧ ∃ marks, t.source = marks ++ t.word ∧
            ∀ m ∈ marks, isMark m = true)) := by
  refine ⟨Token.exists_isCurrent d.before, fun t ht => ?_⟩
  obtain ⟨hmatches, hback⟩ := ht.of_mem_completions hc
  refine ⟨ht.text_eq, hmatches, hback, ?_, ht.left_eq_nil_iff, ?_⟩
  · unfold Completion.apply
    rw [hback, ht.take_eq]
  · rw [hback]
    exact ht.drop_eq_iff

theorem Token.isCurrent_second {first command source word : List Char}
    (hfirst : Writes first command)
    (hsource : Writes source word) (hend : source.getLast? ≠ some ' ') :
    (⟨first ++ [' '], source, [], word⟩ : Token).IsCurrent
    (first ++ [' '] ++ source) := by
  have hlayout : IsLayout (first ++ [' '] ++ source)
      ([⟨[], first, command⟩] ++ [⟨[' '], source, word⟩]) [] := by
    have hblank : isSeparator ' ' = true := rfl
    exact ⟨by simp [Piece.text],
      by simp [hblank], by simp [hfirst, hsource], by simp, by simp⟩
  have hlast : (first ++ [' '] ++ source).getLast? ≠ some ' ' := by
    cases hc : source.getLast? with
    | none => exact absurd (getLast?_eq_none_iff.1 hc) hsource.ne_nil
    | some c =>
      rw [hc] at hend
      rwa [getLast?_append, hc]
  simpa [Piece.text] using IsCurrent.written hlayout hlast

private theorem mem_flagsOf_head : "--n" ∈ flagsOf "head" := by
  have hknown : knownFlags.lookup "head" = some ["--n"] := by decide
  exact mem_flagsOf_of_known (by decide) hknown (by decide)

theorem mem_completions_head (w : Site) {before : String}
    (h : typedWords before = ["head", "--n"]) :
    (⟨"--n", 3⟩ : Completion) ∈ completions w before :=
  mem_completions_of_flag w h rfl rfl rfl mem_flagsOf_head rfl

theorem writes_head : Writes "head".toList "head".toList := ⟨by simp; rfl, rfl⟩

/-- A flag that is being typed as it is. -/
theorem apply_bare_flag :
    (⟨"--n", 3⟩ : Completion) ∈ completions default "head --n" ∧
    (⟨"head ".toList, "--n".toList, [], "--n".toList⟩ :
      Token).IsCurrent "head --n".toList ∧
    Completion.apply ⟨"--n", 3⟩ (.ofText "head --n".toList) =
      .ofText "head --n".toList := by
  have hmem : (⟨"--n", 3⟩ : Completion) ∈ completions default "head --n" :=
    mem_completions_head default rfl
  have hcurrent : (⟨"head ".toList, "--n".toList, [], "--n".toList⟩ :
      Token).IsCurrent "head --n".toList :=
    Token.isCurrent_second writes_head ⟨by simp; rfl, rfl⟩ (by decide)
  refine ⟨hmem, hcurrent, ?_⟩
  obtain ⟨-, -, -, happly, -⟩ := (apply_of_mem_completions default
    (.ofText "head --n".toList) _ hmem).2 _ hcurrent
  exact happly

/-- In quotes the same flag is offered, but three characters back from the
cursor does not lead to its beginning. -/
theorem apply_quoted_flag :
    (⟨"--n", 3⟩ : Completion) ∈ completions default "head \"--n\"" ∧
    (⟨"head ".toList, "\"--n\"".toList, [], "--n".toList⟩ :
      Token).IsCurrent "head \"--n\"".toList ∧
    "head \"--n\"".toList.drop ("head \"--n\"".length - 3) = "-n\"".toList ∧
    Completion.apply ⟨"--n", 3⟩ (.ofText "head \"--n\"".toList) =
      .ofText "head \"---n".toList := by
  refine ⟨?_, ?_, rfl, rfl⟩
  · exact mem_completions_head default rfl
  · exact Token.isCurrent_second writes_head ⟨by simp; rfl, rfl⟩ (by decide)

end App

end TaskShell

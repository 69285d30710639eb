import TaskShell.Proofs.Replacement

/-!
# Arguments of an alias

A shell quotes the arguments of a command so that each is read as one word
again. The line of an alias is read before the alias is replaced, which takes
the quotes off, and the words behind the alias are joined by blanks without
them. So the arguments are read a second time, and what they are then depends on
whether they needed quotes.

An argument that needs none is *bare*: it is not empty, and each of its
characters stands for itself. Bare arguments are read back as they are. No
others are: reading takes away every quote, backslash and separator that it
uses, so words that are read back unchanged from their joined text have no such
characters at all. This is a matter of counting (`length_spread_le`): the words
that are found, each with a blank behind it, are no longer than the text with
one blank behind it, and they are as long only if nothing was taken away.
-/

namespace TaskShell.Words

open List

variable {r : Reader} {words : List String}

/-! ## Reading one character at a time -/

/-- A reader of a line for `splitFrom`: where it stands, and the word being
read, last character first. -/
structure Reader where
  mode : Mode
  word : List Char

namespace Reader

def fresh : Reader := ⟨.between, []⟩

/-- The words that `splitFrom` finds in the rest of a line. -/
def run (r : Reader) (cs : List Char) : Except SplitFault (List (List Char)) :=
  splitFrom cs r.mode r.word

/-- What a reader does with one character: the words that it ends, and the
reader behind it. -/
def advance (r : Reader) (c : Char) : List (List Char) × Reader :=
  match r with
  | ⟨.between, word⟩ =>
    if isSeparator c then ([], ⟨.between, word⟩)
    else if c == '\\' then ([], ⟨.escape, []⟩)
    else if isQuote c then ([], ⟨.quote c, []⟩)
    else ([], ⟨.bare, [c]⟩)
  | ⟨.bare, word⟩ =>
    if isSeparator c then ([word.reverse], fresh)
    else if isQuote c then ([], ⟨.quote c, word⟩)
    else if c == '\\' then ([], ⟨.escape, word⟩)
    else ([], ⟨.bare, c :: word⟩)
  | ⟨.quote q, word⟩ =>
    if c == q then ([], ⟨.bare, word⟩)
    else if c == '\\' && q == '"' then ([], ⟨.quotedEscape, word⟩)
    else ([], ⟨.quote q, c :: word⟩)
  | ⟨.escape, word⟩ => ([], ⟨.bare, c :: word⟩)
  | ⟨.quotedEscape, word⟩ =>
    if c == '\\' || c == '"' then ([], ⟨.quote '"', c :: word⟩)
      else ([], ⟨.quote '"', c :: '\\' :: word⟩)

theorem map_nil_append (outcome : Except SplitFault (List (List Char))) :
    outcome.map ([] ++ ·) = outcome := by
  cases outcome <;> rfl

/-- **A line is read one character at a time.** -/
theorem run_cons (r : Reader) (c : Char) (cs : List Char) :
    r.run (c :: cs) = ((r.advance c).2.run cs).map ((r.advance c).1 ++ ·) := by
  obtain ⟨mode, word⟩ := r
  cases mode with
  | bare =>
    simp only [run, advance, splitFrom]
    split
    · rfl
    · repeat' split
      all_goals exact (map_nil_append _).symm
  | _ =>
    -- only a separator behind a word ends one
    simp only [run, advance, splitFrom]
    repeat' split
    all_goals exact (map_nil_append _).symm

theorem exists_of_run_cons {c : Char} {cs : List Char}
    {found : List (List Char)} (h : r.run (c :: cs) = .ok found) :
    ∃ rest, (r.advance c).2.run cs = .ok rest ∧
      found = (r.advance c).1 ++ rest := by
  rw [run_cons] at h
  cases hrest : (r.advance c).2.run cs with
  | error e =>
    rw [hrest] at h
    cases h
  | ok rest =>
    rw [hrest] at h
    cases h
    exact ⟨rest, rfl, rfl⟩

private theorem run_fresh_of_between (word cs : List Char) :
    (⟨.between, word⟩ : Reader).run cs = fresh.run cs := by
  induction cs with
  | nil => rfl
  | cons c cs ih =>
    rw [run_cons, run_cons]
    unfold advance fresh
    dsimp only
    split
    · rw [ih, fresh]
    · rfl

/-- **What is read in front of a blank stays as it is**, and what follows is
read on its own. -/
theorem run_append_blank (cs more : List Char) :
    ∀ (r : Reader) (found : List (List Char)), r.run cs = .ok found →
    r.run (cs ++ ' ' :: more) = (fresh.run more).map (found ++ ·) := by
  induction cs with
  | nil =>
    intro r found h
    obtain ⟨mode, word⟩ := r
    rw [nil_append, run_cons]
    cases mode with
    | between =>
      cases h
      exact congrArg (Except.map ([] ++ ·)) (run_fresh_of_between word more)
    | bare =>
      cases h
      rfl
    | _ => cases h
  | cons c cs ih =>
    intro r found h
    obtain ⟨rest, hrest, rfl⟩ := exists_of_run_cons h
    rw [cons_append, run_cons, ih _ rest hrest]
    cases fresh.run more with
    | error e => rfl
    | ok others => exact congrArg Except.ok (append_assoc ..).symm

/-! ## What reading takes away -/

def spread (words : List (List Char)) : List Char := words.flatMap (· ++ [' '])

theorem length_spread_append (words more : List (List Char)) :
    (spread (words ++ more)).length =
      (spread words).length + (spread more).length := by
  rw [spread, flatMap_append, length_append]
  rfl

/-- How many characters a reader has read that may still become part of a word.
A backslash in double quotes is one of them until the character behind it is
known. -/
def held (r : Reader) : Nat :=
  match r.mode with
  | .between => 0
  | .quotedEscape => r.word.length + 1
  | _ => r.word.length

/-- `advance` adds no more than its character to what is `held`. -/
theorem held_advance (r : Reader) (c : Char) :
    (spread (r.advance c).1).length + (r.advance c).2.held ≤ r.held + 1 := by
  obtain ⟨mode, word⟩ := r
  cases mode <;> simp only [advance] <;> repeat' split
  all_goals simp [spread, held, fresh]

/-- **The words that are found are no longer than the text**, each counted with
a blank behind it. -/
theorem length_spread_le (cs : List Char) :
    ∀ (r : Reader) (found : List (List Char)), r.run cs = .ok found →
    (spread found).length ≤ r.held + cs.length + 1 := by
  induction cs with
  | nil =>
    intro r found h
    obtain ⟨mode, word⟩ := r
    cases mode with
    | between =>
      cases h
      exact Nat.zero_le _
    | bare =>
      cases h
      simp [spread, held]
    | _ => cases h
  | cons c cs ih =>
    intro r found h
    obtain ⟨rest, hrest, rfl⟩ := exists_of_run_cons h
    have hstep := r.held_advance c
    have hmore := ih _ rest hrest
    rw [length_spread_append, length_cons]
    omega

end Reader

/-! ## Words without quotes -/

def isPlain (c : Char) : Bool := !isSeparator c && !isQuote c && c != '\\'

/-- A word of `isPlain` characters, which needs no quotes. -/
def Bare (word : List Char) : Prop := word ≠ [] ∧ ∀ c ∈ word, isPlain c = true

instance (word : List Char) : Decidable (Bare word) :=
  decidable_of_iff ((!word.isEmpty && word.all isPlain) = true) (by simp [Bare])

theorem isPlain_iff {c : Char} :
    isPlain c = true ↔ ¬ isSeparator c ∧ ¬ isQuote c ∧ ¬ (c == '\\') := by
  simp [isPlain, and_assoc]

namespace Reader

section Plain

variable {c : Char} (h : isPlain c = true) (word : List Char)
include h

theorem advance_between_of_plain :
    (⟨.between, word⟩ : Reader).advance c = ([], ⟨.bare, [c]⟩) := by
  obtain ⟨hseparator, hquote, hescape⟩ := isPlain_iff.1 h
  simp only [advance, if_neg hseparator, if_neg hescape, if_neg hquote]

theorem advance_bare_of_plain :
    (⟨.bare, word⟩ : Reader).advance c = ([], ⟨.bare, c :: word⟩) := by
  obtain ⟨hseparator, hquote, hescape⟩ := isPlain_iff.1 h
  simp only [advance, if_neg hseparator, if_neg hescape, if_neg hquote]

end Plain

/-- A reader that has taken nothing away from the word it is in. -/
def Tidy (r : Reader) : Prop := r.mode = .between ∨ r.mode = .bare ∧
    Bare r.word.reverse

theorem tidy_bare {word : List Char} {c : Char}
    (h : ∀ d ∈ word, isPlain d = true) (hc : isPlain c = true) :
    (⟨.bare, c :: word⟩ : Reader).Tidy := by
  refine .inr ⟨rfl, by simp, fun d hd => ?_⟩
  rcases mem_cons.1 (mem_reverse.1 hd) with rfl | hd
  · exact hc
  · exact h d hd

/-- A character that adds as much as itself to what is `held` is plain, or it is
a separator and ends a word. -/
theorem Tidy.advance {c : Char} (h : r.Tidy)
    (hfull : (spread (r.advance c).1).length +
      (r.advance c).2.held = r.held + 1) :
    (r.advance c).2.Tidy ∧ ∀ word ∈ (r.advance c).1, Bare word := by
  obtain ⟨mode, word⟩ := r
  rcases h with hmode | ⟨hmode, hbare⟩
  · obtain rfl : mode = .between := hmode
    by_cases hplain : isPlain c = true
    · rw [advance_between_of_plain hplain]
      exact ⟨tidy_bare (by simp) hplain, by simp⟩
    · rw [isPlain_iff] at hplain
      simp only [Reader.advance] at hfull
      repeat' split at hfull
      all_goals simp_all [spread, held]
  · obtain rfl : mode = .bare := hmode
    by_cases hplain : isPlain c = true
    · rw [advance_bare_of_plain hplain]
      exact ⟨tidy_bare (fun d hd => hbare.2 d (mem_reverse.2 hd))
        hplain, by simp⟩
    · by_cases hseparator : isSeparator c = true
      · simp only [Reader.advance, if_pos hseparator]
        exact ⟨.inl rfl, by simpa using hbare⟩
      · rw [isPlain_iff] at hplain
        simp only [Reader.advance, if_neg hseparator] at hfull
        repeat' split at hfull
        all_goals simp_all [spread, held]

/-- **Words are `Bare` if nothing was taken away.** -/
theorem bare_of_length (cs : List Char) :
    ∀ (r : Reader) (found : List (List Char)), r.Tidy → r.run cs = .ok found →
    (spread found).length = r.held + cs.length + 1 →
    ∀ word ∈ found, Bare word := by
  induction cs with
  | nil =>
    intro r found hr h _
    obtain ⟨mode, word⟩ := r
    rcases hr with hmode | ⟨hmode, hbare⟩
    · obtain rfl : mode = .between := hmode
      cases h
      simp
    · obtain rfl : mode = .bare := hmode
      cases h
      simpa using hbare
  | cons c cs ih =>
    intro r found hr h hlength
    obtain ⟨rest, hrest, rfl⟩ := exists_of_run_cons h
    have hstep := r.held_advance c
    have hmore := length_spread_le cs _ rest hrest
    rw [length_spread_append, length_cons] at hlength
    -- neither the character nor the rest can have lost anything
    obtain ⟨hnext, hended⟩ := hr.advance (c := c) (by omega)
    exact forall_mem_append.2 ⟨hended, ih _ rest hnext hrest (by omega)⟩

end Reader

/-! ## Lines of several words -/

theorem splitOrBlanks_of_split {line : String} (h : split line = .ok words) :
    splitOrBlanks line = words := by
  rw [splitOrBlanks, h]

theorem split_eq (line : String) :
    split line = (Reader.fresh.run line.toList).map (·.map String.ofList) := rfl

theorem run_of_split {line : String} (h : split line = .ok words) :
    Reader.fresh.run line.toList = .ok (words.map String.toList) := by
  rw [split_eq] at h
  cases hrun : Reader.fresh.run line.toList with
  | error e =>
    rw [hrun] at h
    cases h
  | ok found =>
    rw [hrun] at h
    cases h
    simp [Function.comp_def]

theorem split_append_blank {before : String} (h : split before = .ok words)
    (after : String) :
    split (before ++ " " ++ after) = (split after).map (words ++ ·) := by
  have htext : (before ++ " " ++ after).toList =
      before.toList ++ ' ' :: after.toList := by simp
  rw [split_eq, htext,
    Reader.run_append_blank _ _ _ _ (run_of_split h), split_eq]
  cases Reader.fresh.run after.toList with
  | error e => rfl
  | ok found =>
    refine congrArg Except.ok ?_
    simp [Function.comp_def]

theorem split_intercalate {pairs : List (String × String)}
    (h : ∀ pair ∈ pairs, split pair.1 = .ok [pair.2]) :
    split (" ".intercalate (pairs.map Prod.fst)) =
      .ok (pairs.map Prod.snd) := by
  induction pairs with
  | nil => rfl
  | cons pair rest ih =>
    have hpair := h pair mem_cons_self
    cases rest with
    | nil =>
      rw [map_singleton, String.intercalate_singleton]
      exact hpair
    | cons next rest =>
      rw [map_cons, map_cons, String.intercalate_cons_cons, split_append_blank
        hpair, ← map_cons, ih fun other hm => h other (mem_cons_of_mem _ hm)]
      rfl

/-! ## Words that are read back -/

theorem run_of_advance {r' : Reader} {c : Char} (h : r.advance c = ([], r'))
    (cs : List Char) : r.run (c :: cs) = r'.run cs := by
  rw [Reader.run_cons, h]
  exact Reader.map_nil_append _

theorem run_kept {mode : Mode} {cs : List Char}
    (h : ∀ c ∈ cs, ∀ word, (⟨mode, word⟩ : Reader).advance c =
      ([], ⟨mode, c :: word⟩)) (word rest : List Char) :
    (⟨mode, word⟩ : Reader).run (cs ++ rest) =
    (⟨mode, cs.reverse ++ word⟩ : Reader).run rest := by
  induction cs generalizing word with
  | nil => rfl
  | cons c cs ih =>
    rw [cons_append, run_of_advance (h c mem_cons_self word),
      ih fun d hd => h d (mem_cons_of_mem _ hd), reverse_cons, append_assoc]
    rfl

theorem run_of_bare {word : List Char} (h : Bare word) (rest : List Char) :
    Reader.fresh.run (word ++ rest) =
      (⟨.bare, word.reverse⟩ : Reader).run rest := by
  obtain ⟨hne, hplain⟩ := h
  obtain ⟨c, cs, rfl⟩ := exists_cons_of_ne_nil hne
  rw [cons_append, Reader.fresh, run_of_advance
    (Reader.advance_between_of_plain (hplain c mem_cons_self) []),
    run_kept fun d hd => Reader.advance_bare_of_plain
    (hplain d (mem_cons_of_mem _ hd)), reverse_cons]

theorem split_of_bare {word : String} (h : Bare word.toList) :
    split word = .ok [word] := by
  have hrun := run_of_bare h []
  rw [append_nil] at hrun
  rw [split_eq, hrun]
  refine congrArg (fun w => Except.ok [w]) ?_
  rw [reverse_reverse, String.ofList_toList]

private theorem toList_intercalate_blank (h : words ≠ []) :
    (" ".intercalate words).toList ++ [' '] =
      Reader.spread (words.map String.toList) := by
  induction words with
  | nil => contradiction
  | cons word rest ih =>
    cases rest with
    | nil => simp [Reader.spread]
    | cons next rest =>
      have hrest := ih (cons_ne_nil _ _)
      rw [String.intercalate_cons_cons, String.toList_append,
        String.toList_append, append_assoc, hrest]
      simp [Reader.spread]

/-- **Joined words split into themselves exactly if they are `Bare`.** -/
theorem split_intercalate_iff (words : List String) :
    split (" ".intercalate words) = .ok words ↔
    ∀ word ∈ words, Bare word.toList := by
  constructor
  · intro h word hword
    have hlength : (Reader.spread (words.map String.toList)).length =
        (" ".intercalate words).toList.length + 1 := by
      rw [← toList_intercalate_blank (ne_nil_of_mem hword), length_append]
      rfl
    refine Reader.bare_of_length _ Reader.fresh _ (.inl rfl) (run_of_split h) ?_
      _ (mem_map_of_mem hword)
    rw [hlength]
    simp [Reader.fresh, Reader.held]
  · intro h
    have hwords : ∀ pair ∈ words.map (fun word => (word, word)), split pair.1 =
        .ok [pair.2] := by
      intro pair hpair
      obtain ⟨word, hword, rfl⟩ := mem_map.1 hpair
      exact split_of_bare (h word hword)
    simpa [Function.comp_def] using split_intercalate hwords

/-! ## Quoted words -/

def safeChars : List Char :=
  "%+,-./0123456789:=@ABCDEFGHIJKLMNOPQRSTUVWXYZ_abcdefghijklmnopqrstuvwxyz"
    |>.toList

/-- A word as a shell quotes it: in single quotes, with the single quotes of its
own in double quotes. Characters of `safeChars` need none. -/
def quoteWord (word : String) : String :=
  if word.isEmpty then "''"
  else if word.toList.all safeChars.contains then word
  else "'" ++ Text.replace word "'" "'\"'\"'" ++ "'"

theorem isPlain_of_mem_safeChars :
    ∀ c ∈ safeChars, isPlain c = true := all_eq_true.1 (by decide)

theorem replaceFrom_single (p : Char) (new cs : List Char) :
    Text.replaceFrom [p] new cs 0 = cs.flatMap fun c => if p == c then new
      else [c] := by
  induction cs with
  | nil => rfl
  | cons c cs ih =>
    have hhere : [p].isPrefixOf (c :: cs) = (p == c) := by
      simp [List.isPrefixOf]
    rw [Text.replaceFrom, hhere, flatMap_cons]
    split
    · exact congrArg (new ++ ·) ih
    · exact congrArg (c :: ·) ih

theorem advance_quoted {c : Char} (h : c ≠ '\'') (word : List Char) :
    (⟨.quote '\'', word⟩ : Reader).advance c =
    ([], ⟨.quote '\'', c :: word⟩) := by
  simp [Reader.advance, h]

private theorem run_quoted (cs word rest : List Char) :
    (⟨.quote '\'', word⟩ : Reader).run ((cs.flatMap fun c =>
      if '\'' == c then "'\"'\"'".toList else [c]) ++ rest) =
      (⟨.quote '\'', cs.reverse ++ word⟩ : Reader).run rest := by
  induction cs generalizing word with
  | nil => rfl
  | cons c cs ih =>
    rw [flatMap_cons, append_assoc, reverse_cons, append_assoc,
      singleton_append, ← ih]
    by_cases hquote : c = '\''
    · -- the quote is closed, its own one stands in double quotes, and it is
      -- opened again
      subst hquote
      rw [if_pos (by decide)]
      show (⟨.quote '\'', word⟩ : Reader).run ('\'' :: '"' :: '\'' :: '"' ::
        '\'' :: _) = _
      rw [run_of_advance rfl, run_of_advance rfl, run_of_advance rfl,
        run_of_advance rfl, run_of_advance rfl]
      rfl
    · rw [if_neg (by simpa using Ne.symm hquote), singleton_append]
      exact run_of_advance (advance_quoted hquote word) _

theorem split_quoteWord (word : String) :
    split (quoteWord word) = .ok [word] := by
  unfold quoteWord
  split
  · next hempty =>
    rw [String.isEmpty_iff.1 hempty]
    rfl
  · next hne =>
    split
    · next hsafe =>
      refine split_of_bare ⟨fun hnil => hne ?_, fun c hc => ?_⟩
      · rw [String.isEmpty_iff, ← String.toList_eq_nil_iff, hnil]
      · exact isPlain_of_mem_safeChars c
          (contains_iff_mem.1 (all_eq_true.1 hsafe c hc))
    · have htext :
        ("'" ++ Text.replace word "'" "'\"'\"'" ++ "'").toList = '\'' ::
          ((word.toList.flatMap fun c => if '\'' == c then "'\"'\"'".toList
            else [c]) ++ ['\'']) := by
        rw [← replaceFrom_single]
        simp [Text.replace]
      rw [split_eq, htext, run_of_advance rfl, run_quoted, run_of_advance rfl]
      refine congrArg (fun w => Except.ok [w]) ?_
      simp

end TaskShell.Words

namespace TaskShell.Shell

open Text Words List

/-! ## Arguments behind an alias -/

def called (name : String) (args : List String) : String :=
  " ".intercalate (name :: args.map quoteWord)

/-- **A line with quoted arguments splits into these.** -/
theorem split_called {name : String} (h : Bare name.toList)
    (args : List String) :
    split (called name args) = .ok (name :: args) := by
  have hwords :
      ∀ pair ∈ (name, name) :: args.map (fun arg => (quoteWord arg, arg)),
      split pair.1 = .ok [pair.2] := by
    refine forall_mem_cons.2 ⟨split_of_bare h, fun pair hpair => ?_⟩
    obtain ⟨arg, -, rfl⟩ := mem_map.1 hpair
    exact split_quoteWord arg
  simpa [called, Function.comp_def] using split_intercalate hwords

theorem called_not_blank {name : String} (h : ¬ name.toList.all isBlank)
    (args : List String) :
    ¬ (called name args).toList.all isBlank := by
  intro hall
  rw [called, intercalate_cons] at hall
  split at hall
  · exact h hall
  · rw [String.toList_append, String.toList_append, append_assoc, all_append,
      Bool.and_eq_true] at hall
    exact h hall.1

section

variable {aliases : List (String × String)} {name expansion first : String}
  {rest args : List String}

/-- `expandAliases` replaces once if the new line starts with no alias. -/
theorem expandAliases_of_split {line : String} {depth : Int}
    (hdepth : 0 < depth) (hblank : ¬ line.toList.all isBlank)
    (hline : split line = .ok (name :: args))
    (halias : aliases.lookup name = some expansion)
    (hend : Unaliased aliases (" ".intercalate (expansion :: args))) :
    expandAliases aliases depth line = " ".intercalate (expansion :: args) := by
  obtain ⟨n, hn⟩ : ∃ n, depth.toNat = n + 1 :=
    Nat.exists_eq_succ_of_ne_zero (by omega)
  have honce : expandAliasOnce aliases line =
      some (" ".intercalate (expansion :: args)) :=
    replaces_iff.2 ⟨name, args, expansion,
      splitOrBlanks_of_split hline, halias, rfl⟩
  rw [expandAliases_of_not_blank hblank, hn, expandAliasesAtMost, honce]
  exact expandAliasesAtMost_of_unaliased hend n

section

variable (hexpansion : split expansion = .ok (first :: rest))
include hexpansion

/-- The words of the expansion are kept in front of the arguments, and these are
split on their own. -/
theorem split_replaced (args : List String) :
    split (" ".intercalate (expansion :: args)) =
      (split (" ".intercalate args)).map (first :: rest ++ ·) := by
  cases args with
  | nil =>
    rw [String.intercalate_singleton, hexpansion]
    exact congrArg Except.ok (append_nil _).symm
  | cons arg more =>
    rw [String.intercalate_cons_cons, split_append_blank hexpansion]

theorem split_replaced_iff (args : List String) :
    split (" ".intercalate (expansion :: args)) = .ok (first :: rest ++ args) ↔
    ∀ arg ∈ args, Bare arg.toList := by
  rw [split_replaced hexpansion, ← split_intercalate_iff]
  cases split (" ".intercalate args) with
  | error e => exact iff_of_false (fun h => by cases h) (fun h => by cases h)
  | ok words =>
    constructor
    · intro h
      exact congrArg Except.ok (append_cancel_left (Except.ok.inj h))
    · intro h
      rw [h]
      rfl

theorem unaliased_of_split (hfirst : aliases.lookup first = none)
    {words : List String} (h : split (" ".intercalate args) = .ok words) :
    Unaliased aliases (" ".intercalate (expansion :: args)) := by
  have hreplaced := split_replaced hexpansion args
  rw [h] at hreplaced
  intro word hword
  rw [splitOrBlanks_of_split hreplaced] at hword
  cases hword
  exact hfirst

end

end

/-- **Which arguments of an alias are kept.** A line calls an alias with quoted
arguments, and the first word of the expansion is no alias.

* If the arguments are bare, the expanded line splits into the words of the
  expansion and the arguments.
* If nothing is left to be replaced behind the first step, this is so only if
  the arguments are bare. An argument that needs quotes, be it for a blank, a
  quote or a backslash or because it is empty, is not kept.
* Something is left only if the arguments, joined by blanks, do not split at
  all. -/
theorem arguments_kept_iff {aliases : List (String × String)}
    {name expansion first : String} {rest : List String}
    {depth : Int} (hdepth : 0 < depth) (hname : Bare name.toList)
    (hblank : ¬ name.toList.all isBlank)
    (halias : aliases.lookup name = some expansion)
    (hexpansion : split expansion = .ok (first :: rest))
    (hfirst : aliases.lookup first = none) (args : List String) :
    ((∀ arg ∈ args, Bare arg.toList) →
      split (expandAliases aliases depth (called name args)) =
        .ok (first :: rest ++ args)) ∧
    (Unaliased aliases (" ".intercalate (expansion :: args)) →
      expandAliases aliases depth (called name args) =
        " ".intercalate (expansion :: args) ∧
      (split (expandAliases aliases depth (called name args)) =
        .ok (first :: rest ++ args) ↔
        ∀ arg ∈ args, Bare arg.toList)) ∧
    (¬ Unaliased aliases (" ".intercalate (expansion :: args)) →
      ∃ fault, split (" ".intercalate args) = .error fault) := by
  have hexpand : Unaliased aliases (" ".intercalate (expansion :: args)) →
      expandAliases aliases depth (called name args) =
        " ".intercalate (expansion :: args) :=
    expandAliases_of_split hdepth (called_not_blank hblank args)
      (split_called hname args) halias
  refine ⟨fun h => ?_, fun hend => ?_, fun hend => ?_⟩
  · rw [hexpand (unaliased_of_split hexpansion hfirst
      ((split_intercalate_iff args).2 h)),
      (split_replaced_iff hexpansion args).2 h]
  · rw [hexpand hend]
    exact ⟨rfl, split_replaced_iff hexpansion args⟩
  · cases hsplit : split (" ".intercalate args) with
    | error fault => exact ⟨fault, rfl⟩
    | ok words =>
      exact absurd (unaliased_of_split hexpansion hfirst hsplit) hend

/-- An expansion with quotes of its own, behind which a flag and an assignment
are kept and a backslash is not. -/
theorem arguments_kept_iff_directory :
    split "ls 'my dir'" = .ok ["ls", "my dir"] ∧
      split (expandAliases [("ll", "ls 'my dir'")] 5
        (called "ll" ["--all", "a=b;c"])) =
        .ok ["ls", "my dir", "--all", "a=b;c"] ∧
      split (expandAliases [("ll", "ls 'my dir'")] 5 (called "ll" ["a\\b"])) ≠
        .ok ["ls", "my dir", "a\\b"] := by
  have hexpansion : split "ls 'my dir'" = .ok ["ls", "my dir"] := by rfl
  have hlaws := @arguments_kept_iff [("ll", "ls 'my dir'")] "ll" "ls 'my dir'"
    "ls" ["my dir"] 5 (by decide) (by decide) (by decide) rfl hexpansion rfl
  refine ⟨hexpansion, (hlaws ["--all", "a=b;c"]).1 ?_, fun hkept => ?_⟩
  · simp only [forall_mem_cons]
    exact ⟨by decide, by decide, by simp⟩
  · have hbare :=
      ((hlaws ["a\\b"]).2.1 (expandAliasOnce_eq_none_iff.1 (by rfl))).2.1 hkept
    exact absurd (hbare "a\\b" mem_cons_self) (by decide)

/-- The quotes around an argument with a blank are lost, and it becomes two. -/
theorem quoted_argument_split :
    called "ll" ["a b"] = "ll 'a b'" ∧ split "echo" = .ok ["echo"] ∧
      expandAliases [("ll", "echo")] 5 (called "ll" ["a b"]) = "echo a b" ∧
      split (expandAliases [("ll", "echo")] 5 (called "ll" ["a b"])) =
        .ok ["echo", "a", "b"] := by
  have hcalled : called "ll" ["a b"] = "ll 'a b'" := by rfl
  have hexpand : expandAliases [("ll", "echo")] 5 "ll 'a b'" =
      "echo a b" := by rfl
  rw [hcalled, hexpand]
  exact ⟨rfl, by rfl, rfl, by rfl⟩

end TaskShell.Shell

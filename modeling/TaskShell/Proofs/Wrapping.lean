import TaskShell.Cow.Bubble
import TaskShell.Proofs.Splitting

/-!
# Wrapping

A message is wrapped greedily: a word goes on the current line if it still fits
there. The lines are then the words of the message in order, and no other way to
break the same words into lines that fit needs fewer of them.

The argument compares the greedy lines with any other ones, word by word. The
greedy line is never behind: when it takes a word that the other way puts on a
new line, the other way has used up one more line, and the rest of that line,
freed of the word, still fits. When the greedy line refuses a word, so does the
other one, as it holds no fewer words by then.
-/

namespace TaskShell

open Text List

variable {cs : List Char} {ws line : List String} {message word : String}

namespace Text

/-! ## Words -/

/-- What a word is made of: some characters, none of which is blank. -/
def Blankless (cs : List Char) : Prop := cs ≠ [] ∧ ∀ c ∈ cs, isBlank c = false

theorem blankless_of_mem_wordsFrom (cs word : List Char)
    (hword : ∀ c ∈ word, isBlank c = false) :
    ∀ w ∈ wordsFrom cs word, Blankless w := by
  fun_induction wordsFrom cs word with
  | case1 => simp
  | case2 word hne =>
    refine forall_mem_singleton.2 ⟨by simpa using hne, ?_⟩
    simpa using hword
  | case3 c cs hblank ih => exact ih hword
  | case4 c cs word hblank hne ih =>
    refine forall_mem_cons.2
      ⟨⟨by simpa using hne, by simpa using hword⟩, ih (by simp)⟩
  | case5 c cs word hblank ih =>
    exact ih (forall_mem_cons.2 ⟨by simpa using hblank, hword⟩)

theorem wordsFrom_nonblank (h : ∀ c ∈ cs, isBlank c = false)
    (more word : List Char) :
    wordsFrom (cs ++ more) word = wordsFrom more (cs.reverse ++ word) := by
  induction cs generalizing word with
  | nil => rfl
  | cons c cs ih =>
    obtain ⟨hc, hcs⟩ := forall_mem_cons.1 h
    rw [cons_append, wordsFrom.eq_def]
    dsimp only
    rw [hc, if_neg (by decide), ih hcs, reverse_cons, append_assoc]
    rfl

theorem Blankless.reverse_eq_cons (h : Blankless cs) :
    ∃ c rest, cs.reverse = c :: rest :=
  exists_cons_of_ne_nil (mt reverse_eq_nil_iff.1 h.1)

theorem wordsFrom_blank (h : Blankless cs) (more : List Char) :
    wordsFrom (cs ++ ' ' :: more) [] = cs :: wordsFrom more [] := by
  obtain ⟨c, rest, hrev⟩ := h.reverse_eq_cons
  calc wordsFrom (cs ++ ' ' :: more) [] =
        wordsFrom (' ' :: more) (c :: rest) := by
        rw [wordsFrom_nonblank h.2, append_nil, hrev]
    _ = (c :: rest).reverse :: wordsFrom more [] := rfl
    _ = cs :: wordsFrom more [] := by rw [← hrev, reverse_reverse]

theorem wordsFrom_end (h : Blankless cs) : wordsFrom cs [] = [cs] := by
  obtain ⟨c, rest, hrev⟩ := h.reverse_eq_cons
  calc wordsFrom cs [] = wordsFrom [] (c :: rest) := by
        rw [← append_nil cs, wordsFrom_nonblank h.2, append_nil, hrev]
    _ = [(c :: rest).reverse] := rfl
    _ = [cs] := by rw [← hrev, reverse_reverse]

end Text

namespace Cow

/-! ## Lines -/

def lineOf (ws : List String) : String := " ".intercalate ws

/-- The characters of some words, with one more for each word. -/
def extent : List String → Nat
  | [] => 0
  | w :: ws => w.length + 1 + extent ws

theorem extent_cons (w : String) (ws : List String) :
    extent (w :: ws) = w.length + 1 + extent ws := rfl

theorem extent_append (ws more : List String) :
    extent (ws ++ more) = extent ws + extent more := by
  induction ws with
  | nil => rw [nil_append, extent, Nat.zero_add]
  | cons w ws ih =>
    rw [cons_append, extent_cons, extent_cons, ih]
    omega

theorem extent_pos (h : ws ≠ []) : 0 < extent ws := by
  obtain ⟨w, rest, rfl⟩ := exists_cons_of_ne_nil h
  rw [extent_cons]
  omega

theorem length_lineOf (ws : List String) :
    (lineOf ws).length = extent ws - 1 := by
  induction ws with
  | nil => rfl
  | cons w ws ih =>
    cases ws with
    | nil =>
      rw [lineOf, String.intercalate_singleton]
      rfl
    | cons next ws =>
      have hpos : 0 < extent (next :: ws) := extent_pos (cons_ne_nil _ _)
      have hblank : " ".length = 1 := rfl
      rw [lineOf] at ih ⊢
      rw [String.intercalate_cons_cons, String.length_append,
        String.length_append, ih, extent_cons w]
      omega

/-- `words` reads the words of a line back from it. -/
theorem words_lineOf (h : ∀ w ∈ ws, Blankless w.toList) :
    words (lineOf ws) = ws := by
  induction ws with
  | nil => rfl
  | cons w ws ih =>
    obtain ⟨hw, hws⟩ := forall_mem_cons.1 h
    unfold words wordsOf lineOf at *
    cases ws with
    | nil =>
      rw [String.intercalate_singleton, wordsFrom_end hw, map_singleton,
        String.ofList_toList]
    | cons next ws =>
      have htext : (" ".intercalate (w :: next :: ws)).toList =
          w.toList ++ ' ' :: (" ".intercalate (next :: ws)).toList := by
        rw [String.intercalate_cons_cons, String.toList_append,
          String.toList_append, append_assoc]
        rfl
      rw [htext, wordsFrom_blank hw, map_cons, ih hws, String.ofList_toList]

theorem blankless_of_mem_words {w : String} (h : w ∈ words message) :
    Blankless w.toList := by
  obtain ⟨cs, hcs, rfl⟩ := mem_map.1 h
  rw [String.toList_ofList]
  exact blankless_of_mem_wordsFrom _ [] (by simp) cs hcs

/-! ## Breaking words into lines -/

/-- Whether words may stand on a line of a width: a single word may, however
long it is. -/
def Fits (width : Int) (ws : List String) : Prop :=
  ws.length ≤ 1 ∨ ((lineOf ws).length : Int) ≤ width

/-- A way to break words, in their order, into lines that `Fits` allows. -/
structure Breaking (width : Int) (ws : List String)
    (lines : List (List String)) : Prop where
  some : lines ≠ []
  flatten : lines.flatten = ws
  fits : ∀ line ∈ lines, Fits width line

/-- Adds words to `line` as long as it fits, then goes on with a new line. -/
def fillGroups (width : Int) : List String → List String → List (List String)
  | line, [] => [line]
  | line, word :: rest =>
    if ((lineOf line).length + 1 + word.length : Nat) ≤
      width then fillGroups width (line ++ [word]) rest
    else line :: fillGroups width [word] rest

/-- The greedy lines of some words; no words make up one empty line. -/
def breakWords (width : Int) : List String → List (List String)
  | [] => [[]]
  | word :: rest => fillGroups width [word] rest

/-! ## Greedy lines -/

theorem lineOf_concat (h : line ≠ []) (word : String) :
    lineOf (line ++ [word]) = lineOf line ++ " " ++ word := by
  rw [lineOf, lineOf, String.intercalate_append_of_ne_nil h (cons_ne_nil _ _),
    String.intercalate_singleton]

private theorem fillLines_eq (width : Int) (rest : List String) :
    ∀ {line : List String}, line ≠ [] →
    fillLines width (lineOf line) rest =
      (fillGroups width line rest).map lineOf := by
  induction rest with
  | nil => intro line _; rfl
  | cons word rest ih =>
    intro line hline
    have hword : lineOf [word] = word := String.intercalate_singleton
    rw [fillLines, fillGroups]
    split
    · rw [← lineOf_concat hline, ih (concat_ne_nil _ _)]
    · rw [map_cons, ← ih (cons_ne_nil word []), hword]

/-- `wrap` gives the greedy lines. -/
theorem wrap_eq (message : String) (width : Int) :
    wrap message width = (breakWords width (words message)).map lineOf := by
  unfold wrap
  cases words message with
  | nil => rfl
  | cons word rest =>
    have hword : lineOf [word] = word := String.intercalate_singleton
    rw [breakWords, ← fillLines_eq width rest (cons_ne_nil word []), hword]

section Fill

variable {width : Int}

theorem flatten_fillGroups (rest : List String) :
    ∀ line, (fillGroups width line rest).flatten = line ++ rest := by
  induction rest with
  | nil => intro line; simp [fillGroups]
  | cons word rest ih =>
    intro line
    rw [fillGroups]
    split
    · rw [ih, append_assoc, singleton_append]
    · rw [flatten_cons, ih, singleton_append]

theorem ne_nil_of_mem_fillGroups (rest : List String) : ∀ {line}, line ≠ [] →
    ∀ l ∈ fillGroups width line rest, l ≠ [] := by
  induction rest with
  | nil => intro line hline; exact forall_mem_singleton.2 hline
  | cons word rest ih =>
    intro line hline
    rw [fillGroups]
    split
    · exact ih (concat_ne_nil _ _)
    · exact forall_mem_cons.2 ⟨hline, ih (cons_ne_nil _ _)⟩

theorem fits_of_mem_fillGroups (rest : List String) :
    ∀ {line}, line ≠ [] → Fits width line →
    ∀ l ∈ fillGroups width line rest, Fits width l := by
  induction rest with
  | nil => intro line _ hfits; exact forall_mem_singleton.2 hfits
  | cons word rest ih =>
    intro line hline hfits
    rw [fillGroups]
    split
    · next hroom =>
      refine ih (concat_ne_nil _ _) (.inr ?_)
      rw [lineOf_concat hline, String.length_append, String.length_append]
      exact hroom
    · exact forall_mem_cons.2 ⟨hfits,
        ih (cons_ne_nil _ _) (.inl (Nat.le_refl 1))⟩

theorem Fits.tail (h : Fits width (word :: line)) : Fits width line := by
  unfold Fits at h ⊢
  rw [length_lineOf] at h ⊢
  rw [length_cons, extent_cons] at h
  omega

theorem Fits.room (h : Fits width (word :: line)) (hline : line ≠ []) :
    ((lineOf (word :: line)).length : Int) ≤ width := by
  refine h.resolve_left fun hshort => hline (length_eq_zero_iff.1 ?_)
  rw [length_cons] at hshort
  omega

/-- **Greedy lines are the fewest.** Another way to go on from `line` puts the
words `first` on it and breaks the rest into the lines `more`. -/
theorem length_fillGroups_le (rest : List String) :
    ∀ {line first : List String} {more : List (List String)},
    line ≠ [] → first ++ more.flatten = rest →
    (first ≠ [] → ((lineOf (line ++ first)).length : Int) ≤ width) →
    (∀ l ∈ more, Fits width l) →
    (fillGroups width line rest).length ≤ more.length + 1 := by
  induction rest with
  | nil => intro line first more _ _ _ _; rw [fillGroups]; simp
  | cons word rest ih =>
    intro line first more hline hwords hfirst hmore
    rw [fillGroups]
    cases first with
    | nil =>
      -- the other way begins a new line with the word
      obtain ⟨blank, tail, later, rfl, -, hrest⟩ := flatten_eq_cons_iff.1 hwords
      have hnew : Fits width (word :: tail) := hmore _ (by simp)
      have hlater : ∀ l ∈ later, Fits width l :=
        fun l hl => hmore l (by simp [hl])
      rw [length_append, length_cons]
      split
      · -- what is left of that line behind the word is still a line that fits
        have hwords : [] ++ (tail :: later).flatten = rest := hrest.symm
        have hgreedy := ih (concat_ne_nil word line) hwords
          (fun h => absurd rfl h) (forall_mem_cons.2 ⟨hnew.tail, hlater⟩)
        rw [length_cons] at hgreedy
        omega
      · have hgreedy := ih (cons_ne_nil word []) hrest.symm hnew.room hlater
        rw [length_cons]
        omega
    | cons other first =>
      obtain ⟨rfl, hrest⟩ := List.cons.inj hwords
      have hroom := hfirst (cons_ne_nil _ _)
      split
      · refine ih (concat_ne_nil _ _) hrest (fun _ => ?_) hmore
        rwa [append_assoc, singleton_append]
      · next hfull =>
        -- the word fits on the other line, so it fits on this one
        have hpos := extent_pos hline
        rw [length_lineOf] at hroom hfull
        rw [extent_append, extent_cons] at hroom
        omega

end Fill

/-- `breakWords` is a way to break the words. -/
theorem breaking_breakWords (width : Int) (ws : List String) :
    Breaking width ws (breakWords width ws) := by
  cases ws with
  | nil =>
    exact ⟨cons_ne_nil _ _, rfl, forall_mem_singleton.2 (.inl (Nat.zero_le 1))⟩
  | cons word rest =>
    have hflatten : (fillGroups width [word] rest).flatten = word :: rest :=
      flatten_fillGroups rest [word]
    refine ⟨fun hnil => ?_, hflatten, ?_⟩
    · rw [breakWords] at hnil
      rw [hnil] at hflatten
      cases hflatten
    · exact fits_of_mem_fillGroups rest (cons_ne_nil _ _) (.inl (Nat.le_refl 1))

theorem ne_nil_of_mem_breakWords {width : Int} (hws : ws ≠ [])
    (hline : line ∈ breakWords width ws) : line ≠ [] := by
  obtain ⟨word, rest, rfl⟩ := exists_cons_of_ne_nil hws
  exact ne_nil_of_mem_fillGroups rest (cons_ne_nil word []) line hline

/-- No `Breaking` of the words has fewer lines than `breakWords`. -/
theorem length_breakWords_le {width : Int} {other : List (List String)}
    (h : Breaking width ws other) :
    (breakWords width ws).length ≤ other.length := by
  cases ws with
  | nil => exact length_pos_iff.2 h.some
  | cons word rest =>
    obtain ⟨blank, tail, later, rfl, -, hrest⟩ :=
      flatten_eq_cons_iff.1 h.flatten
    have hnew : Fits width (word :: tail) := h.fits _ (by simp)
    have hgreedy := length_fillGroups_le rest (cons_ne_nil word []) hrest.symm
      hnew.room fun l hl => h.fits l (by simp [hl])
    rw [breakWords, length_append, length_cons]
    omega

theorem blankless_of_mem_breakWords {width : Int}
    (hline : line ∈ breakWords width (words message)) (hword : word ∈ line) :
    Blankless word.toList := by
  have hmem : word ∈ words message := by
    rw [← (breaking_breakWords width (words message)).flatten]
    exact mem_flatten.2 ⟨line, hline, hword⟩
  exact blankless_of_mem_words hmem

theorem words_of_mem_breakWords {width : Int}
    (hline : line ∈ breakWords width (words message)) :
    words (lineOf line) = line :=
  words_lineOf fun _ hword => blankless_of_mem_breakWords hline hword

theorem flatMap_words_wrap (message : String) (width : Int) :
    (wrap message width).flatMap words = words message := by
  rw [wrap_eq, flatMap_map]
  calc (breakWords width (words message)).flatMap (fun line => words
        (lineOf line)) = (breakWords width (words message)).flatMap id := by
        rw [flatMap_def, flatMap_def]
        exact congrArg List.flatten (map_congr_left fun line hline =>
          words_of_mem_breakWords hline)
    _ = words message := by
        rw [flatMap_id]
        exact (breaking_breakWords width (words message)).flatten

/-- **Wrapping keeps the words and takes the fewest lines.** For every message
and every width the lines hold the words of the message in order; a message
without words is one empty line. The lines are a way to break the words, each
with single blanks between its words, a line that is longer than the width is a
single word, and no other way to break the same words into lines that fit has
fewer of them. -/
theorem wrap_fewest (message : String) (width : Int) :
    (wrap message width).flatMap words = words message ∧
    (words message = [] → wrap message width = [""]) ∧
    (∃ lines, Breaking width (words message) lines ∧
      wrap message width = lines.map lineOf ∧
      (words message ≠ [] → [] ∉ lines)) ∧
    (words message ≠ [] → ∀ line ∈ wrap message width, width < line.length →
      words line = [line]) ∧
    ∀ other, Breaking width (words message) other →
      (wrap message width).length ≤ other.length := by
  have hbreaking := breaking_breakWords width (words message)
  refine ⟨flatMap_words_wrap message width, ?_,
    ⟨_, hbreaking, wrap_eq message width, ?_⟩, ?_, ?_⟩
  · intro hblank
    rw [wrap_eq, hblank]
    rfl
  · intro hwords hnil
    exact ne_nil_of_mem_breakWords hwords hnil rfl
  · intro hwords line hline hlong
    rw [wrap_eq] at hline
    obtain ⟨group, hgroup, rfl⟩ := mem_map.1 hline
    obtain ⟨word, rest, rfl⟩ :=
      exists_cons_of_ne_nil (ne_nil_of_mem_breakWords hwords hgroup)
    have hrest : rest = [] := by
      refine Classical.byContradiction fun hrest => ?_
      have hroom := (hbreaking.fits _ hgroup).room hrest
      omega
    subst hrest
    rw [words_of_mem_breakWords hgroup, lineOf, String.intercalate_singleton]
  · intro other hother
    rw [wrap_eq, length_map]
    exact length_breakWords_le hother

/-- At width four, `aa b` just fits, and `cccccc` does not fit on any line. One
word a line is another way to break the same words. -/
theorem wrap_fewest_narrow :
    wrap " aa  b cccccc d" 4 = ["aa b", "cccccc", "d"] ∧
    words "cccccc" = ["cccccc"] ∧
    Breaking 4 (words " aa  b cccccc d") [["aa"], ["b"], ["cccccc"], ["d"]] ∧
    (wrap " aa  b cccccc d" 4).length ≤ 4 := by
  obtain ⟨-, -, -, hlong, hfewest⟩ := wrap_fewest " aa  b cccccc d" 4
  have hwrap : wrap " aa  b cccccc d" 4 = ["aa b", "cccccc", "d"] := by decide
  have hother : Breaking 4 (words " aa  b cccccc d") [["aa"], ["b"],
      ["cccccc"], ["d"]] := by
    refine ⟨cons_ne_nil _ _, by decide, ?_⟩
    intro line hline
    refine .inl ?_
    revert line
    decide
  refine ⟨hwrap, hlong (by decide) "cccccc" ?_ (by decide), hother,
    hfewest _ hother⟩
  rw [hwrap]
  decide

end Cow

end TaskShell

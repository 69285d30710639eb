import TaskShell.Proofs.Modes
import TaskShell.Proofs.SortedLines
import TaskShell.Proofs.Wrapping

/-!
# Bubbles

A bubble is a frame around the lines of a wrapped message. Each line is padded
to the length of the longest one, so that all rows between the first and the
last have the same length. What stands between the sides of a row is a line
again once the padding is dropped, because a wrapped line never ends in a blank.

No wrapped line holds a line break, as the breaks are blanks and separate words.
So the rows are also what a reader of lines makes of the bubble, and of anything
that is drawn below it.
-/

namespace TaskShell

open Act Text List

namespace Text

/-! ## Padded lines -/

theorem isBlank_of_isLineBreak {c : Char} (h : isLineBreak c = true) :
    isBlank c = true := by
  simp only [isLineBreak, isBlank, Bool.or_eq_true, Bool.and_eq_true,
    decide_eq_true_eq, beq_iff_eq] at h ⊢
  omega

theorem unbroken_copies {c : Char} (h : isLineBreak c = false) (n : Nat) :
    Unbroken (copies n c) := by
  intro d hd
  rw [copies, String.toList_ofList] at hd
  rw [eq_of_mem_replicate hd, h]

theorem Unbroken.append {a b : String} (ha : Unbroken a) (hb : Unbroken b) :
    Unbroken (a ++ b) := by
  unfold Unbroken
  rw [String.toList_append, forall_mem_append]
  exact ⟨ha, hb⟩

theorem length_copies (n : Nat) (c : Char) : (copies n c).length = n := by
  rw [copies, String.length_ofList, length_replicate]

theorem lines_joinLines_feed {ls : List String} (hne : ls ≠ [])
    (h : ∀ l ∈ ls, Unbroken l) (t : String) :
    lines (joinLines ls ++ "\n" ++ t) = ls ++ lines t := by
  induction ls with
  | nil => exact absurd rfl hne
  | cons l ls ih =>
    obtain ⟨hl, hls⟩ := forall_mem_cons.1 h
    cases ls with
    | nil =>
      rw [joinLines, String.intercalate_singleton, lines_feed hl]
      rfl
    | cons next ls =>
      have hassoc : joinLines (l :: next :: ls) ++ "\n" ++ t =
          l ++ "\n" ++ (joinLines (next :: ls) ++ "\n" ++ t) := by
        rw [joinLines_cons_cons]
        simp only [String.append_assoc]
      rw [hassoc, lines_feed hl, ih (cons_ne_nil next ls) hls]
      rfl

theorem trimEnd_append_replicate {p : Char → Bool} {c : Char} (h : p c = true)
    (cs : List Char) (n : Nat) :
    trimEnd p (cs ++ List.replicate n c) = trimEnd p cs := by
  have hdrop : (List.replicate n c ++ cs.reverse).dropWhile p =
      cs.reverse.dropWhile p := by
    induction n with
    | zero => rfl
    | succ n ih => rw [replicate_succ, cons_append, dropWhile_cons_of_pos h, ih]
  rw [trimEnd, reverse_append, reverse_replicate, hdrop, ← trimEnd]

end Text

namespace Cow

/-! ## Wrapped lines -/

theorem trimEnd_lineOf {ws : List String} (h : ∀ w ∈ ws, Blankless w.toList) :
    trimEnd isBlank (lineOf ws).toList = (lineOf ws).toList := by
  refine trimEnd_eq_self fun c hc => ?_
  rcases eq_nil_or_concat ws with rfl | ⟨front, word, rfl⟩
  · cases hc
  · rw [concat_eq_append] at h hc
    obtain ⟨hne, hblankless⟩ := h word (by simp)
    have hlast : word.toList.getLast? = some c := by
      by_cases hfront : front = []
      · rw [hfront, nil_append, lineOf, String.intercalate_singleton] at hc
        exact hc
      · rw [lineOf_concat hfront, String.toList_append,
          getLast?_append_of_ne_nil _ hne] at hc
        exact hc
    exact hblankless c (mem_of_getLast? hlast)

theorem unbroken_of_blankless {w : String} (h : Blankless w.toList) :
    Unbroken w := by
  intro c hc
  rw [← Bool.not_eq_true]
  intro hbreak
  have hblank := isBlank_of_isLineBreak hbreak
  rw [h.2 c hc] at hblank
  cases hblank

theorem unbroken_lineOf {ws : List String} (h : ∀ w ∈ ws, Blankless w.toList) :
    Unbroken (lineOf ws) := by
  induction ws with
  | nil => exact fun c hc => nomatch hc
  | cons w ws ih =>
    obtain ⟨hw, hws⟩ := forall_mem_cons.1 h
    cases ws with
    | nil =>
      rw [lineOf, String.intercalate_singleton]
      exact unbroken_of_blankless hw
    | cons next ws =>
      have hblank : Unbroken " " := unbroken_copies (c := ' ') rfl 1
      rw [lineOf, String.intercalate_cons_cons]
      exact ((unbroken_of_blankless hw).append hblank).append (ih hws)

/-- A line that `contents` can read back from a padded row. -/
structure Settable (l : String) : Prop where
  unbroken : Unbroken l
  trimmed : trimEnd isBlank l.toList = l.toList

theorem settable_of_mem_wrap {message l : String} {width : Int}
    (h : l ∈ wrap message width) : Settable l := by
  rw [wrap_eq] at h
  obtain ⟨ws, hws, rfl⟩ := mem_map.1 h
  have hwords : ∀ w ∈ ws, Blankless w.toList :=
    fun w hw => blankless_of_mem_breakWords hws hw
  exact ⟨unbroken_lineOf hwords, trimEnd_lineOf hwords⟩

theorem wrap_ne_nil (message : String) (width : Int) :
    wrap message width ≠ [] := by
  rw [wrap_eq]
  exact mt map_eq_nil_iff.1 (breaking_breakWords width (words message)).some

/-! ## The longest line -/

theorem foldl_max_length (ls : List String) (n : Nat) :
    n ≤ ls.foldl (fun n l => max n l.length) n ∧
    (∀ l ∈ ls, l.length ≤ ls.foldl (fun n l => max n l.length) n) ∧
    (ls.foldl (fun n l => max n l.length) n = n ∨
      ∃ l ∈ ls, l.length = ls.foldl (fun n l => max n l.length) n) := by
  induction ls generalizing n with
  | nil => exact ⟨Nat.le_refl n, by simp, .inl rfl⟩
  | cons l ls ih =>
    obtain ⟨hstart, hall, hone⟩ := ih (max n l.length)
    rw [foldl_cons]
    refine ⟨Nat.le_trans (Nat.le_max_left ..) hstart, ?_, ?_⟩
    · exact forall_mem_cons.2 ⟨Nat.le_trans (Nat.le_max_right ..) hstart, hall⟩
    · rcases hone with heq | ⟨k, hk, heq⟩
      · rcases Nat.le_total n l.length with hle | hle
        · exact .inr ⟨l, mem_cons_self, by rw [heq, Nat.max_eq_right hle]⟩
        · exact .inl (by rw [heq, Nat.max_eq_left hle])
      · exact .inr ⟨k, mem_cons_of_mem l hk, heq⟩

theorem length_le_longest {ls : List String} {l : String} (h : l ∈ ls) :
    l.length ≤ longest ls :=
  (foldl_max_length ls 0).2.1 l h

theorem exists_longest {ls : List String} (h : ls ≠ []) :
    ∃ l ∈ ls, l.length = longest ls := by
  rcases (foldl_max_length ls 0).2.2 with hzero | hone
  · obtain ⟨l, rest, rfl⟩ := exists_cons_of_ne_nil h
    have hle : l.length ≤ longest (l :: rest) := length_le_longest mem_cons_self
    rw [longest, hzero] at hle
    exact ⟨l, mem_cons_self, (Nat.le_zero.1 hle).trans hzero.symm⟩
  · exact hone

/-- **A bubble is as wide as its lines may be**: `longest` is at most the width
unless a single word is longer. -/
theorem longest_wrap_le (message : String) (width : Nat) :
    longest (wrap message width) ≤ width ∨
    ∃ w ∈ words message, width < w.length := by
  obtain ⟨l, hl, hlength⟩ := exists_longest (wrap_ne_nil message width)
  rw [wrap_eq] at hl
  obtain ⟨ws, hws, rfl⟩ := mem_map.1 hl
  rw [← hlength]
  rcases (breaking_breakWords width (words message)).fits ws hws
    with hshort | hfits
  · cases ws with
    | nil => exact .inl (Nat.zero_le width)
    | cons w ws =>
      obtain rfl : ws = [] :=
        length_eq_zero_iff.1 (Nat.le_zero.1 (Nat.le_of_succ_le_succ hshort))
      rw [lineOf, String.intercalate_singleton]
      have hmem : w ∈ words message := by
        rw [← (breaking_breakWords width (words message)).flatten]
        exact mem_flatten.2 ⟨[w], hws, mem_cons_self⟩
      rcases Nat.lt_or_ge width w.length with hlong | hle
      · exact .inr ⟨w, hmem, hlong⟩
      · exact .inl hle
  · exact .inl (Int.ofNat_le.1 hfits)

/-! ## Rows -/

def inner (rows : List String) : List String := rows.tail.dropLast

/-- What stands between the sides of a row, without the blanks at its end. -/
def contents (row : String) : String :=
  String.ofList (trimEnd isBlank (row.toList.drop 2).dropLast.dropLast)

/-- The sides of a row: pointed for a single line, straight for more. -/
def sides (ls : List String) : String × String :=
  if ls.length = 1 then ("< ", " >") else ("| ", " |")

/-- The rows of a bubble around some lines: as many as there are lines and two
more, all of one length, with the lines as `contents`. -/
structure Framed (ls rows : List String) : Prop where
  count : rows.length = ls.length + 2
  top : rows.head? = some (" " ++ copies (longest ls + 2) '_')
  bottom : rows.getLast? = some (" " ++ copies (longest ls + 2) '-')
  width : ∀ row ∈ inner rows, row.length = longest ls + 4
  bounds : ∀ row ∈ inner rows, ∃ text, row =
    (sides ls).1 ++ text ++ (sides ls).2
  inside : (inner rows).map contents = ls

def rowOf (ls : List String) (l : String) : String :=
  (sides ls).1 ++ padRight (longest ls) l ++ (sides ls).2

/-- The rows of a frame, from top to bottom: `rowOf` each line between two
edges. -/
def rowsOf (ls : List String) : List String :=
  (" " ++ copies (longest ls + 2) '_') ::
    (ls.map (rowOf ls) ++ [" " ++ copies (longest ls + 2) '-'])

theorem frame_eq (ls : List String) : frame ls = joinLines (rowsOf ls) := by
  cases ls with
  | nil => rfl
  | cons l ls =>
    cases ls with
    | nil => rfl
    | cons next ls =>
      have hsides : sides (l :: next :: ls) = ("| ", " |") := if_neg (by simp)
      have hrow : rowOf (l :: next :: ls) =
          fun k => "| " ++ padRight (longest (l :: next :: ls)) k ++ " |" := by
        funext k
        rw [rowOf, hsides]
      rw [rowsOf, hrow]
      rfl

private theorem sides_eq (ls : List String) :
    ∃ left right : Char, isLineBreak left = false ∧ isLineBreak right = false ∧
    (sides ls).1 = String.ofList [left, ' '] ∧
    (sides ls).2 = String.ofList [' ', right] := by
  unfold sides
  split
  · exact ⟨'<', '>', rfl, rfl, rfl, rfl⟩
  · exact ⟨'|', '|', rfl, rfl, rfl, rfl⟩

section Row

variable {ls : List String} {l : String}

theorem toList_rowOf (ls : List String) (l : String) :
    ∃ left right : Char, isLineBreak left = false ∧
    isLineBreak right = false ∧
    (rowOf ls l).toList = left :: ' ' :: (l.toList ++
      List.replicate (longest ls - l.length) ' ') ++ [' '] ++ [right] := by
  obtain ⟨left, right, hleft, hright, hfirst, hsecond⟩ := sides_eq ls
  refine ⟨left, right, hleft, hright, ?_⟩
  rw [rowOf, hfirst, hsecond, padRight, copies]
  simp

theorem length_rowOf (h : l ∈ ls) : (rowOf ls l).length = longest ls + 4 := by
  obtain ⟨left, right, -, -, hrow⟩ := toList_rowOf ls l
  have hle := length_le_longest h
  rw [← String.length_toList, hrow]
  simp only [length_append, length_cons, length_nil, length_replicate,
    String.length_toList]
  omega

/-- `contents` reads a line back from its `rowOf`. -/
theorem contents_rowOf (ls : List String) (h : Settable l) :
    contents (rowOf ls l) = l := by
  obtain ⟨left, right, -, -, hrow⟩ := toList_rowOf ls l
  rw [contents, hrow, append_assoc, cons_append, cons_append, drop_succ_cons,
    drop_succ_cons, drop_zero, ← append_assoc, dropLast_concat, dropLast_concat,
    trimEnd_append_replicate rfl, h.trimmed, String.ofList_toList]

theorem unbroken_rowOf (ls : List String) (h : Settable l) :
    Unbroken (rowOf ls l) := by
  obtain ⟨left, right, hleft, hright, hrow⟩ := toList_rowOf ls l
  intro c hc
  rw [hrow] at hc
  simp only [mem_append, mem_cons, mem_replicate, not_mem_nil, or_false] at hc
  rcases hc with ((rfl | rfl | hc | ⟨-, rfl⟩) | rfl) | rfl
  · exact hleft
  · rfl
  · exact h.unbroken c hc
  · rfl
  · rfl
  · exact hright

end Row

theorem inner_rowsOf (ls : List String) :
    inner (rowsOf ls) = ls.map (rowOf ls) := by
  rw [inner, rowsOf, tail_cons, dropLast_concat]

/-- **A frame is rectangular**: `rowsOf` has the properties of `Framed`. -/
theorem framed_rowsOf {ls : List String} (h : ∀ l ∈ ls, Settable l) :
    Framed ls (rowsOf ls) where
  count := by
    rw [rowsOf, length_cons, length_append, length_map]
    rfl
  top := rfl
  bottom := by rw [rowsOf, ← cons_append, getLast?_concat]
  width := by
    rw [inner_rowsOf, forall_mem_map]
    exact fun l hl => length_rowOf hl
  bounds := by
    rw [inner_rowsOf, forall_mem_map]
    exact fun l _ => ⟨padRight (longest ls) l, rfl⟩
  inside := by
    rw [inner_rowsOf, map_map]
    calc ls.map (contents ∘ rowOf ls) = ls.map id :=
          map_congr_left fun l hl => contents_rowOf ls (h l hl)
      _ = ls := map_id ls

theorem unbroken_of_mem_rowsOf {ls : List String} (h : ∀ l ∈ ls, Settable l) :
    ∀ row ∈ rowsOf ls, Unbroken row := by
  have hblank : Unbroken " " := unbroken_copies (c := ' ') rfl 1
  rw [rowsOf, forall_mem_cons, forall_mem_append, forall_mem_map,
    forall_mem_singleton]
  exact ⟨hblank.append (unbroken_copies rfl _), fun l hl =>
    unbroken_rowOf ls (h l hl), hblank.append (unbroken_copies rfl _)⟩

theorem lines_bubble (message : String) :
    lines (bubble message) = rowsOf (wrap message bubbleWidth) := by
  have hset : ∀ l ∈ wrap message bubbleWidth, Settable l :=
    fun l hl => settable_of_mem_wrap hl
  have hbottom : (rowsOf (wrap message bubbleWidth)).getLast? ≠ some "" := by
    rw [(framed_rowsOf hset).bottom]
    intro hempty
    have hlength := congrArg String.length (Option.some.inj hempty)
    rw [String.length_append, length_copies] at hlength
    exact absurd hlength (by simp)
  rw [bubble, frame_eq, lines_joinLines (unbroken_of_mem_rowsOf hset),
    if_neg hbottom]

/-- What is drawn below a `bubble` is read after it. -/
theorem lines_bubble_above (message art : String) :
    lines (bubble message ++ "\n" ++ art) =
      lines (bubble message) ++ lines art := by
  have hset : ∀ l ∈ wrap message bubbleWidth, Settable l :=
    fun l hl => settable_of_mem_wrap hl
  rw [lines_bubble, bubble, frame_eq]
  exact lines_joinLines_feed (cons_ne_nil _ _) (unbroken_of_mem_rowsOf hset) art

end Cow

namespace Shell

open Cow

/-! ## The command -/

def readTemplate (file : Value) : Job (Option String) := do
  let p ← openable file
  let cs ← Files.readText p
  pure (some (String.ofList cs))

/-- The template that is asked for: `readTemplate` of a file, or else the one
that comes with the program. -/
def templateFor (args : Args) (s : Site) : Except Fault (Option String) :=
  if (args.getD "cowfile" .null).isTruthy then
    (readTemplate (args.getD "cowfile" .null) s).1
  else .ok (Cow.templates.lookup (animalOf args))

theorem readTemplate_snd (file : Value) (s : Site) :
    (readTemplate file s).2 = s := by
  have hopen : (openable file s).2 = s := by
    unfold openable
    split <;> rfl
  have hread : ∀ p, (Files.readText p s).2 = s :=
    fun p => bind_snd (Files.readBytes_snd p s) fun _ => rfl
  exact bind_snd hopen fun p => bind_snd (hread p) fun _ => rfl

/-- The numbers of the colour that is asked for, and what is said: the trimmed
message, without the numbers that a colour takes from it. -/
def spoken (args : Args) : List Int × String :=
  match args.get? "rgb" with
  | some .null | none => ([], trim (args.getD "str" (.text "")).display)
  | some v => colourAndMessage v (trim (args.getD "str" (.text "")).display)

def coloured (args : Args) (art : String) : String :=
  ((colourOf? (spoken args).1).or (namedColour? args)).elim art
    (paintLines · art)

/-- What the command does with what `templateFor` has found. -/
def sayWith (args : Args) : Except Fault (Option String) → Job Value
  | .error f => pure (.text s!"cowsay failed to read cowfile: {f.message}")
  | .ok template => do
    let template := template.filter fun content => !content.isEmpty
    let w ← get
    let art := (w.host.cowPackage.bind fun p =>
      match template with
      | some content => Cow.packageTemplate p (spoken args).2 content
      | none => Cow.packageAnimal p (spoken args).2 (animalOf args)).getD
        (drawing (spoken args).2 (animalOf args) template)
    match (colourOf? (spoken args).1).or (namedColour? args) with
    | some colour => pure (.text (paintLines colour art))
    | none => pure (.text art)

theorem cowsayCommand_eq (args : Args) : cowsayCommand args =
    if (args.getD "cowfile" .null).isTruthy then
      Act.attempt (readTemplate (args.getD "cowfile" .null)) >>= sayWith args
    else pure (.ok (Cow.templates.lookup (animalOf args))) >>=
      sayWith args := rfl

private theorem longest_eq_max? (ls : List String) :
    longest ls = ((ls.map String.length).max?).getD 0 := by
  cases ls with
  | nil => rfl
  | cons l ls =>
    rw [longest, foldl_cons, Nat.zero_max, map_cons, List.max?_cons',
      Option.getD_some, foldl_map]

/-- **The bubble above a template is the one above an animal**: `templateBubble`
is `bubble`. -/
theorem templateBubble_eq (message : String) :
    templateBubble message = bubble message := by
  unfold templateBubble bubble frame
  dsimp only
  rw [← longest_eq_max?]
  generalize wrap message bubbleWidth = ls
  cases ls with
  | nil => rfl
  | cons l ls =>
    cases ls with
    | nil => rfl
    | cons next ls => rfl

/-- Whatever `drawing` draws, the bubble stands above it. -/
theorem drawing_eq (message animal : String) (template : Option String) :
    ∃ art, drawing message animal template = bubble message ++ "\n" ++ art := by
  cases template with
  | none => exact ⟨animalArt animal, rfl⟩
  | some content =>
    rw [← templateBubble_eq]
    exact ⟨_, rfl⟩

/-- Without a package the command draws the bubble above `templateFor` its
arguments. -/
theorem cowsay_of_template {args : Args} {s : Site}
    (hpackage : s.host.cowPackage = none) {found : Option String}
    (h : templateFor args s = .ok found) : cowsayCommand args s =
      (.ok (.text (coloured args (drawing (spoken args).2 (animalOf args)
        (found.filter (!·.isEmpty))))), s) := by
  have hsay : sayWith args (.ok found) s =
      (.ok (.text (coloured args (drawing (spoken args).2 (animalOf args)
        (found.filter (!·.isEmpty))))), s) := by
    unfold sayWith coloured
    dsimp only
    rw [get_bind_apply, hpackage]
    cases (colourOf? (spoken args).1).or (namedColour? args) with
    | none => rfl
    | some colour => rfl
  rw [cowsayCommand_eq]
  rw [templateFor] at h
  by_cases hfile : (args.getD "cowfile" .null).isTruthy = true
  · rw [if_pos hfile] at h ⊢
    have hread : Act.attempt (readTemplate (args.getD "cowfile" .null)) s =
        (.ok (.ok found), s) := by
      rw [← h]
      exact Prod.ext rfl (readTemplate_snd _ s)
    rw [bind_of_ok hread, hsay]
  · rw [if_neg hfile] at h ⊢
    rw [h]
    exact hsay

/-- **A bubble is rectangular, and its message is read back from it.** For every
message the rows of the bubble are those of a frame around the wrapped lines,
which are as wide as the longest line; their words are those of the message. No
line is longer than 40 characters unless a word is. The rows stand above every
built-in animal, and the command, without a package, draws the same bubble above
a template. -/
theorem bubble_framed (message animal : String) :
    Framed (wrap message bubbleWidth) (lines (bubble message)) ∧
    (inner (lines (bubble message))).flatMap (fun row => words (contents row)) =
      words message ∧
    (∃ l ∈ wrap message bubbleWidth,
      l.length = longest (wrap message bubbleWidth)) ∧
    (∀ l ∈ wrap message bubbleWidth,
      l.length ≤ longest (wrap message bubbleWidth)) ∧
    (longest (wrap message bubbleWidth) ≤ 40 ∨
      ∃ w ∈ words message, 40 < w.length) ∧
    lines (draw message animal) =
      lines (bubble message) ++ lines (animalArt animal) ∧
    ∀ (args : Args) (s : Site) (found : Option String),
      s.host.cowPackage = none → templateFor args s = .ok found →
      (spoken args).2 = message →
      ∃ art, Command.run .cowsay args s =
        (.ok (.text (coloured args (bubble message ++ "\n" ++ art))), s) := by
  have hset : ∀ l ∈ wrap message bubbleWidth, Settable l :=
    fun l hl => settable_of_mem_wrap hl
  have hframed :
      Framed (wrap message bubbleWidth) (lines (bubble message)) := by
    rw [lines_bubble]
    exact framed_rowsOf hset
  refine ⟨hframed, ?_, exists_longest (wrap_ne_nil message bubbleWidth),
    fun l hl => length_le_longest hl, longest_wrap_le message 40,
    lines_bubble_above .., ?_⟩
  · calc (inner (lines (bubble message))).flatMap (fun row =>
          words (contents row))
        = ((inner (lines (bubble message))).map contents).flatMap words :=
      (flatMap_map ..).symm
      _ = words message := by rw [hframed.inside, flatMap_words_wrap]
  · rintro args s found hpackage hfound rfl
    obtain ⟨art, hart⟩ :=
      drawing_eq (spoken args).2 (animalOf args) (found.filter (!·.isEmpty))
    refine ⟨art, ?_⟩
    rw [← hart]
    exact cowsay_of_template hpackage hfound

/-- A message with blanks around its words, for an animal that has a
template. -/
def tuxArgs : Args :=
  [("str", .text "\n moo  \n\n moo "), ("animal", .text "TUX")]

/-- The template that comes with the program is drawn below the bubble. -/
theorem bubble_framed_tux : (default : Site).host.cowPackage = none ∧
    templateFor tuxArgs default = .ok (Cow.templates.lookup "tux") ∧
    ∃ art, Command.run .cowsay tuxArgs default =
      (.ok (.text (" _________\n< moo moo >\n ---------\n" ++ art)),
        default) := by
  have hpackage : (default : Site).host.cowPackage = none := rfl
  have htemplate :
      templateFor tuxArgs default = .ok (Cow.templates.lookup "tux") := rfl
  have hbubble : bubble (spoken tuxArgs).2 ++ "\n" =
      " _________\n< moo moo >\n ---------\n" := by decide
  obtain ⟨art, hrun⟩ := (bubble_framed (spoken tuxArgs).2 "tux").2.2.2.2.2.2
    tuxArgs default _ hpackage htemplate rfl
  rw [hbubble] at hrun
  exact ⟨hpackage, htemplate, art, hrun⟩

end Shell

end TaskShell

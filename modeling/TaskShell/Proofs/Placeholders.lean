import TaskShell.Proofs.Bubbles

/-!
# Places in drawings

A drawing leaves three places open, which are filled one after the other. The
mark of a place is a sign and a name, and neither the names nor the fillings
hold the sign. So a mark that is found after a filling was put in begins in the
text of the drawing. It does not reach into the filling either, since no end of
a name begins like a filling and none is the start of one. Hence each step
removes the marks of its own place and leaves the others as many as they were,
whatever stands around them.

What follows, the trimming of lines and the dropping of empty ones at the end,
takes text away and brings none together.
-/

namespace TaskShell

open Text List

namespace Text

/-! ## Occurrences after a replacement -/

/-- At how many places a text begins with `pat`. -/
def timesIn (pat : List Char) : List Char → Nat
  | [] => 0
  | c :: cs => (if pat.isPrefixOf (c :: cs) then 1 else 0) + timesIn pat cs

theorem timesIn_eq_zero_iff {pat : List Char} (hne : pat ≠ [])
    (cs : List Char) : timesIn pat cs = 0 ↔ ¬ pat <:+: cs := by
  induction cs with
  | nil => simp [timesIn, hne]
  | cons c cs ih =>
    rw [timesIn, infix_cons_iff, ← isPrefixOf_iff_prefix, not_or, ← ih]
    split <;> simp [*]

section Sign

variable {sign : Char} {name new : List Char}

theorem timesIn_append {cs : List Char} (h : sign ∉ cs) (rest : List Char) :
    timesIn (sign :: name) (cs ++ rest) = timesIn (sign :: name) rest := by
  induction cs with
  | nil => rfl
  | cons c cs ih =>
    obtain ⟨hc, hcs⟩ := not_or.1 (mt mem_cons.2 h)
    have hhere : (sign :: name).isPrefixOf (c :: (cs ++ rest)) = false := by
      rw [isPrefixOf_cons_cons, beq_eq_false_iff_ne.2 hc, Bool.false_and]
    rw [cons_append, timesIn, hhere, ih hcs]
    exact Nat.zero_add _

def apartFrom (new : List Char) : List Char → Bool
  | [] => true
  | c :: cs =>
    !(c :: cs).isPrefixOf new && !new.isPrefixOf (c :: cs) && apartFrom new cs

/-- **What does not fit together with the new text is not made by
`replaceFrom`**, at the start of a text. -/
theorem prefix_replaceFrom_iff {b : List Char} (hsign : sign ∉ b)
    (hapart : apartFrom new b = true) (cs : List Char) :
    b <+: replaceFrom (sign :: name) new cs 0 ↔ b <+: cs := by
  induction b generalizing cs with
  | nil => simp
  | cons d b ih =>
    rw [apartFrom, Bool.and_eq_true, Bool.and_eq_true, Bool.not_eq_true',
      Bool.not_eq_true'] at hapart
    obtain ⟨⟨hshort, hlong⟩, hlater⟩ := hapart
    obtain ⟨hd, hb⟩ := not_or.1 (mt mem_cons.2 hsign)
    cases cs with
    | nil => rfl
    | cons c cs =>
      by_cases hhere : (sign :: name).isPrefixOf (c :: cs)
      · -- the text begins with the sign, and what is put in its place with
        -- something else
        obtain ⟨rfl, -⟩ := cons_prefix_cons.1 ( isPrefixOf_iff_prefix.1 hhere)
        rw [replaceFrom, if_pos hhere]
        constructor
        · intro hnew
          rcases prefix_or_prefix_of_prefix hnew (prefix_append new _)
            with hstart | hstart
          · rw [ isPrefixOf_iff_prefix.2 hstart] at hshort
            cases hshort
          · rw [ isPrefixOf_iff_prefix.2 hstart] at hlong
            cases hlong
        · intro hold
          exact absurd (cons_prefix_cons.1 hold).1.symm hd
      · rw [replaceFrom, if_neg hhere, cons_prefix_cons,
          cons_prefix_cons, ih hb hlater]

end Sign

end Text

namespace Cow

/-! ## Places -/

inductive Slot
  | thoughts
  | eyes
  | tongue
  deriving DecidableEq, Repr

def Slot.mark : Slot → String
  | .thoughts => "$thoughts"
  | .eyes => "$eyes"
  | .tongue => "$tongue"

def Slot.filling : Slot → String
  | .thoughts => " "
  | .eyes => "oo"
  | .tongue => "  "

def Slot.name (s : Slot) : List Char := s.mark.toList.tail

theorem toList_mark (s : Slot) : s.mark.toList = '$' :: s.name := by
  cases s <;> rfl

theorem sign_not_mem (s : Slot) :
    '$' ∉ s.name ∧ '$' ∉ s.filling.toList ∧ '\n' ∉ s.mark.toList := by
  cases s <;> decide

theorem apartFrom_filling (s k : Slot) :
    apartFrom k.filling.toList s.name = true := by
  cases s <;> cases k <;> decide

private theorem slot_unique {s k : Slot} {cs : List Char}
    (hs : s.mark.toList <+: cs) (hk : k.mark.toList <+: cs) : s = k := by
  have hless :
      ∀ s k : Slot, s.mark.toList.isPrefixOf k.mark.toList = true → s = k := by
    intro s k
    cases s <;> cases k <;> decide
  rcases prefix_or_prefix_of_prefix hs hk with h | h
  · exact hless s k ( isPrefixOf_iff_prefix.2 h)
  · exact (hless k s ( isPrefixOf_iff_prefix.2 h)).symm

/-- **Filling a place removes its marks** (`replaceFrom`) and leaves the marks
of the other places, no more and no fewer. -/
theorem timesIn_replaceFrom (s k : Slot) (cs : List Char) (skip : Nat) :
    timesIn s.mark.toList (replaceFrom k.mark.toList k.filling.toList cs skip) =
      if s = k then 0 else timesIn s.mark.toList (cs.drop skip) := by
  induction cs generalizing skip with
  | nil => simp [replaceFrom, timesIn]
  | cons c cs ih =>
    cases skip with
    | succ skip => rw [replaceFrom, ih, drop_succ_cons]
    | zero =>
      by_cases hhere : k.mark.toList.isPrefixOf (c :: cs)
      · -- both the mark and what is put in its place hold no other mark
        obtain ⟨rest, hrest⟩ := isPrefixOf_iff_prefix.1 hhere
        have hcs : cs = k.name ++ rest := by
          rw [toList_mark, cons_append] at hrest
          exact (List.cons.inj hrest).2.symm
        have hdrop : cs.drop (k.mark.toList.length - 1) = rest := by
          rw [hcs, toList_mark]
          exact drop_left
        have hfilled : timesIn s.mark.toList (k.filling.toList ++
          replaceFrom k.mark.toList k.filling.toList cs
            (k.mark.toList.length - 1)) = if s = k then 0
              else timesIn s.mark.toList rest := by
          rw [toList_mark s, timesIn_append (sign_not_mem k).2.1,
            ← toList_mark s, ih, hdrop]
        rw [replaceFrom, if_pos hhere, hfilled, drop_zero]
        split
        · rfl
        · next hne =>
          have hother : s.mark.toList.isPrefixOf (c :: cs) = false := by
            rw [← Bool.not_eq_true]
            intro hs
            exact hne (slot_unique ( isPrefixOf_iff_prefix.1 hs)
              ( isPrefixOf_iff_prefix.1 hhere))
          rw [timesIn, hother, hcs, toList_mark s,
            timesIn_append (sign_not_mem k).1]
          exact (Nat.zero_add _).symm
      · have hsame : s.mark.toList.isPrefixOf
            (c :: replaceFrom k.mark.toList k.filling.toList cs 0) =
            s.mark.toList.isPrefixOf (c :: cs) := by
          rw [Bool.eq_iff_iff, isPrefixOf_iff_prefix, isPrefixOf_iff_prefix,
            toList_mark s, toList_mark k, cons_prefix_cons, cons_prefix_cons,
            prefix_replaceFrom_iff (sign_not_mem s).1 (apartFrom_filling s k)]
        rw [replaceFrom, if_neg hhere, timesIn, hsame, ih, drop_zero, drop_zero]
        by_cases hsk : s = k
        · rw [if_pos hsk, if_pos hsk, hsk, if_neg hhere]
        · rw [if_neg hsk, if_neg hsk, timesIn]

/-! ## Lines -/

theorem exists_kept {ls : List String} (h : ∀ l ∈ ls, Settable l) :
    ∃ kept n, ls = kept ++ List.replicate n "" ∧
    kept.getLast? ≠ some "" ∧
    trimEnd (· == '\n') (joinLines ls).toList = (joinLines kept).toList := by
  induction hcount : ls.length generalizing ls with
  | zero =>
    obtain rfl := length_eq_zero_iff.1 hcount
    exact ⟨[], 0, rfl, by simp, rfl⟩
  | succ n ih =>
    rcases eq_nil_or_concat ls with rfl | ⟨front, last, rfl⟩
    · cases hcount
    rw [concat_eq_append] at h hcount ⊢
    have hjoin : front ≠ [] →
        joinLines (front ++ [last]) = joinLines front ++ "\n" ++ last := by
      intro hne
      rw [joinLines, String.intercalate_append_of_ne_nil hne (cons_ne_nil _ _),
        String.intercalate_singleton]
      rfl
    by_cases hlast : last = ""
    · -- an empty line at the end is nothing but the line feed before it
      rw [length_append] at hcount
      obtain ⟨kept, n, hfront, hkept, htrim⟩ :=
        ih (fun l hl => h l (mem_append_left _ hl)) (Nat.succ.inj hcount)
      refine ⟨kept, n + 1, ?_, hkept, ?_⟩
      · rw [hlast, List.replicate_succ', ← append_assoc, ← hfront]
      · by_cases hne : front = []
        · rw [hne] at htrim ⊢
          rw [hlast, ← htrim]
          rfl
        · have hfeed : (joinLines (front ++ [last])).toList =
              (joinLines front).toList ++ List.replicate 1 '\n' := by
            rw [hjoin hne, hlast, String.append_empty, String.toList_append]
            rfl
          rw [hfeed, trimEnd_append_replicate rfl, htrim]
    · refine ⟨front ++ [last],
        0, by simp, by simpa using hlast, trimEnd_eq_self fun c hc => ?_⟩
      have hchars : last.toList ≠ [] := mt String.toList_eq_nil_iff.1 hlast
      have hend : last.toList.getLast? = some c := by
        by_cases hne : front = []
        · rw [hne, nil_append, joinLines, String.intercalate_singleton] at hc
          exact hc
        · rw [hjoin hne, String.toList_append,
            getLast?_append_of_ne_nil _ hchars] at hc
          exact hc
      rw [← (h last (by simp)).trimmed] at hend
      have hblank := getLast?_trimEnd hend
      rw [beq_eq_false_iff_ne]
      rintro rfl
      cases hblank

theorem exists_infix_of_joinLines {pat : List Char} (hne : pat ≠ [])
    (hfeed : '\n' ∉ pat) {ls : List String}
    (h : pat <:+: (joinLines ls).toList) : ∃ l ∈ ls, pat <:+: l.toList := by
  induction ls with
  | nil => exact absurd (infix_nil.1 h) hne
  | cons l ls ih =>
    cases ls with
    | nil =>
      rw [joinLines, String.intercalate_singleton] at h
      exact ⟨l, mem_cons_self, h⟩
    | cons next ls =>
      have htext : (joinLines (l :: next :: ls)).toList =
          l.toList ++ '\n' :: (joinLines (next :: ls)).toList := by
        rw [joinLines_cons_cons, String.toList_append,
          String.toList_append, append_assoc]
        rfl
      rw [htext, infix_append_cons_iff hfeed] at h
      rcases h with hhere | hlater
      · exact ⟨l, mem_cons_self, hhere⟩
      · obtain ⟨k, hk, hpat⟩ := ih hlater
        exact ⟨k, mem_cons_of_mem l hk, hpat⟩

/-! ## Drawings -/

/-- A drawing with its places filled one after the other, each with its
`Slot.filling`. -/
def filled (art : String) : String :=
  [Slot.thoughts, .eyes, .tongue].foldl
    (fun text s => Text.replace text s.mark s.filling) art

theorem timesIn_replace (s k : Slot) (text : String) :
    timesIn s.mark.toList (Text.replace text k.mark k.filling).toList =
    if s = k then 0 else timesIn s.mark.toList text.toList := by
  rw [Text.replace, String.toList_ofList, timesIn_replaceFrom, drop_zero]

/-- No mark is left in a drawing that is `filled`. -/
theorem not_infix_filled (s : Slot) (art : String) :
    ¬ s.mark.toList <:+: (filled art).toList := by
  have hne : s.mark.toList ≠ [] := by rw [toList_mark]; exact cons_ne_nil _ _
  rw [← timesIn_eq_zero_iff hne]
  show timesIn _ (Text.replace (Text.replace (Text.replace art _ _)
    Slot.eyes.mark _) Slot.tongue.mark _).toList = 0
  rw [timesIn_replace, timesIn_replace, timesIn_replace]
  cases s <;> rfl

def trimmedLine (l : String) : String :=
  String.ofList (trimEnd isBlank l.toList)

theorem settable_trimmedLine {l : String} (h : Unbroken l) :
    Settable (trimmedLine l) where
  unbroken := by
    unfold Unbroken
    rw [trimmedLine, String.toList_ofList]
    exact fun c hc => h c ((trimEnd_isPrefix isBlank l.toList).subset hc)
  trimmed := by
    rw [trimmedLine, String.toList_ofList]
    exact trimEnd_eq_self fun c hc => getLast?_trimEnd hc

/-- The lines of a drawing that is `filled`, without the blanks at their
ends. -/
def drawnRows (art : String) : List String :=
  (lines (filled art)).map trimmedLine

theorem settable_of_mem_drawnRows {art l : String} (h : l ∈ drawnRows art) :
    Settable l := by
  obtain ⟨l, hl, rfl⟩ := mem_map.1 h
  exact settable_trimmedLine (unbroken_of_mem_lines hl)

theorem fill_eq {t : Template} (heyes : t.eyes = none)
    (htongue : t.tongue = none) :
    t.fill none none = String.ofList
      (trimEnd (· == '\n') (joinLines (drawnRows t.art)).toList) := by
  have hrows : drawnRows t.art =
      (breakLines (filled t.art).toList).map fun l =>
        String.ofList (trimEnd isBlank l) := by
    rw [drawnRows, lines, map_map]
    exact map_congr_left
      fun l _ => by rw [Function.comp_apply, trimmedLine, String.toList_ofList]
  rw [hrows, Template.fill, heyes, htongue]
  rfl

theorem not_infix_drawnRows (s : Slot) {art l : String}
    (h : l ∈ drawnRows art) : ¬ s.mark.toList <:+: l.toList := by
  obtain ⟨whole, hwhole, rfl⟩ := mem_map.1 h
  obtain ⟨piece, hpiece, rfl⟩ := mem_map.1 hwhole
  have hline : piece <:+: (filled art).toList := infix_of_mem_breakLines hpiece
  intro hmark
  rw [trimmedLine, String.toList_ofList, String.toList_ofList] at hmark
  exact not_infix_filled s art
    (hmark.trans ((trimEnd_isPrefix isBlank piece).isInfix.trans hline))

/-- A drawing without marks, without blanks at the ends of its lines, and
without a line feed at its own end. -/
structure Clean (art : String) : Prop where
  unmarked : ∀ s : Slot, Text.contains art s.mark = false
  trimmed : ∀ l ∈ lines art, ∀ c, l.toList.getLast? = some c → isBlank c = false
  closed : art.toList.getLast? ≠ some '\n'

/-- **Drawings are clean.** The drawing of a template without defaults of its
own consists of the lines with all places filled, without the blanks at their
ends, but for empty lines at the end of the drawing. Filling a place takes its
marks out of a text and brings no other mark about, whatever stands around
them. -/
theorem render_clean {content : String} {t : Template}
    (h : parse content = some t) (hart : t.art ≠ "") (heyes : t.eyes = none)
    (htongue : t.tongue = none) :
    (∃ art n, render content none none = some art ∧ Clean art ∧
      drawnRows t.art = lines art ++ List.replicate n "") ∧
    ∀ (s k : Slot) (text : String),
      timesIn s.mark.toList (Text.replace text k.mark k.filling).toList =
      if s = k then 0 else timesIn s.mark.toList text.toList := by
  refine ⟨?_, timesIn_replace⟩
  have hset : ∀ l ∈ drawnRows t.art, Settable l :=
    fun l hl => settable_of_mem_drawnRows hl
  obtain ⟨kept, n, hrows, hlast, htrim⟩ := exists_kept hset
  have hmem : ∀ l ∈ kept, l ∈ drawnRows t.art := by
    rw [hrows]
    exact fun l hl => mem_append_left _ hl
  have hlines : lines (joinLines kept) = kept := by
    rw [lines_joinLines fun l hl => (hset l (hmem l hl)).unbroken, if_neg hlast]
  have hdrawn : render content none none = some (joinLines kept) := by
    have hempty : t.art.isEmpty = false := by
      rwa [← Bool.not_eq_true, String.isEmpty_iff]
    rw [render, h]
    dsimp only
    rw [hempty, if_neg Bool.false_ne_true, fill_eq heyes htongue, htrim,
      String.ofList_toList]
  refine ⟨joinLines kept, n, hdrawn,
    ⟨fun s => ?_, fun l hl c hc => ?_, fun hfeed => ?_⟩, by rw [hlines, hrows]⟩
  · rw [Text.contains, ← Bool.not_eq_true, occursIn_iff]
    intro hmark
    have hne : s.mark.toList ≠ [] := by rw [toList_mark]; exact cons_ne_nil _ _
    obtain ⟨l, hl, hinfix⟩ :=
      exists_infix_of_joinLines hne (sign_not_mem s).2.2 hmark
    exact not_infix_drawnRows s (hmem l hl) hinfix
  · rw [hlines] at hl
    rw [← (hset l (hmem l hl)).trimmed] at hc
    exact getLast?_trimEnd hc
  · rw [← htrim] at hfeed
    exact absurd (getLast?_trimEnd hfeed) (by decide)

/-- A drawing with marks in marks, blanks behind them, and a mark alone on its
last line. -/
def tangled : String :=
  "$the_cow = <<EOC;\n$ton$eyesgue $$eyes$thoughts\n$tongue\nEOC"

/-- What is left of the broken marks is no mark. -/
theorem render_clean_tangled :
    parse tangled = some ⟨"$ton$eyesgue $$eyes$thoughts\n$tongue", none, none⟩ ∧
    render tangled none none = some "$tonoogue $oo" ∧
    Clean "$tonoogue $oo" := by
  have hparse : parse tangled =
      some ⟨"$ton$eyesgue $$eyes$thoughts\n$tongue", none, none⟩ := by decide
  have hdrawn : render tangled none none = some "$tonoogue $oo" := by decide
  obtain ⟨⟨art, n, hrender, hclean, -⟩, -⟩ :=
    render_clean hparse (by decide) rfl rfl
  rw [hdrawn] at hrender
  cases hrender
  exact ⟨hparse, hdrawn, hclean⟩

end Cow

end TaskShell

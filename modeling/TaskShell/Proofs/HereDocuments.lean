import TaskShell.Proofs.SortedLines
import TaskShell.Proofs.Trimming

/-!
# Drawings in template files

A template file sets its drawing off as a here-document: a line announces it, a
line with the end mark alone closes it, and the lines between them are the
drawing. Comments are taken out of the whole file before the drawing is looked
for, and the blanks behind the announcement are skipped without regard to lines.
So two kinds of drawings do not come through: those with a line that looks like
a comment, and those that begin with a blank or an empty line.
-/

namespace TaskShell.Cow

open Text List

/-! ## The end mark -/

/-- No `endMark` begins in a text that is followed by one. -/
def Unmarked (cs : List Char) : Prop := ∀ t, t <:+ cs → t ≠ [] →
    ¬ endMark <+: t ++ endMark

theorem Unmarked.of_suffix {cs t : List Char} (h : Unmarked cs)
    (ht : t <:+ cs) : Unmarked t :=
  fun u hu => h u (hu.trans ht)

/-- **A drawing ends at the `endMark`.** -/
theorem beforeMark?_of_unmarked {cs : List Char} (h : Unmarked cs) :
    beforeMark? (cs ++ endMark) = some cs := by
  have hindex : indexOf? endMark (cs ++ endMark) = some cs.length := by
    induction cs with
    | nil => rfl
    | cons c cs ih =>
      have hhere : endMark.isPrefixOf (c :: (cs ++ endMark)) = false := by
        rw [← Bool.not_eq_true, isPrefixOf_iff_prefix]
        exact h (c :: cs) (suffix_refl _) (cons_ne_nil _ _)
      rw [cons_append, indexOf?, hhere, ih (h.of_suffix (suffix_cons c cs))]
      rfl
  rw [beforeMark?, hindex, Option.map_some, take_left]

def fed (ls : List (List Char)) : List Char := ls.flatMap ('\n' :: ·)

theorem unmarked_fed {ls : List (List Char)} (hfeed : ∀ l ∈ ls, '\n' ∉ l)
    (hmark : ∀ l ∈ ls, ¬ "EOC".toList <+: l) : Unmarked (fed ls) := by
  induction ls with
  | nil => exact fun t ht hne => absurd (suffix_nil.1 ht) hne
  | cons l ls ih =>
    obtain ⟨hl, hls⟩ := forall_mem_cons.1 hfeed
    obtain ⟨hstart, hstarts⟩ := forall_mem_cons.1 hmark
    -- whatever follows the line begins with a line feed
    obtain ⟨rest, hrest⟩ : ∃ rest, fed ls ++ endMark = '\n' :: rest := by
      cases ls with
      | nil => exact ⟨_, rfl⟩
      | cons next ls => exact ⟨_, rfl⟩
    intro t ht hne hmarked
    have hsplit : fed (l :: ls) = '\n' :: (l ++ fed ls) := rfl
    rw [hsplit, suffix_cons_iff] at ht
    rcases ht with rfl | ⟨u, hu⟩
    · rw [cons_append, append_assoc, hrest] at hmarked
      exact hstart
        (prefix_of_prefix_append (by decide) (cons_prefix_cons.1 hmarked).2)
    · rcases append_eq_append_iff.1 hu with ⟨v, hv, rfl⟩ | ⟨v, -, htail⟩
      · cases v with
        | nil => exact ih hls hstarts (fed ls) (suffix_refl _) hne hmarked
        | cons c v =>
          have hc : '\n' = c := (cons_prefix_cons.1 hmarked).1
          rw [hv, hc] at hl
          exact absurd (by simp) hl
      · exact ih hls hstarts t ⟨v, htail.symm⟩ hne hmarked

/-! ## The drawing behind an announcement -/

/-- **`artAfter?` loses the blanks at the start of a drawing**, and nothing
else. -/
theorem artAfter?_eq {cs : List Char} (h : Unmarked cs) :
    artAfter? (cs ++ endMark) = some (trimStart isBlank cs) := by
  have htries :
      ∀ n, (List.range (n + 1)).reverse = n :: (List.range n).reverse := by
    intro n
    rw [range_succ, reverse_append]
    rfl
  obtain ⟨blanks, hblank, hcs⟩ : ∃ blanks, (∀ c ∈ blanks, isBlank c = true) ∧
      cs = blanks ++ trimStart isBlank cs :=
    ⟨cs.takeWhile isBlank, all_eq_true.1 all_takeWhile,
      takeWhile_append_dropWhile.symm⟩
  have hsplit : cs ++ endMark = blanks ++
      (trimStart isBlank cs ++ endMark) := by rw [← append_assoc, ← hcs]
  have hhere : beforeMark?
      ((blanks ++ (trimStart isBlank cs ++ endMark)).drop blanks.length) =
      some (trimStart isBlank cs) := by
    rw [drop_left]
    exact beforeMark?_of_unmarked (h.of_suffix ⟨blanks, hcs.symm⟩)
  unfold artAfter?
  dsimp only
  rw [hsplit, takeWhile_append_of_pos hblank, length_append]
  cases hrest : trimStart isBlank cs with
  | nil =>
    -- nothing but blanks: the line feed of the end mark is skipped with them
    -- and has to be given back
    have hone : (([] ++ endMark).takeWhile isBlank).length = 1 := rfl
    have hnone : beforeMark?
        ((blanks ++ ([] ++ endMark)).drop (blanks.length + 1)) = none := by
      rw [← drop_drop, drop_left]
      rfl
    rw [hrest] at hhere
    rw [hone, htries, htries, findSome?_cons, hnone, findSome?_cons, hhere]
  | cons c rest =>
    have hc : isBlank c = false := head?_trimStart (by rw [hrest]; rfl)
    have hzero : ((c :: rest ++ endMark).takeWhile isBlank).length = 0 := by
      rw [cons_append, takeWhile_cons, hc]
      rfl
    rw [hrest] at hhere
    rw [hzero, Nat.add_zero, htries, findSome?_cons, hhere]

/-! ## Template files -/

inductive Announcing
  | bare
  | single
  | double
  deriving DecidableEq, Repr

def opening : Announcing → String
  | .bare => "$the_cow = <<EOC;"
  | .single => "$the_cow = <<'EOC';"
  | .double => "$the_cow = <<\"EOC\";"

structure HereDocument where
  comments : List String
  announced : Announcing
  body : List String
  commented : comments.all (startsWith · "##") = true
  unmarked : body.all (!startsWith · "EOC") = true

def HereDocument.lines (d : HereDocument) : List String :=
  d.comments ++ opening d.announced :: (d.body ++ ["EOC"])

/-- The lines of a drawing as one text, without line feeds at its end: what
`parse` should give. -/
def verbatim (body : List String) : String :=
  String.ofList (trimEnd (· == '\n') (joinLines body).toList)

private theorem artAt?_opening (a : Announcing) (cs : List Char) :
    artAt? ((opening a).toList ++ cs) = artAfter? cs := by
  cases a with
  | bare => rfl
  | single => rfl
  | double => rfl

private theorem isComment_of_startsWith {l : String}
    (h : startsWith l "##" = true) :
    isComment l.toList = true := by
  obtain ⟨rest, hrest⟩ := isPrefixOf_iff_prefix.1 h
  rw [← hrest]
  rfl

theorem intercalate_append_fed (first : List Char) (ls : List (List Char)) :
    List.intercalate ['\n'] (first :: ls) = first ++ fed ls := by
  induction ls generalizing first with
  | nil => simp [fed]
  | cons l ls ih =>
    rw [intercalate_cons_cons, ih, append_assoc]
    rfl

variable {d : HereDocument} {content : String}

/-- `withoutComments` leaves the announcement, the `drawnLines` and the end
mark. -/
theorem withoutComments_of_lines (h : Text.lines content = d.lines) :
    withoutComments content.toList =
    (opening d.announced).toList ++ (fed ((d.body.map String.toList).filter
      fun l => !isComment l) ++ endMark) := by
  have hlines : breakLines content.toList = d.lines.map String.toList := by
    rw [← h, Text.lines, map_map]
    exact (List.map_id' _).symm.trans (map_congr_left fun l _ =>
      (String.toList_ofList).symm)
  have hcomments :
      (d.comments.map String.toList).filter (fun l => !isComment l) = [] := by
    rw [filter_eq_nil_iff, forall_mem_map]
    intro l hl
    rw [isComment_of_startsWith (all_eq_true.1 d.commented l hl)]
    decide
  have hopening : isComment (opening d.announced).toList = false := by
    cases d.announced with
    | bare => rfl
    | single => rfl
    | double => rfl
  rw [withoutComments, hlines, HereDocument.lines, map_append, filter_append,
    hcomments, nil_append, map_cons, filter_cons, hopening]
  rw [Bool.not_false, if_pos rfl, intercalate_append_fed, map_append,
    filter_append, fed, flatMap_append]
  rfl

/-- The lines of a drawing that are not taken for comments. -/
def drawnLines (body : List String) : List String :=
  body.filter fun l => !isComment l.toList

/-- What `parse` makes of a file with one drawing: its `drawnLines`, without the
blanks at their start. -/
theorem parse_of_lines (h : Text.lines content = d.lines) :
    ∃ t, parse content = some t ∧ t.art =
    String.ofList (trimEnd (· == '\n')
      (trimStart isBlank (joinLines (drawnLines d.body)).toList)) := by
  have hleft : (d.body.map String.toList).filter (fun l => !isComment l) =
      (drawnLines d.body).map String.toList := by
    rw [drawnLines, filter_map]
    rfl
  have hunmarked : Unmarked (fed ((drawnLines d.body).map String.toList)) := by
    refine unmarked_fed ?_ ?_
    · rw [forall_mem_map]
      intro l hl hfeed
      have hmem : l ∈ Text.lines content := by
        rw [h, HereDocument.lines]
        simp [(mem_filter.1 hl).1]
      exact absurd (unbroken_of_mem_lines hmem '\n' hfeed) (by decide)
    · rw [forall_mem_map]
      intro l hl hmark
      have hstart := all_eq_true.1 d.unmarked l (mem_filter.1 hl).1
      rw [startsWith, isPrefixOf_iff_prefix.2 hmark] at hstart
      cases hstart
  have hart : artAt? (withoutComments content.toList) =
      some (trimStart isBlank (joinLines (drawnLines d.body)).toList) := by
    rw [withoutComments_of_lines h, hleft, artAt?_opening,
      artAfter?_eq hunmarked, joinLines, String.toList_intercalate]
    cases (drawnLines d.body).map String.toList with
    | nil => rfl
    | cons l ls =>
      -- the line feed behind the announcement is a blank as well
      show some (trimStart isBlank (l ++ fed ls)) = _
      rw [← intercalate_append_fed]
      rfl
  have hfirst : firstIn? artAt? (withoutComments content.toList) =
      artAt? (withoutComments content.toList) := by
    cases hcs : withoutComments content.toList with
    | nil => rfl
    | cons c cs =>
      rw [hcs] at hart
      rw [firstIn?, hart]
      rfl
  unfold parse
  dsimp only
  rw [hfirst, hart]
  exact ⟨_, rfl, rfl⟩

/-! ## Drawings that come through -/

theorem count_trimEnd (cs : List Char) :
    (trimEnd (· == '\n') cs).count '#' = cs.count '#' := by
  have hfeeds : ((cs.reverse.takeWhile (· == '\n')).reverse).count '#' = 0 := by
    rw [count_eq_zero, mem_reverse]
    intro hmem
    exact absurd (all_eq_true.1 all_takeWhile '#' hmem) (by decide)
  conv => rhs; rw [← trimEnd_append_takeWhile (· == '\n') cs,
    count_append, hfeeds]
  rfl

theorem count_joinLines (ls : List String) :
    (joinLines ls).toList.count '#' = (ls.flatMap String.toList).count '#' := by
  rw [joinLines, String.toList_intercalate]
  cases ls with
  | nil => rfl
  | cons l ls =>
    have hfed : (fed (ls.map String.toList)).count '#' =
        (ls.flatMap String.toList).count '#' := by
      induction ls with
      | nil => rfl
      | cons l ls ih =>
        show (('\n' :: l.toList) ++ fed (ls.map String.toList)).count '#' = _
        rw [count_append, ih, flatMap_cons, count_append, count_cons]
        rfl
    show (List.intercalate ['\n'] (l.toList :: ls.map String.toList)).count
      '#' = _
    rw [intercalate_append_fed, count_append, hfed, flatMap_cons, count_append]

private theorem count_pos_of_isComment {cs : List Char}
    (h : isComment cs = true) :
    0 < cs.count '#' := by
  rw [isComment, beq_iff_eq] at h
  exact count_pos_iff.2 ((dropWhile_sublist isBlank).subset (mem_of_head? h))

/-- A line that is taken for a comment has the sign of one, so the `drawnLines`
have fewer. -/
theorem count_drawnLines (body : List String) :
    ((drawnLines body).flatMap String.toList).count '#' ≤
      (body.flatMap String.toList).count '#' ∧
      ∀ l ∈ body, isComment l.toList = true →
        ((drawnLines body).flatMap String.toList).count '#' <
          (body.flatMap String.toList).count '#' := by
  induction body with
  | nil => exact ⟨Nat.le_refl _, fun l hl => absurd hl not_mem_nil⟩
  | cons first body ih =>
    obtain ⟨hle, hlt⟩ := ih
    rw [flatMap_cons, count_append, drawnLines, filter_cons]
    cases hfirst : isComment first.toList with
    | true =>
      have hsign := count_pos_of_isComment hfirst
      have hless : ((drawnLines body).flatMap String.toList).count '#' <
          first.toList.count '#' + (body.flatMap String.toList).count '#' := by
        omega
      exact ⟨Nat.le_of_lt hless, fun _ _ _ => hless⟩
    | false =>
      rw [Bool.not_false, if_pos rfl, flatMap_cons, count_append]
      refine ⟨Nat.add_le_add_left hle _,
        fun l hl hcomment => Nat.add_lt_add_left (hlt l ?_ hcomment) _⟩
      refine (mem_cons.1 hl).resolve_left ?_
      rintro rfl
      rw [hfirst] at hcomment
      cases hcomment

/-- **A drawing comes through as it is** if and only if none of its lines looks
like a comment and it does not begin with a blank or an empty line. -/
theorem drawing_verbatim_iff (h : Text.lines content = d.lines) :
    ∃ t, parse content = some t ∧
    t.art = String.ofList (trimEnd (· == '\n')
      (trimStart isBlank (joinLines (drawnLines d.body)).toList)) ∧
    (t.art = verbatim d.body ↔ (∀ l ∈ d.body, isComment l.toList = false) ∧
      ∀ c, (verbatim d.body).toList.head? = some c → isBlank c = false) := by
  obtain ⟨t, hparse, hart⟩ := parse_of_lines h
  refine ⟨t, hparse, hart, ?_⟩
  rw [hart, verbatim, String.ofList_inj, String.toList_ofList]
  constructor
  · intro hsame
    refine ⟨fun l hl => ?_, fun c hc => ?_⟩
    · rw [← Bool.not_eq_true]
      intro hcomment
      have hcount := congrArg (List.count '#') hsame
      have hstart :
        (trimStart isBlank (joinLines (drawnLines d.body)).toList).count '#' ≤
          (joinLines (drawnLines d.body)).toList.count '#' :=
        (dropWhile_sublist isBlank).count_le '#'
      have hless := (count_drawnLines d.body).2 l hl hcomment
      rw [count_trimEnd, count_trimEnd, count_joinLines] at hcount
      rw [count_joinLines] at hstart
      omega
    · rw [← hsame] at hc
      exact head?_trimStart (head?_trimEnd hc)
  · rintro ⟨hplain, hhead⟩
    have hbody : drawnLines d.body = d.body :=
      filter_eq_self.2 fun l hl => by rw [hplain l hl]; rfl
    rw [hbody]
    cases hverbatim : trimEnd (· == '\n') (joinLines d.body).toList with
    | nil =>
      -- nothing but line feeds, and these are blanks
      have hblank : ∀ c ∈ (joinLines d.body).toList, isBlank c = true :=
          fun c hc => by
        rw [eq_of_beq (forall_of_trimEnd_eq_nil hverbatim c hc)]
        rfl
      have hnone : ((joinLines d.body).toList ++ []).dropWhile isBlank = [] :=
        dropWhile_append_of_pos hblank
      rw [append_nil] at hnone
      rw [trimStart, hnone]
      rfl
    | cons c rest =>
      have hkept : (trimEnd (· == '\n') (joinLines d.body).toList).head? =
          some c := by rw [hverbatim]; rfl
      have hfirst := head?_trimEnd hkept
      have hc := hhead c (by rw [hverbatim]; rfl)
      rw [trimStart_eq_self, hverbatim]
      intro first h
      rw [hfirst] at h
      cases h
      exact hc

/-- A drawing with blanks at the end of a line, an empty line, and an indented
line with both marks in it. -/
def plainDrawing : HereDocument where
  comments := ["##", "## a cow"]
  announced := .single
  body := ["o  ", "", "  \\#EOC", ""]
  commented := rfl
  unmarked := rfl

/-- A file that holds this drawing, with two kinds of line ends. -/
def plainFile : String :=
  "##\r\n## a cow\n$the_cow = <<'EOC';\no  \n\n  \\#EOC\n\nEOC\n"

/-- The line feed at the end of the drawing is dropped, and all else comes
through. -/
theorem drawing_verbatim_plain : Text.lines plainFile = plainDrawing.lines ∧
    ∃ t, parse plainFile = some t ∧ t.art = "o  \n\n  \\#EOC" := by
  have hlines : Text.lines plainFile = plainDrawing.lines := by decide
  have hplain : plainDrawing.body.all (fun l => !isComment l.toList) =
      true := by decide
  have hhead : (verbatim plainDrawing.body).toList.head? = some 'o' := by decide
  obtain ⟨t, hparse, -, hiff⟩ := drawing_verbatim_iff hlines
  refine ⟨hlines, t, hparse, hiff.2 ⟨fun l hl => ?_, fun c hc => ?_⟩⟩
  · exact Bool.not_eq_true' _ ▸ all_eq_true.1 hplain l hl
  · rw [hhead] at hc
    cases hc
    rfl

/-- The indentation of the first line is lost, and so is a line that looks like
a comment. -/
theorem drawing_not_verbatim :
    parse "##\n$the_cow = <<EOC;\n  a\nEOC\n" = some ⟨"a", none, none⟩ ∧
    verbatim ["  a"] = "  a" ∧
      parse "##\n$the_cow = <<EOC;\na\n #b\nEOC\n" = some ⟨"a", none, none⟩ ∧
      verbatim ["a", " #b"] = "a\n #b" := by
  decide

end TaskShell.Cow

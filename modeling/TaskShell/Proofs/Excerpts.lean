import TaskShell.Proofs.History
import TaskShell.Proofs.Tail

/-!
# The first and the last lines

Commands that show lines take them from a text or from a file. The first `k`
lines and the last lines make up the text for every `k` but one: no last lines
are all of them, so a cut behind the last line gives every line twice. For a
text whose only line breaks are line feeds the lines of the file are those of
the text. The first lines of a file are shown only if it has as many, though,
while a text with fewer lines is shown as a whole.
-/

namespace TaskShell

open Act Text List

namespace Text

/-! ## Lines and their texts -/

theorem joinLines_eq_empty_iff {ls : List String} :
    joinLines ls = "" ↔ ls = [] ∨ ls = [""] := by
  cases ls with
  | nil => simp [joinLines]
  | cons first rest =>
    cases rest with
    | nil => simp [joinLines]
    | cons second rest =>
      simp [joinLines, String.intercalate_cons_cons, String.append_eq_empty_iff]

def FeedsOnly (cs : List Char) : Prop :=
  ∀ c ∈ cs, isLineBreak c = true → c = '\n'

theorem FeedsOnly.return_not_mem {cs : List Char} (h : FeedsOnly cs) :
    '\r' ∉ cs := by
  intro hm
  exact absurd (h '\r' hm rfl) (by decide)

private theorem map_trimEnd_fileLinesFrom {cs line : List Char}
    (h : FeedsOnly cs) (hline : '\n' ∉ line) :
    (fileLinesFrom cs line).map (trimEnd (· == '\n')) =
      breakLinesFrom cs line := by
  induction cs generalizing line with
  | nil =>
    cases line with
    | nil => rfl
    | cons c line =>
      have hrev : '\n' ∉ (c :: line).reverse := by rwa [mem_reverse]
      show [trimEnd (· == '\n') (c :: line).reverse] = [(c :: line).reverse]
      rw [App.trimEnd_of_not_mem hrev]
  | cons c cs ih =>
    have hcs : FeedsOnly cs := fun d hd => h d (mem_cons_of_mem _ hd)
    by_cases hc : c = '\n'
    · subst hc
      have hrev : '\n' ∉ line.reverse := by rwa [mem_reverse]
      have hbreak : isLineBreak '\n' = true := rfl
      rw [fileLinesFrom, map_cons, reverse_cons,
        App.trimEnd_append_newline hrev, ih hcs not_mem_nil,
        breakLinesFrom.eq_4 _ _ _ (by simp), if_pos hbreak]
    · have hreturn : c ≠ '\r' := by
        rintro rfl
        exact h.return_not_mem mem_cons_self
      have hplain : ¬ isLineBreak c = true :=
        fun hbreak => hc (h c mem_cons_self hbreak)
      have hnext : '\n' ∉ c :: line := by simp [Ne.symm hc, hline]
      rw [fileLinesFrom.eq_4 _ _ _ (by simp [hc]), ih hcs hnext,
        breakLinesFrom.eq_4 _ _ _ (by simp [hreturn]), if_neg hplain]

theorem map_trimEnd_fileLines {text : String} (h : FeedsOnly text.toList) :
    (fileLines text.toList).map (fun l =>
      String.ofList (trimEnd (· == '\n') l)) = lines text := by
  rw [lines, breakLines, ← map_trimEnd_fileLinesFrom h not_mem_nil, map_map]
  rfl

/-! ## Picked lines -/

theorem firstItems_natCast {α : Type} (k : Nat) (xs : List α) :
    firstItems k xs = xs.take k := by
  have hnonneg : ¬ (k : Int) < 0 := by omega
  rw [firstItems, if_neg hnonneg, Int.natAbs_natCast]

/-- The lines that `tail` picks as the last ones, behind the first `k`. -/
def behindCut {α : Type} (k : Nat) (xs : List α) : List α :=
  if k < xs.length then xs.drop k else xs

theorem lastItems_behindCut {α : Type} {k : Nat} {xs : List α}
    (h : k ≤ xs.length) :
    lastItems ((xs.length - k : Nat) : Int) xs = behindCut k xs := by
  rw [lastItems, behindCut, Int.natAbs_natCast]
  by_cases hlt : k < xs.length
  · have hplace : xs.length - (xs.length - k) = k := by omega
    rw [if_neg (by omega), if_pos hlt, hplace]
  · have hnone : xs.length - k = 0 := by omega
    rw [if_pos (by omega), if_neg hlt, hnone, drop_zero]

theorem take_append_behindCut_iff {α : Type} {k : Nat} {xs : List α}
    (h : k ≤ xs.length) :
    xs.take k ++ behindCut k xs = xs ↔ k < xs.length ∨ xs = [] := by
  unfold behindCut
  by_cases hlt : k < xs.length
  · simp [hlt]
  · have hall : k = xs.length := by omega
    subst hall
    simp

theorem joinLines_behindCut_iff {k : Nat} {ls : List String}
    (h : k ≤ ls.length) :
    joinLines (behindCut k ls) = joinLines (ls.drop k) ↔ k < ls.length ∨
    ls = [] ∨ ls = [""] := by
  unfold behindCut
  by_cases hlt : k < ls.length
  · simp [hlt]
  · have hnone : joinLines (ls.drop k) = "" := by
      rw [drop_eq_nil_of_le (by omega)]
      rfl
    rw [if_neg hlt, hnone, joinLines_eq_empty_iff]
    simp [hlt]

end Text

namespace Shell

/-! ## Texts and files as arguments -/

def fileArgs (path : String) (n : Int) : Args :=
  [("file", .text path), ("n", .int n)]

def textArgs (text : String) (n : Int) : Args :=
  [("str", .text text), ("n", .int n)]

theorem isTruthy_fileArgs {path : String} (hpath : path ≠ "") (n : Int) :
    ((fileArgs path n).getD "file" .null).isTruthy = true :=
  isTruthy_text hpath

theorem openable_fileArgs (s : Site) (path : String) (n : Int) :
    openable ((fileArgs path n).getD "file" .null) s = (.ok path, s) := rfl

theorem readText_of_utf8 {s : Site} {path text : String}
    (h : FeedsOnly text.toList)
    (hread : Files.readBytes path s = (.ok (utf8 text), s)) :
    Files.readText path s = (.ok text.toList, s) := by
  have hdecode : decodeReplacing (utf8 text) = text.toList :=
    decodeReplacing_of_strict (decodeStrict_utf8Of _)
  rw [Files.readText, bind_of_ok hread, hdecode,
    App.unifyNewlines_of_not_mem h.return_not_mem, pure_apply]

theorem withText_textArgs (s : Site) (text : String) (n : Int)
    (name operation : String) (use : String → Value) :
    withText name operation (textArgs text n) use s = (.ok (use text), s) := rfl

section File

variable {s : Site} {path text : String}
  (hread : Files.readText path s = (.ok text.toList, s)) (hpath : path ≠ "")
include hread hpath

theorem withText_fileArgs (n : Int) (name operation : String)
    (use : String → Value) :
    withText name operation (fileArgs path n) use s = (.ok (use text), s) := by
  rw [withText, isTruthy_fileArgs hpath, if_pos rfl]
  refine orElse_of_ok ?_
  rw [bind_of_ok (openable_fileArgs s path n), bind_of_ok hread,
    String.ofList_toList, pure_apply]

/-- `headCommand` shows the first lines of a file if it has that many. -/
theorem headCommand_file (h : FeedsOnly text.toList) (n : Nat) :
    headCommand (fileArgs path n) s =
    (.ok (.text (if n ≤ (lines text).length then joinLines ((lines text).take n)
      else "")), s) := by
  have hcount : integerOf ((fileArgs path n).getD "n" (.int 10)) s =
      (.ok (n : Int), s) := rfl
  have hlines := map_trimEnd_fileLines h
  have hsize : (fileLines text.toList).length = (lines text).length := by
    rw [← hlines, length_map]
  have hhead : ((fileHead? n text.toList).map joinLines).getD "" =
      if n ≤ (lines text).length then
        joinLines ((lines text).take n)
      else "" := by
    rw [fileHead?, Int.toNat_natCast, hsize]
    by_cases hn : n ≤ (lines text).length
    · rw [if_pos hn, if_pos hn, Option.map_some, Option.getD_some,
        map_take, hlines]
    · rw [if_neg hn, if_neg hn, Option.map_none, Option.getD_none]
  rw [headCommand, bind_of_ok hcount, isTruthy_fileArgs hpath, if_pos rfl]
  refine orElse_of_ok ?_
  rw [bind_of_ok (openable_fileArgs s path n), bind_of_ok hread,
    pure_apply, hhead]

end File

theorem headCommand_text (s : Site) (text : String) (n : Nat) :
    headCommand (textArgs text n) s =
      (.ok (.text (joinLines ((lines text).take n))), s) := by
  rw [← firstItems_natCast]
  rfl

theorem tailCommand_text (s : Site) (text : String) (n : Int) :
    tailCommand (textArgs text n) s =
      (.ok (.text (joinLines (lastItems n (lines text)))), s) := rfl

theorem tailCommand_file {s : Site} {path text : String}
    (hread : Files.readText path s = (.ok text.toList, s))
    (hpath : path ≠ "") (n : Int) :
    tailCommand (fileArgs path n) s =
      (.ok (.text (joinLines (lastItems n (lines text)))), s) := by
  have hcount : integerOf ((fileArgs path n).getD "n" (.int 10)) s =
      (.ok n, s) := rfl
  rw [tailCommand, bind_of_ok hcount, withText_fileArgs hread hpath]

/-! ## The first and the last lines of a text -/

/-- **The first lines and the last lines make up a text, but for one cut.**
Behind the first `k` lines the others are asked for. If there are none, all
lines are shown again. -/
theorem head_tail_cover_iff (s : Site) (t : String) (k : Nat)
    (hk : k ≤ (lines t).length) :
    headCommand (textArgs t k) s =
      (.ok (.text (joinLines ((lines t).take k))), s) ∧
    tailCommand (textArgs t ((lines t).length - k : Nat)) s =
      (.ok (.text (joinLines (behindCut k (lines t)))), s) ∧
    (joinLines (behindCut k (lines t)) = joinLines ((lines t).drop k) ↔
      k < (lines t).length ∨ lines t = [] ∨ lines t = [""]) ∧
    ((lines t).take k ++ behindCut k (lines t) = lines t ↔
      k < (lines t).length ∨ lines t = []) := by
  refine ⟨headCommand_text s t k, ?_, joinLines_behindCut_iff hk,
    take_append_behindCut_iff hk⟩
  rw [tailCommand_text, lastItems_behindCut hk]

/-- A cut before the last of three lines, which end in three ways. -/
theorem head_tail_cover_three : 2 ≤ (lines "a\x0bb\r\nc").length ∧
    headCommand (textArgs "a\x0bb\r\nc" 2) default =
      (.ok (.text "a\nb"), default) ∧
    tailCommand (textArgs "a\x0bb\r\nc" 1) default =
      (.ok (.text "c"), default) := by
  have hsize : 2 ≤ (lines "a\x0bb\r\nc").length := by decide
  obtain ⟨hhead, htail, -, -⟩ :=
    head_tail_cover_iff default "a\x0bb\r\nc" 2 hsize
  exact ⟨hsize, hhead, htail⟩

/-- The cut behind the last line. -/
theorem head_tail_repeat_all : lines "a\nb" = ["a", "b"] ∧
    headCommand (textArgs "a\nb" 2) default = (.ok (.text "a\nb"), default) ∧
    tailCommand (textArgs "a\nb" 0) default = (.ok (.text "a\nb"), default) :=
  ⟨rfl, rfl, rfl⟩

/-! ## Files and their texts -/

/-- **A file shows as its text, but for the first lines of a short file.** Of a
file with fewer lines than asked for, nothing is shown, while its text is shown
as a whole. -/
theorem file_text_agree_iff {s : Site} {path text : String} (n : Nat)
    (h : FeedsOnly text.toList)
    (hread : Files.readBytes path s = (.ok (utf8 text), s)) {name : String}
    (hname : name ∈ ["head", "tail", "sort", "wc"]) :
    ∃ command fromFile fromText, Command.ofName? name = some command ∧
      command.run (fileArgs path n) s = (.ok (.text fromFile), s) ∧
      command.run (textArgs text n) s = (.ok (.text fromText), s) ∧
      (fromFile = fromText ↔
        ¬ (name = "head" ∧ (lines text).length < n ∧ lines text ≠ [] ∧
          lines text ≠ [""])) ∧
      (name = "head" → (lines text).length < n → fromFile = "" ∧
        fromText = joinLines (lines text)) := by
  have htext := readText_of_utf8 h hread
  have hpath := ne_empty_of_readBytes hread
  simp only [mem_cons, not_mem_nil, or_false] at hname
  rcases hname with rfl | rfl | rfl | rfl
  · refine ⟨.head, _, _, rfl, headCommand_file htext hpath h n,
      headCommand_text s text n, ?_, ?_⟩
    · by_cases hn : n ≤ (lines text).length
      · simp [hn, Nat.not_lt.2 hn]
      · rw [if_neg hn, take_of_length_le (by omega), eq_comm,
          joinLines_eq_empty_iff]
        simp [Nat.lt_of_not_le hn, Classical.or_iff_not_imp_left]
    · intro _ hlt
      rw [if_neg (by omega), take_of_length_le (by omega)]
      exact ⟨rfl, rfl⟩
  · exact ⟨.tail, _, _, rfl, tailCommand_file htext hpath n,
      tailCommand_text s text n, by simp, by simp⟩
  · exact ⟨.sort, _, _, rfl, withText_fileArgs htext hpath n ..,
      withText_textArgs s text n "sort" .., by simp, by simp⟩
  · exact ⟨.wc, _, _, rfl, withText_fileArgs htext hpath n ..,
      withText_textArgs s text n "wc" .., by simp, by simp⟩

theorem feedsOnly_two : FeedsOnly "b\na".toList := by
  intro c hc hbreak
  have hmem : c = 'b' ∨ c = '\n' ∨ c = 'a' := by simpa using hc
  rcases hmem with rfl | rfl | rfl
  · cases hbreak
  · rfl
  · cases hbreak

/-- The last lines of a file without a line feed at its end. -/
theorem file_text_agree_tail :
    Files.readBytes "/t" (fileSite (utf8 "b\na")) =
      (.ok (utf8 "b\na"), fileSite (utf8 "b\na")) ∧
    ∃ command fromFile fromText, Command.ofName? "tail" = some command ∧
      command.run (fileArgs "/t" 5) (fileSite (utf8 "b\na")) =
        (.ok (.text fromFile), fileSite (utf8 "b\na")) ∧
      command.run (textArgs "b\na" 5) (fileSite (utf8 "b\na")) =
        (.ok (.text fromText), fileSite (utf8 "b\na")) ∧
      fromFile = fromText := by
  have hread := readBytes_fileSite (utf8 "b\na")
  obtain ⟨command, fromFile, fromText, hcommand, hfile, htext, hiff, -⟩ :=
    file_text_agree_iff 5 feedsOnly_two hread (show "tail" ∈
      ["head", "tail", "sort", "wc"] by simp)
  exact ⟨hread, command, fromFile, fromText, hcommand, hfile, htext,
    hiff.2 (by simp)⟩

/-- A file of two lines, of which three are asked for. -/
theorem file_text_differ_short :
    Files.readBytes "/t" (fileSite (utf8 "b\na")) =
      (.ok (utf8 "b\na"), fileSite (utf8 "b\na")) ∧
    Command.run .head (fileArgs "/t" 3) (fileSite (utf8 "b\na")) =
      (.ok (.text ""), fileSite (utf8 "b\na")) ∧
    Command.run .head (textArgs "b\na" 3) (fileSite (utf8 "b\na")) =
      (.ok (.text "b\na"), fileSite (utf8 "b\na")) := by
  have hread := readBytes_fileSite (utf8 "b\na")
  refine ⟨hread, ?_, rfl⟩
  exact headCommand_file (readText_of_utf8 feedsOnly_two hread) (by decide)
    feedsOnly_two 3

end Shell

end TaskShell

import TaskShell.Proofs.Storage

/-!
# Reading a file from its end

The last lines of a file are found without reading all of it: piece by piece is
read from the end, until there are more lines than asked for. What has been read
then begins anywhere, in the middle of a line, of a character, or between the
two bytes of one line ending. Only the first of its lines is affected by that.
All others are lines of the whole file, and since there is one line too many,
the first one is not among the last.
-/

namespace TaskShell

open Act Text List

namespace Text

/-! ## Lines of an end of a text -/

def endsLine (b : UInt8) : Bool := b == 10 || b == 13

theorem byteLinesFrom_plain {b : UInt8} (h : endsLine b = false)
    (bs line : List UInt8) :
    byteLinesFrom (b :: bs) line = byteLinesFrom bs (b :: line) := by
  have hpair : ∀ rest, b = 13 → bs = 10 :: rest → False := by
    rintro rest rfl -
    cases h
  rw [byteLinesFrom.eq_4 _ _ _ hpair, ← endsLine, h, if_neg Bool.false_ne_true]

private theorem byteLinesFrom_break {b : UInt8} (h : endsLine b = true)
    (bs : List UInt8) :
    ∃ rest, ∀ line, byteLinesFrom (b :: bs) line =
      line.reverse :: byteLinesFrom rest [] := by
  by_cases hpair : ∃ rest, b = 13 ∧ bs = 10 :: rest
  · obtain ⟨rest, rfl, rfl⟩ := hpair
    exact ⟨rest, fun line => byteLinesFrom.eq_3 line rest⟩
  · refine ⟨bs, fun line => ?_⟩
    rw [byteLinesFrom.eq_4 _ _ _ fun rest hb hbs => hpair ⟨rest, hb, hbs⟩,
      ← endsLine, h, if_pos rfl]

private theorem drop_one_byteLinesFrom (bs line : List UInt8) :
    (byteLinesFrom bs line).drop 1 = (byteLinesFrom bs []).drop 1 := by
  induction bs generalizing line with
  | nil => cases line <;> rfl
  | cons b bs ih =>
    cases hb : endsLine b with
    | true =>
      obtain ⟨rest, hrest⟩ := byteLinesFrom_break hb bs
      rw [hrest, hrest]
      rfl
    | false => rw [byteLinesFrom_plain hb, byteLinesFrom_plain hb, ih, ih [b]]

/-- **The `byteLines` of an end of a text are its last lines, but for the first
one**, wherever the end begins. Where it begins between the bytes of a line
ending, that first line is empty and the text has no such line at all. -/
theorem drop_one_byteLines_suffix (before after line : List UInt8) :
    (byteLines after).drop 1 <:+ byteLinesFrom (before ++ after) line := by
  fun_induction byteLinesFrom before line with
  | case1 => exact drop_suffix 1 _
  | case2 line hline =>
    rw [nil_append, byteLines, ← drop_one_byteLinesFrom after line]
    exact drop_suffix 1 _
  | case3 bs line ih => exact ih.trans (suffix_cons _ _)
  | case4 b bs line hpair hbreak ih =>
    rw [cons_append]
    by_cases hcut : ∃ rest, b = 13 ∧ bs ++ after = 10 :: rest
    · -- the pair of both bytes lies across the place where the end begins
      obtain ⟨rest, rfl, hrest⟩ := hcut
      have hbs : bs = [] := by
        cases bs with
        | nil => rfl
        | cons c bs =>
          obtain ⟨rfl, -⟩ := List.cons.inj hrest
          exact absurd rfl (hpair bs rfl)
      subst hbs
      obtain rfl : after = 10 :: rest := hrest
      exact suffix_cons _ _
    · rw [byteLinesFrom.eq_4 _ _ _ fun rest hb hbs => hcut ⟨rest, hb, hbs⟩,
        if_pos hbreak]
      exact ih.trans (suffix_cons _ _)
  | case5 b bs line hpair hbreak ih =>
    rw [cons_append, byteLinesFrom_plain (Bool.eq_false_iff.2 hbreak)]
    exact ih

theorem lastN_of_suffix {α : Type} {xs ys : List α} {n : Nat} (h : xs <:+ ys)
    (hn : n ≤ xs.length) :
    lastN n ys = lastN n xs := by
  obtain ⟨before, rfl⟩ := h
  rw [lastN, lastN, length_append, drop_append,
    drop_of_length_le (by omega), nil_append]
  congr 1
  omega

theorem lastItems_of_pos {α : Type} {n : Int} (h : 1 ≤ n) (xs : List α) :
    lastItems n xs = lastN n.toNat xs := by
  have hsize : n.natAbs = n.toNat := by omega
  rw [lastItems, if_neg (by omega), lastN, hsize]

end Text

namespace Shell

namespace Backward

/-! ## Reading in pieces -/

/-- What a `Backward` reading has read of a file is an end of it, and its lines
are known. -/
structure Reads (bytes : List UInt8) (r : Backward) : Prop where
  whole : r.unread.reverse ++ r.data = bytes
  lines : r.found = byteLines r.data

theorem reads_start (bytes : List UInt8) : Reads bytes (start bytes) := by
  refine ⟨?_, rfl⟩
  rw [start, reverse_reverse, append_nil]

/-- `Backward.step` keeps what was read an end of the file. -/
theorem Reads.step {bytes : List UInt8} {r : Backward} (h : Reads bytes r) :
    Reads bytes r.step := by
  refine ⟨?_, rfl⟩
  dsimp only [Backward.step]
  rw [← append_assoc, ← reverse_append, take_append_drop]
  exact h.whole

theorem Reads.run {bytes : List UInt8} {r : Backward} (n : Int)
    (h : Reads bytes r) : Reads bytes (r.run n) := by
  fun_induction Backward.run n r with
  | case1 r hdone => exact h
  | case2 r hdone ih => exact ih h.step

def steps : Nat → Backward → Backward
  | 0, r => r
  | k + 1, r => steps k r.step

/-- **Reading ends.** `run` stops at the first piece after which nothing is left
or more than `n` lines are there, and it reads no more pieces than the file
has. -/
theorem run_eq_steps (n : Int) (r : Backward) :
    ∃ k, r.run n = r.steps k ∧ (r.steps k).isDone n = true ∧
      (∀ j < k, (r.steps j).isDone n = false) ∧
      tailBlock * k < r.unread.length + tailBlock := by
  fun_induction Backward.run n r with
  | case1 r hdone => exact ⟨0, rfl, hdone, by simp, by simp [tailBlock]⟩
  | case2 r hdone ih =>
    obtain ⟨k, hrun, hend, hbefore, hsize⟩ := ih
    refine ⟨k + 1, hrun, hend, ?_, ?_⟩
    · intro j hj
      cases j with
      | zero => exact Bool.eq_false_iff.2 hdone
      | succ j => exact hbefore j (by omega)
    · have hlength := length_step_lt hdone
      simp only [Backward.step, tailBlock, length_drop] at hsize hlength ⊢
      omega

end Backward

/-- `tailLines` finds the same last lines as reading the whole file. -/
theorem tailLines_eq {n : Int} (h : 1 ≤ n) (bytes : List UInt8) :
    tailLines n bytes = lastN n.toNat (byteLines bytes) := by
  obtain ⟨k, hrun, hdone, -, -⟩ := Backward.run_eq_steps n (.start bytes)
  have hreads := (Backward.reads_start bytes).run n
  rw [← hrun] at hdone
  rw [tailLines, lastItems_of_pos h, hreads.lines]
  rw [Backward.isDone, Bool.or_eq_true, decide_eq_true_eq,
    hreads.lines] at hdone
  have hwhole := hreads.whole
  generalize (Backward.start bytes).run n = r at hwhole hdone
  rcases hdone with hall | hmany
  · rw [List.isEmpty_iff.1 hall, reverse_nil, nil_append] at hwhole
    rw [hwhole]
  · -- the first of the lines found may be a part of one, but it is not among
    -- the last
    have hsize : n.toNat ≤ ((byteLines r.data).drop 1).length := by
      rw [length_drop]
      omega
    have hend : (byteLines r.data).drop 1 <:+ byteLines bytes := by
      rw [← hwhole]
      exact drop_one_byteLines_suffix r.unread.reverse r.data []
    rw [lastN_of_suffix hend hsize, ← lastN_of_suffix (drop_suffix 1 _) hsize]

theorem ne_empty_of_readBytes {path : String} {s t : Site} {bytes : List UInt8}
    (h : Files.readBytes path s = (.ok bytes, t)) : path ≠ "" := by
  rintro rfl
  obtain ⟨-, -, place, node, hfind, -⟩ := Files.ok_of_readBytes h
  have hnone : s.disk.find s.seat "" = .error .noEntry := rfl
  rw [hnone] at hfind
  cases hfind

/-- **The last lines of a file.** For a file of any bytes and a number from one
on, however it is written, the command gives the last lines of the whole file,
each one decoded by itself and joined by line feeds; it changes nothing. Reading
in pieces from the end never shows: it ends after no more pieces than the file
has, at the first one after which there are more lines than asked for or nothing
is left. -/
theorem tail_last_lines {s : Site} {path : String} {bytes : List UInt8}
    {args : Args} {n : Int}
    (hread : Files.readBytes path s = (.ok bytes, s))
    (hpath : args.get? "str" = some (.text path))
    (hcount : integerOf (args.getD "n" (.int 10)) s = (.ok n, s)) (hn : 1 ≤ n) :
    fileTailCommand args s =
      (.ok (.text (joinLines ((lastN n.toNat (byteLines bytes)).map fun l =>
        String.ofList (decodeReplacing l)))), s) ∧
    ∃ k, (Backward.start bytes).run n = (Backward.start bytes).steps k ∧
      ((Backward.start bytes).steps k).isDone n = true ∧
      (∀ j < k, ((Backward.start bytes).steps j).isDone n = false) ∧
      tailBlock * k < bytes.length + tailBlock := by
  constructor
  · have htext : textArg args = .text path := by
      rw [textArg, Args.getD, hpath, Option.getD_some]
    have htruthy : (Value.text path).isTruthy = true := by
      simpa [Value.isTruthy] using ne_empty_of_readBytes hread
    have hopen : openable (.text path) s = (.ok path, s) := rfl
    rw [fileTailCommand, htext, bind_of_ok hcount, htruthy, Bool.not_true,
      if_neg Bool.false_ne_true]
    refine bind_of_ok (orElse_of_ok ?_)
    rw [bind_of_ok hopen, bind_of_ok hread, tailLines_eq hn, pure_apply]
  · have hlength : (Backward.start bytes).unread.length = bytes.length :=
      length_reverse
    rw [← hlength]
    exact Backward.run_eq_steps n (.start bytes)

/-- A site with one file, `/t`. -/
def fileSite (bytes : List UInt8) : Site :=
  { (default : Site) with
    disk :=
      [([], ⟨.dir, 0o755, ⟨0, 0⟩⟩), (["t"], ⟨.file bytes, 0o644, ⟨0, 0⟩⟩)] }

theorem readBytes_fileSite (bytes : List UInt8) :
    Files.readBytes "/t" (fileSite bytes) = (.ok bytes, fileSite bytes) := by
  simp only [Files.readBytes, Files.find, Files.checkPath,
    String.contains_char_eq]
  rfl

/-- Two lines, the second one of 1023 bytes, so that the last 1024 bytes begin
between the bytes of the line ending. -/
def cutPair : List UInt8 := [97, 13, 10] ++ List.replicate 1023 98

/-- The first piece read from the end holds one line more than asked for, but
the first of them is not a line of the file. -/
theorem tail_last_lines_cut :
    Files.readBytes "/t" (fileSite cutPair) = (.ok cutPair, fileSite cutPair) ∧
    byteLines cutPair = [[97], List.replicate 1023 98] ∧
    fileTailCommand [("str", .text "/t"), ("n", .text " 1 ")]
      (fileSite cutPair) =
      (.ok (.text (String.ofList (decodeReplacing (List.replicate 1023 98)))),
        fileSite cutPair) := by
  have hread := readBytes_fileSite cutPair
  have hlines : byteLines cutPair = [[97], List.replicate 1023 98] := by
    decide +kernel
  have hpath : Args.get? [("str", .text "/t"), ("n", .text " 1 ")] "str" =
      some (.text "/t") := rfl
  have hcount : integerOf (Args.getD [("str", .text "/t"), ("n", .text " 1 ")]
      "n" (.int 10)) (fileSite cutPair) = (.ok 1, fileSite cutPair) := rfl
  obtain ⟨htail, -⟩ := tail_last_lines hread hpath hcount (by decide)
  refine ⟨hread, hlines, ?_⟩
  rw [htail, hlines]
  rfl

end Shell

end TaskShell

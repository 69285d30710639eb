import TaskShell.App.Highlight
import TaskShell.Proofs.Trimming

/-!
# Highlighted lines

The words of a line are looked for in the line again, one behind the other, and
what lies between them is shown plainly. Quotes and backslashes are no part of a
word, so a word need not occur in its line at all, or may be found at a place
where it was not read. Whatever happens, the pieces are cut from the line one
after the other: what is left of the line is the only thing that is passed on
from one word to the next.
-/

namespace TaskShell.Text

open List

theorem eq_append_of_indexOf? {pat cs : List Char} {i : Nat}
    (h : indexOf? pat cs = some i) :
    cs = cs.take i ++ (pat ++ cs.drop (i + pat.length)) := by
  induction cs generalizing i with
  | nil =>
    rw [indexOf?] at h
    split at h
    · next hempty =>
      cases h
      rw [List.isEmpty_iff.1 hempty]
      rfl
    · cases h
  | cons c cs ih =>
    rw [indexOf?] at h
    split at h
    · next hhere =>
      cases h
      obtain ⟨rest, hrest⟩ := isPrefixOf_iff_prefix.1 hhere
      rw [← hrest, Nat.zero_add, drop_left]
      rfl
    · obtain ⟨j, hj, rfl⟩ := Option.map_eq_some_iff.1 h
      rw [take_succ_cons, Nat.add_right_comm, drop_succ_cons,
        cons_append, ← ih hj]

theorem not_infix_of_indexOf?_eq_none {pat cs : List Char}
    (h : indexOf? pat cs = none) : ¬ pat <:+: cs := by
  rw [← occursIn_iff, occursIn, h]
  exact Bool.false_ne_true

end TaskShell.Text

namespace TaskShell.App

open Text Editor List

/-! ## Pieces of a line -/

theorem flatMap_text_plainPiece (text : List Char) :
    (plainPiece text).flatMap Fragment.text = text := by
  unfold plainPiece
  split
  · next hempty => exact (List.isEmpty_iff.1 hempty).symm
  · exact append_nil text

/-- **The pieces of `fragmentsFrom` a place are the rest of the line.** -/
theorem flatMap_text_fragmentsFrom (words : List (List Char)) :
    ∀ (first : Bool) (rest : List Char),
    (fragmentsFrom first words rest).flatMap Fragment.text = rest := by
  induction words with
  | nil => exact fun _ rest => flatMap_text_plainPiece rest
  | cons word more ih =>
    intro first rest
    unfold fragmentsFrom
    cases hfind : indexOf? word rest with
    | none => exact flatMap_text_plainPiece rest
    | some i =>
      dsimp only
      rw [flatMap_append, flatMap_cons, flatMap_text_plainPiece, ih]
      exact (eq_append_of_indexOf? hfind).symm

/-! ## Pieces that are words -/

def shownWords (fragments : List Fragment) : List (List Char) :=
  (fragments.filter fun f => f.role != .plain).map Fragment.text

theorem shownWords_append (fragments more : List Fragment) :
    shownWords (fragments ++ more) =
      shownWords fragments ++ shownWords more := by
  simp [shownWords]

theorem shownWords_plainPiece (text : List Char) :
    shownWords (plainPiece text) = [] := by
  unfold plainPiece
  split
  · rfl
  · rfl

private theorem roleOf_ne_plain (word : List Char) : roleOf word ≠ .plain := by
  unfold roleOf
  repeat' split
  all_goals simp

theorem shownWords_cons_word (first : Bool) (word : List Char)
    (fragments : List Fragment) :
    shownWords (⟨if first then .command else roleOf word, word⟩ :: fragments) =
      word :: shownWords fragments := by
  have hrole : (if first then Role.command else roleOf word) ≠ .plain := by
    split
    · exact Role.noConfusion
    · exact roleOf_ne_plain word
  simp [shownWords, hrole]

/-- The words that `fragments` show: the words of a line up to one that does not
occur behind those before it. -/
def Marks (words : List (List Char)) (fragments : List Fragment) : Prop :=
  ∃ before rest left, fragments = before ++ plainPiece rest ∧
    words = shownWords before ++ left ∧
    ∀ word, left.head? = some word → ¬ word <:+: rest

/-- **`fragmentsFrom` shows words as long as they are found.** -/
theorem marks_fragmentsFrom (words : List (List Char)) :
    ∀ (first : Bool) (rest : List Char),
    Marks words (fragmentsFrom first words rest) := by
  induction words with
  | nil => exact fun _ rest => ⟨[], rest, [], rfl, rfl, fun _ h => by cases h⟩
  | cons word more ih =>
    intro first rest
    unfold fragmentsFrom
    cases hfind : indexOf? word rest with
    | none =>
      refine ⟨[], rest, word :: more, rfl, rfl, ?_⟩
      rintro _ ⟨⟩
      exact not_infix_of_indexOf?_eq_none hfind
    | some i =>
      obtain ⟨before, tail, left, hpieces, hwords, hleft⟩ :=
        ih false (rest.drop (i + word.length))
      refine ⟨plainPiece (rest.take i) ++ ⟨if first then .command
        else roleOf word, word⟩ :: before, tail, left, ?_, ?_, hleft⟩
      · dsimp only
        rw [hpieces, append_assoc, cons_append]
      · rw [shownWords_append, shownWords_plainPiece, nil_append,
          shownWords_cons_word, cons_append, ← hwords]

/-! ## Whole lines -/

/-- `highlight` gives at least one piece; where none was found it is the line,
which is empty. -/
theorem highlight_cases (line : String) :
    highlight line = fragmentsFrom true
      ((Words.splitOrBlanks line).map String.toList) line.toList ∨
      fragmentsFrom true ((Words.splitOrBlanks line).map String.toList)
        line.toList = [] ∧
        highlight line = [⟨.plain, line.toList⟩] := by
  unfold highlight
  cases hpieces : fragmentsFrom true
      ((Words.splitOrBlanks line).map String.toList) line.toList with
  | nil => exact .inr ⟨rfl, rfl⟩
  | cons piece more => exact .inl rfl

theorem flatMap_text_highlight (line : String) :
    (highlight line).flatMap Fragment.text = line.toList := by
  rcases highlight_cases line with h | ⟨-, h⟩
  · rw [h, flatMap_text_fragmentsFrom]
  · rw [h]
    exact append_nil _

private theorem marks_highlight (line : String) :
    Marks ((Words.splitOrBlanks line).map String.toList) (highlight line) := by
  have hmarks := marks_fragmentsFrom
    ((Words.splitOrBlanks line).map String.toList) true line.toList
  rcases highlight_cases line with h | ⟨hnone, h⟩
  · rwa [h]
  · -- an empty line: its one piece comes before a rest that is empty too
    have hempty := flatMap_text_fragmentsFrom
      ((Words.splitOrBlanks line).map String.toList) true line.toList
    rw [hnone] at hmarks hempty
    obtain ⟨before, rest, left, hpieces, hwords, hleft⟩ := hmarks
    obtain ⟨hbefore, hrest⟩ := append_eq_nil_iff.1 hpieces.symm
    rw [hbefore] at hwords
    refine ⟨[⟨.plain, line.toList⟩], rest, left, ?_, hwords, hleft⟩
    rw [h, hrest]
    rfl

/-- **Highlighting loses nothing.** The pieces of each line of a document, one
after the other, are the line, whatever the words of the line are and wherever
they are found. The pieces that are not plain are the words of the line in their
order, up to one that does not occur behind those before it. -/
theorem highlight_lossless (d : Document) :
    d.lines.map (fun line =>
      (highlight (String.ofList line)).flatMap Fragment.text) = d.lines ∧
      ∀ line ∈ d.lines,
        Marks ((Words.splitOrBlanks (String.ofList line)).map String.toList)
          (highlight (String.ofList line)) := by
  refine ⟨?_, fun line _ => marks_highlight _⟩
  refine (map_congr_left fun line _ => ?_).trans (map_id _)
  rw [flatMap_text_highlight, String.toList_ofList]
  rfl

/-- A word that has lost the quotes inside of it does not occur in its line, and
ends the search. -/
example : (highlight "ls a'b c' ls").map Fragment.text =
    ["ls".toList, " a'b c' ls".toList] := by rfl

end TaskShell.App

import TaskShell.Shell.Flags

/-!
# One scan of a command line

The words after a command are scanned four times: for the arguments, for the
positional words, for their places and for their number. Each scan walks the
words in the same way, a flag with its value or one positional word at a time.
This module describes that walk once, by the flags it meets (`flagPairs`) and by
whether it ends on a flag without a value (`dangles`), and ties the four scans
to it.
-/

namespace TaskShell

open List

theorem Args.set_of_get?_none (args : Args) (name : String) (v : Value)
    (h : args.get? name = none) :
    args.set name v = args ++ [(name, v)] := by
  induction args with
  | nil => rfl
  | cons entry rest ih =>
    obtain ⟨k, old⟩ := entry
    unfold Args.get? at h ih
    rw [lookup_cons] at h
    by_cases hk : k == name
    · have hn : (name == k) = true := by rw [beq_iff_eq] at hk ⊢; exact hk.symm
      simp [hn] at h
    · have hn : (name == k) = false := by
        rw [beq_eq_false_iff_ne]
        intro he
        exact hk (by simp [he])
      rw [hn] at h
      simp only [Args.set, hk, Bool.false_eq_true, if_false, ih h, cons_append]

namespace Shell

open Text

def flagPairs : List String → List (String × String)
  | [] => []
  | [_] => []
  | word :: value :: rest =>
    if isFlag word then (word, value) :: flagPairs rest
      else flagPairs (value :: rest)

/-- Whether a scan ends on a word that looks like a flag and has no value. -/
def dangles : List String → Bool
  | [] => false
  | [word] => isFlag word
  | word :: value :: rest =>
    if isFlag word then dangles rest else dangles (value :: rest)

def setFlags (args : Args) (pairs : List (String × String)) : Args :=
  pairs.foldl (fun args p => args.set (flagName p.1) (.text p.2)) args

def flagArgs (words : List String) : Args := setFlags [] (flagPairs words)

/-! ## A word that is no flag -/

section Head

variable {word : String} (h : isFlag word = false) (rest : List String)
include h

theorem positionalFrom_cons :
    positionalFrom (word :: rest) = word :: positionalFrom rest := by
  cases rest with
  | nil => rfl
  | cons value rest => simp [positionalFrom, h]

theorem flagPairs_cons : flagPairs (word :: rest) = flagPairs rest := by
  cases rest with
  | nil => rfl
  | cons value rest => simp [flagPairs, h]

theorem placesFrom_cons (i : Nat) :
    placesFrom i (word :: rest) = i :: placesFrom (i + 1) rest := by
  cases rest with
  | nil => rfl
  | cons value rest => simp [placesFrom, h]

end Head

/-! ## Two lists of words -/

/-- `positionalFrom` goes on with the second list where it has used up the
first. -/
theorem positionalFrom_append (xs ys : List String) (h : dangles xs = false) :
    positionalFrom (xs ++ ys) = positionalFrom xs ++ positionalFrom ys := by
  fun_induction dangles xs with
  | case1 => rfl
  | case2 word => exact positionalFrom_cons h ys
  | case3 word value rest hf ih => simp [positionalFrom, hf, ih h]
  | case4 word value rest hf ih =>
    have hw : isFlag word = false := by simpa using hf
    rw [cons_append, positionalFrom_cons hw, positionalFrom_cons hw, ih h]
    rfl

theorem flagPairs_append (xs ys : List String) (h : dangles xs = false) :
    flagPairs (xs ++ ys) = flagPairs xs ++ flagPairs ys := by
  fun_induction dangles xs with
  | case1 => rfl
  | case2 word => exact flagPairs_cons h ys
  | case3 word value rest hf ih => simp [flagPairs, hf, ih h]
  | case4 word value rest hf ih =>
    have hw : isFlag word = false := by simpa using hf
    rw [cons_append, flagPairs_cons hw, flagPairs_cons hw, ih h]

theorem placesFrom_append (xs ys : List String) (h : dangles xs = false) :
    ∀ i, placesFrom i (xs ++ ys) =
      placesFrom i xs ++ placesFrom (i + xs.length) ys := by
  fun_induction dangles xs with
  | case1 => intro i; rfl
  | case2 word => intro i; exact placesFrom_cons h ys i
  | case3 word value rest hf ih =>
    intro i
    simp only [cons_append, placesFrom, hf, if_true, ih h, length_cons]
    congr 2
    omega
  | case4 word value rest hf ih =>
    intro i
    have hw : isFlag word = false := by simpa using hf
    rw [cons_append, placesFrom_cons hw, placesFrom_cons hw, ih h,
      length_cons (a := word)]
    simp only [cons_append, length_cons]
    congr 3
    omega

theorem length_placesFrom (words : List String) :
    ∀ i, (placesFrom i words).length = (positionalFrom words).length := by
  fun_induction positionalFrom words with
  | case1 => intro i; rfl
  | case2 word => intro i; rfl
  | case3 word value rest hf ih => intro i; simp [placesFrom, hf, ih]
  | case4 word value rest hf ih => intro i; simp [placesFrom, hf, ih]

/-- `sizeFrom` leaves no word over. -/
theorem sizeFrom_eq (words : List String) : sizeFrom words = words.length := by
  fun_induction sizeFrom words with
  | case1 => rfl
  | case2 word => rfl
  | case3 word value rest hf ih => simp [ih]
  | case4 word value rest hf ih => simp [ih]

theorem consumed_cons (word : String) (rest : List String) :
    consumed (word :: rest) = rest.length + 1 := by
  simp [consumed, sizeFrom_eq]

/-! ## Arguments -/

/-- `collect` sets the flags in order and keeps the positional words in
order. -/
theorem collect_eq (words : List String) :
    ∀ (args : Args) (found : List String),
      collect words args found = (setFlags args (flagPairs words),
        found.reverse ++ positionalFrom words) := by
  fun_induction flagPairs words with
  | case1 => intro args found; simp [collect, setFlags, positionalFrom]
  | case2 word => intro args found; simp [collect, setFlags, positionalFrom]
  | case3 word value rest hf ih =>
    intro args found; simp [collect, hf, ih, setFlags, positionalFrom]
  | case4 word value rest hf ih =>
    intro args found; simp [collect, hf, ih, positionalFrom]

/-- `argsOf` gives the flags of a command line and, unless a flag takes their
place, its positional words. -/
theorem argsOf_cons (command : String) (words : List String) :
    argsOf (command :: words) =
      if (positionalFrom words).isEmpty || ((flagArgs words).get? "str").isSome
        then flagArgs words
      else (flagArgs words).set "str"
          (.text (" ".intercalate (positionalFrom words))) := by
  simp [argsOf, collect_eq, flagArgs]

/-- A word at the end of a command line is positional, whatever it looks like:
the flags are those of the words before it, and unless one of them is named
`str` the positional words end with it. -/
theorem argsOf_snoc (command last : String) (words : List String)
    (h : dangles words = false) :
    argsOf (command :: (words ++ [last])) =
      if ((flagArgs words).get? "str").isSome then flagArgs words
      else flagArgs words ++ [("str",
          .text (" ".intercalate (positionalFrom words ++ [last])))] := by
  have hp : positionalFrom (words ++ [last]) = positionalFrom words ++ [last] :=
    positionalFrom_append words [last] h
  have hf : flagArgs (words ++ [last]) = flagArgs words := by
    rw [flagArgs, flagPairs_append words [last] h]
    simp [flagPairs, flagArgs]
  rw [argsOf_cons, hp, hf]
  by_cases hs : ((flagArgs words).get? "str").isSome
  · simp [hs]
  · have hn : (flagArgs words).get? "str" = none := by simpa using hs
    simp [hs, Args.set_of_get?_none _ _ _ hn]

end Shell

end TaskShell

import TaskShell.Shell.Alias

/-!
# Aliases that are replaced

An alias at the start of a line is replaced by its expansion, and the words
behind it follow, joined by blanks. The new line is split again, by whatever
quotes the expansion and the words happen to have, so that the next alias can be
any text. Nothing about the line gets smaller; replacing comes to an end because
it is counted.

Before anything is replaced a line is looked at once: if it is all blanks it is
left alone. There are more blanks than characters that separate words, so such a
line may have a first word, and that may even be an alias.
-/

namespace TaskShell.Shell

open Text Words

variable {aliases : List (String × String)} {line line' line'' : String}

/-! ## One step -/

/-- The line `line'` is `line` with the alias at its start replaced by its
expansion. -/
def Replaces (aliases : List (String × String)) (line line' : String) : Prop :=
  ∃ first rest expansion, splitOrBlanks line = first :: rest ∧
    aliases.lookup first = some expansion ∧
    line' = " ".intercalate (expansion :: rest)

def Unaliased (aliases : List (String × String)) (line : String) : Prop :=
  ∀ first, (splitOrBlanks line).head? = some first → aliases.lookup first = none

theorem intercalate_cons (word : String) (rest : List String) :
    " ".intercalate (word :: rest) = if rest.isEmpty then word
      else word ++ " " ++ " ".intercalate rest := by
  cases rest with
  | nil => exact String.intercalate_singleton
  | cons next rest => exact String.intercalate_cons_cons

theorem expandAliasOnce_of_words {first : String} {rest : List String}
    (h : splitOrBlanks line = first :: rest) :
    expandAliasOnce aliases line =
      (aliases.lookup first).map fun expansion =>
        " ".intercalate (expansion :: rest) := by
  unfold expandAliasOnce
  rw [h]
  dsimp only
  simp only [intercalate_cons]

/-- **`expandAliasOnce` replaces the alias at the start of a line.** -/
theorem replaces_iff : expandAliasOnce aliases line = some line' ↔
    Replaces aliases line line' := by
  constructor
  · intro h
    cases hwords : splitOrBlanks line with
    | nil =>
      rw [expandAliasOnce, hwords] at h
      cases h
    | cons first rest =>
      rw [expandAliasOnce_of_words hwords] at h
      obtain ⟨expansion, hlookup, rfl⟩ := Option.map_eq_some_iff.1 h
      exact ⟨first, rest, expansion, hwords, hlookup, rfl⟩
  · rintro ⟨first, rest, expansion, hwords, hlookup, rfl⟩
    rw [expandAliasOnce_of_words hwords, hlookup]
    rfl

theorem expandAliasOnce_eq_none_iff :
    expandAliasOnce aliases line = none ↔ Unaliased aliases line := by
  unfold Unaliased
  cases hwords : splitOrBlanks line with
  | nil =>
    rw [expandAliasOnce, hwords]
    exact iff_of_true rfl fun _ h => by cases h
  | cons first rest =>
    rw [expandAliasOnce_of_words hwords, Option.map_eq_none_iff]
    constructor
    · rintro h _ ⟨⟩
      exact h
    · exact fun h => h first rfl

theorem Replaces.unique (h : Replaces aliases line line')
    (h' : Replaces aliases line line'') : line' = line'' :=
  Option.some.inj ((replaces_iff.2 h).symm.trans (replaces_iff.2 h'))

theorem Unaliased.not_replaces (h : Unaliased aliases line) :
    ¬ Replaces aliases line line' := by
  intro hstep
  have hsome := replaces_iff.2 hstep
  rw [expandAliasOnce_eq_none_iff.2 h] at hsome
  cases hsome

/-! ## Counted steps -/

/-- The line `line'` comes from `line` by replacing the alias at the start so
many times. -/
inductive ReplacesTimes (aliases : List (String × String)) : Nat →
    String → String → Prop
  | none (line : String) : ReplacesTimes aliases 0 line line
  | step {n : Nat} {line line' line'' : String}
      (h : Replaces aliases line line')
      (more : ReplacesTimes aliases n line' line'') :
        ReplacesTimes aliases (n + 1) line line''

theorem Unaliased.eq_of_replacesTimes {n : Nat} (h : Unaliased aliases line)
    (htimes : ReplacesTimes aliases n line line') :
    line' = line := by
  cases htimes with
  | none => rfl
  | step hstep _ => exact absurd hstep h.not_replaces

/-- A line that is `Unaliased` stays as it is, however often aliases may be
replaced. -/
theorem expandAliasesAtMost_of_unaliased (h : Unaliased aliases line)
    (n : Nat) : expandAliasesAtMost aliases n line = line := by
  cases n with
  | zero => rfl
  | succ n => rw [expandAliasesAtMost, expandAliasOnce_eq_none_iff.2 h]

/-- **`expandAliasesAtMost`** replaces aliases as often as it may, or until the
line does not start with one. -/
theorem expandAliasesAtMost_spec (n : Nat) : ∀ line : String,
    ∃ k ≤ n, ReplacesTimes aliases k line (expandAliasesAtMost aliases n line) ∧
      (k < n → Unaliased aliases (expandAliasesAtMost aliases n line)) := by
  induction n with
  | zero => exact fun line =>
      ⟨0, Nat.le_refl 0, .none line, fun h => absurd h (Nat.lt_irrefl 0)⟩
  | succ n ih =>
    intro line
    cases honce : expandAliasOnce aliases line with
    | none =>
      have hunaliased := expandAliasOnce_eq_none_iff.1 honce
      rw [expandAliasesAtMost_of_unaliased hunaliased]
      exact ⟨0, Nat.zero_le _, .none line, fun _ => hunaliased⟩
    | some line' =>
      have hsame : expandAliasesAtMost aliases (n + 1) line =
          expandAliasesAtMost aliases n line' := by
        rw [expandAliasesAtMost, honce]
      obtain ⟨k, hk, htimes, hend⟩ := ih line'
      rw [hsame]
      exact ⟨k + 1, Nat.succ_le_succ hk, .step (replaces_iff.1 honce) htimes,
        fun h => hend (Nat.lt_of_succ_lt_succ h)⟩

/-! ## Lines as they are typed -/

theorem expandAliases_of_blank (h : line.toList.all isBlank) (depth : Int) :
    expandAliases aliases depth line = line := by
  rw [expandAliases, if_pos h]

theorem expandAliases_of_not_blank (h : ¬ line.toList.all isBlank)
    (depth : Int) :
    expandAliases aliases depth line =
      expandAliasesAtMost aliases depth.toNat line := by
  rw [expandAliases, if_neg h]

theorem expandAliases_of_unaliased (h : Unaliased aliases line) (depth : Int) :
    expandAliases aliases depth line = line := by
  by_cases hblank : line.toList.all isBlank
  · exact expandAliases_of_blank hblank depth
  · rw [expandAliases_of_not_blank hblank, expandAliasesAtMost_of_unaliased h]

/-- **Expansion is a counted iteration.** Whatever the aliases are, a line
becomes what so many replacements make of it, and these are no more than
`depth`. If they are fewer, then the line was all blanks and stays as it is, or
the result does not start with an alias; in both cases another expansion leaves
the result alone. A line that does not start with an alias stays as it is. -/
theorem expandAliases_iterates (aliases : List (String × String))
    (line : String) (depth : Nat) :
    (∃ k ≤ depth,
      ReplacesTimes aliases k line (expandAliases aliases depth line) ∧
      (k < depth →
        (k = 0 ∧ line.toList.all isBlank ∨
          Unaliased aliases (expandAliases aliases depth line)) ∧
          ∀ again : Int, expandAliases aliases again (expandAliases aliases
            depth line) = expandAliases aliases depth line)) ∧
    (Unaliased aliases line → expandAliases aliases depth line = line) := by
  refine ⟨?_, fun h => expandAliases_of_unaliased h depth⟩
  by_cases hblank : line.toList.all isBlank
  · rw [expandAliases_of_blank hblank]
    exact ⟨0, Nat.zero_le _, .none line,
      fun _ => ⟨.inl ⟨rfl, hblank⟩, expandAliases_of_blank hblank⟩⟩
  · rw [expandAliases_of_not_blank hblank, Int.toNat_natCast]
    obtain ⟨k, hk, htimes, hend⟩ := @expandAliasesAtMost_spec aliases depth line
    exact ⟨k, hk, htimes,
      fun h => ⟨.inr (hend h), expandAliases_of_unaliased (hend h)⟩⟩

/-- A blank that separates no words may be an alias. A line of this blank is not
expanded, though its first word is an alias and nothing has been replaced. -/
theorem blank_alias_not_replaced :
    expandAliases [("\u00a0", "x")] 5 "\u00a0" = "\u00a0" ∧
      ¬ ∃ k ≤ 5, ReplacesTimes [("\u00a0", "x")] k "\u00a0"
        (expandAliases [("\u00a0", "x")] 5 "\u00a0") ∧
        (k < 5 → Unaliased [("\u00a0", "x")]
          (expandAliases [("\u00a0", "x")] 5 "\u00a0")) := by
  have hsame : expandAliases [("\u00a0", "x")] 5 "\u00a0" = "\u00a0" :=
    expandAliases_of_blank (by rfl) 5
  have hstep : Replaces [("\u00a0", "x")] "\u00a0" "x" :=
    ⟨"\u00a0", [], "x", by rfl, by rfl, by rfl⟩
  have hend : Unaliased [("\u00a0", "x")] "x" :=
    expandAliasOnce_eq_none_iff.1 (by rfl)
  rw [hsame]
  refine ⟨rfl, ?_⟩
  rintro ⟨k, -, htimes, hunaliased⟩
  cases htimes with
  | none => exact (hunaliased (by decide)).not_replaces hstep
  | step h more =>
    -- the blank becomes the letter, and the letter stays
    rw [← hstep.unique h] at more
    exact absurd (hend.eq_of_replacesTimes more) (by decide)

end TaskShell.Shell

import TaskShell.Proofs.Arguments
import TaskShell.Proofs.Delegation
import TaskShell.Proofs.Variables

/-!
# Defining an alias

An alias is defined by a line `alias NAME='EXPANSION'`. The line is split into
two words, and the quotes are gone then. The second word is not taken for a
command, since no command has an equals sign, and not for a flag, since it
starts with the name. It is cut at its first equals sign, which is not in the
name, and the rest is trimmed twice: of blanks, and of quotes of both kinds. So
the expansion is stored as it is written, with any equals signs, quotes,
backslashes and flags it has inside, as long as no quote stands at one of its
ends.

The word `alias` is itself subject to aliases.
-/

namespace TaskShell

open List

theorem Env.set_of_get?_eq_none {env : Env} {name : String}
    (h : env.get? name = none) (value : String) :
    env.set name value = env ++ [(name, value)] := by
  induction env with
  | nil => rfl
  | cons entry rest ih =>
    obtain ⟨k, old⟩ := entry
    rw [Env.get?_cons] at h
    split at h
    · cases h
    · next hk =>
      have hk' : ¬ (k == name) := by
        rw [beq_iff_eq]
        exact fun heq => hk heq.symm
      rw [Env.set, if_neg hk', ih h]
      rfl

namespace Shell

open Act Text Words

/-! ## The words of a definition -/

def definition (name expansion : String) : String :=
  "alias " ++ name ++ "='" ++ expansion ++ "'"

def IsName (name : String) : Prop :=
  name ≠ "" ∧ ∀ c ∈ name.toList, isWordChar c = true

theorem isPlain_of_isWordChar {c : Char} (h : isWordChar c = true) :
    isPlain c = true := by
  have hmarks : [' ', '\t', '\r', '\n', '\'', '"', '\\'].all
      (fun d => !isWordChar d) = true := by decide
  have hne : ∀ d ∈ [' ', '\t', '\r', '\n', '\'', '"', '\\'], c ≠ d := by
    rintro d hd rfl
    have hd' := all_eq_true.1 hmarks c hd
    rw [h] at hd'
    cases hd'
  simp only [forall_mem_cons] at hne
  simp [isPlain_iff, isSeparator, isQuote, hne]

theorem toList_definition (name expansion : String) :
    (definition name expansion).toList = "alias ".toList ++
      (name.toList ++ '=' :: '\'' :: (expansion.toList ++ ['\''])) := by
  simp [definition]

/-- **A `definition` has two words.** -/
theorem split_definition {name expansion : String} (hname : IsName name)
    (hquote : '\'' ∉ expansion.toList) :
    split (definition name expansion) =
      .ok ["alias", name ++ "=" ++ expansion] := by
  have hbare : Bare (name.toList ++ ['=']) := by
    refine ⟨by simp, forall_mem_append.2 ⟨fun c hc =>
      isPlain_of_isWordChar (hname.2 c hc), ?_⟩⟩
    exact forall_mem_singleton.2 (by decide)
  have hline : definition name expansion =
      "alias" ++ " " ++ (name ++ "='" ++ expansion ++ "'") := by
    rw [← String.toList_inj, toList_definition]
    simp
  have hsecond : split (name ++ "='" ++ expansion ++ "'") =
      .ok [name ++ "=" ++ expansion] := by
    have htext : (name ++ "='" ++ expansion ++ "'").toList =
        (name.toList ++ ['=']) ++ '\'' :: (expansion.toList ++ ['\'']) := by
      simp
    rw [split_eq, htext, run_of_bare hbare, run_of_advance rfl,
      run_kept fun c hc => advance_quoted fun heq => hquote (heq ▸ hc),
      run_of_advance rfl]
    refine congrArg (fun w => Except.ok [w]) ?_
    rw [← String.toList_inj, toList_assignment]
    simp
  have halias : split "alias" = .ok ["alias"] := by rfl
  rw [hline, split_append_blank halias, hsecond]
  rfl

/-! ## A builtin with an assignment -/

theorem isKnown_of_equals {word : String} (h : '=' ∈ word.toList) :
    isKnown word = false := by
  have hnames : (Command.table.map (·.1) ++ builtinNames).all (fun name =>
      !name.toList.contains '=') = true := by
    decide
  rw [← Bool.not_eq_true]
  intro hknown
  have hword := all_eq_true.1 hnames word (mem_table_of_isKnown hknown)
  rw [contains_iff_mem.2 h] at hword
  cases hword

theorem not_toggles_of_equals {line : String} (h : '=' ∈ line.toList) :
    ¬ Toggles line := by
  have hlower : '=' ∈ (lower (trim line)).toList :=
    mem_lower (by decide) (by rfl) (mem_trim (by decide) h)
  have hlines : ∀ toggle ∈ quietLines ++ loudLines,
      '=' ∉ toggle.toList := by decide
  exact fun htoggles => hlines _ htoggles hlower

def showAny (out : Value) : Act Unit :=
  if out.isTruthy then showResult out "sync" false else pure ⟨⟩

theorem prints_showAny (out : Value) : Prints (showAny out) := by
  unfold showAny
  split
  · exact prints_showResult _ _ _
  · exact prints_pure

/-- A builtin with one word that has an equals sign is run with this word. -/
theorem postExpanded_builtin {line name word : String} {b : Builtin}
    (hwords : splitOrBlanks line = [name, word])
    (hequals : '=' ∈ word.toList) (hname : Builtin.ofName? name = some b)
    (hmark : name.toList.head? ≠ some '!') :
    postExpanded line =
      runBuiltin name b [("str", .text word)] >>= fun out => showAny out >>=
        fun _ => pure .nothing := by
  have hline : '=' ∈ line.toList :=
    mem_of_mem_splitOrBlanks (by rw [hwords]; simp) hequals
  have hlink : ∀ other ∈ positionals [name, word],
      isLink (some line) other = false := by
    intro other hother
    obtain rfl : other = word := mem_singleton.1 hother
    rw [isLink, isKnown_of_equals hequals]
    rfl
  have hcomposed : runComposed name [name, word] (some line) = pure none := by
    unfold runComposed
    rw [(no_chain hlink).1]
  have hargs : argsOf [name, word] = [("str", .text word)] := by
    show Args.set [] "str" (.text (" ".intercalate [word])) = _
    rw [String.intercalate_singleton]
    rfl
  rw [postExpanded_of_words (not_toggles_of_equals hline) hwords,
    ne_of_not_mark hmark (by decide), ne_of_not_mark hmark (by decide),
    ne_of_not_mark hmark (by decide), ne_of_not_mark hmark (by decide),
    if_neg (by decide), if_neg (by decide), if_neg (by decide), postOne,
    hcomposed, pure_bind]
  dsimp only
  rw [callBuiltin_of_some hname, hargs, bind_assoc]
  refine bind_congr fun out => ?_
  rw [pure_bind]
  dsimp only
  unfold showAny
  split
  · rfl
  · rw [pure_bind]

/-! ## What a definition does -/

theorem equals_mem_assignment (name value : String) :
    '=' ∈ (name ++ "=" ++ value).toList := by
  rw [toList_assignment]
  simp

section Definitions

variable {name expansion stored : String} (hname : IsName name)
include hname

theorem IsName.trim_eq : trim name = name := by
  refine trim_eq_self_iff.2 ⟨fun c hc => ?_, fun c hc => ?_⟩
  · exact isBlank_of_isWordChar (hname.2 c (mem_of_mem_head? hc))
  · exact isBlank_of_isWordChar (hname.2 c (mem_of_getLast? hc))

private theorem aliasDefinition_eq (expansion : String) :
    aliasDefinition (.text (name ++ "=" ++ expansion)) =
    pure (name, trimOf ['\'', '"'] (trim expansion)) := by
  have hequals : '=' ∉ name.toList := not_mem_of_isWordChar hname.2 (by decide)
  unfold aliasDefinition
  dsimp only
  rw [toList_assignment, splitOnce?_append hequals]
  dsimp only
  rw [String.ofList_toList, String.ofList_toList, hname.trim_eq]

/-- What `aliasBuiltin` gives and leaves behind: it sets the alias, unless
nothing is left of the expansion. -/
theorem aliasBuiltin_eq
    (hstored : trimOf ['\'', '"'] (trim expansion) = stored) (w : World) :
    aliasBuiltin [("str", .text (name ++ "=" ++ expansion))] w =
      if stored = "" then (.ok (.text "invalid alias"), w)
      else (.ok (.text ""),
          { w with aliases := setAlias w.aliases name stored }) := by
  have htruthy : (Value.text (name ++ "=" ++ expansion)).isTruthy = true := by
    simp [Value.isTruthy]
  have hgiven : Args.givenOr [("str", .text (name ++ "=" ++ expansion))] "str"
      (.text "") = .text (name ++ "=" ++ expansion) := by
    simp [Args.givenOr, Args.get?, htruthy]
  have hlift : (liftM (pure (name, stored) : Job (String × String)) :
      Act (String × String)) w = (.ok (name, stored), w) := rfl
  have hempty : (name.isEmpty || stored.isEmpty) = stored.isEmpty := by
    simp [hname.1]
  unfold aliasBuiltin
  dsimp only
  rw [hgiven, htruthy, if_neg (by decide), aliasDefinition_eq hname, hstored]
  by_cases hnone : stored = ""
  · rw [if_pos hnone]
    refine bind_of_ok (a := "invalid alias") (orElse_of_ok ?_)
    rw [bind_of_ok hlift]
    dsimp only
    rw [hempty, hnone, if_pos (by decide)]
    rfl
  · rw [if_neg hnone]
    refine bind_of_ok (a := "") (orElse_of_ok ?_)
    rw [bind_of_ok hlift]
    dsimp only
    rw [hempty, if_neg (by simpa using hnone)]
    rfl

end Definitions

theorem definition_not_blank (name expansion : String) :
    ¬ (definition name expansion).toList.all isBlank := by
  rw [toList_definition, all_append, Bool.and_eq_true]
  exact fun h => absurd h.1 (by decide)

/-- **What a `definition` does**, whatever the expansion is trimmed to. -/
theorem dispatch_definition {w : World} {name expansion stored : String}
    (hname : IsName name)
    (hquote : '\'' ∉ expansion.toList)
    (hstored : trimOf ['\'', '"'] (trim expansion) = stored)
    (hfree : w.aliases.lookup "alias" = none) :
    ∃ calls, (stored ≠ "" → dispatch (definition name expansion) w =
        (.ok ⟨⟩, { w with
          aliases := setAlias w.aliases name stored, calls := calls })) ∧
      (stored = "" → ∃ out, dispatch (definition name expansion) w =
        (.ok ⟨⟩, { w with out := out, calls := calls })) := by
  have hwords := splitOrBlanks_of_split (split_definition hname hquote)
  have hunaliased : Unaliased w.aliases (definition name expansion) := by
    intro first hfirst
    rw [hwords] at hfirst
    cases hfirst
    exact hfree
  have hpost :
    post (definition name expansion) w = (runBuiltin "alias" .defineAlias
      [("str", .text (name ++ "=" ++ expansion))] >>= fun out => showAny out >>=
        fun _ => pure .nothing) w := by
    rw [post_of_expandedIn (expandAliases_of_unaliased hunaliased _)
      (definition_not_blank name expansion),
      postExpanded_builtin hwords (equals_mem_assignment name expansion)
        (by rfl) (by decide)]
  have hrun : runBuiltin "alias" .defineAlias
      [("str", .text (name ++ "=" ++ expansion))] w = _ :=
    aliasBuiltin_eq hname hstored _
  refine ⟨w.calls ++
    [⟨true, "alias", .record [("str", .text (name ++ "=" ++ expansion))]⟩],
    fun hne => ?_, fun hnone => ?_⟩
  · rw [if_neg hne] at hrun
    rw [bind_of_ok hrun] at hpost
    unfold dispatch
    rw [bind_of_ok hpost]
    rfl
  · rw [if_pos hnone] at hrun
    obtain ⟨out, hshow⟩ := prints_showAny (.text "invalid alias")
      { w with calls := w.calls ++
        [⟨true, "alias", .record [("str", .text (name ++ "=" ++ expansion))]⟩] }
    rw [bind_of_ok hrun, bind_of_ok hshow] at hpost
    unfold dispatch
    rw [bind_of_ok hpost]
    exact ⟨out, rfl⟩

/-! ## Expansions that are stored as they are written -/

/-- An expansion that can be written between single quotes and has no blanks at
its ends. -/
structure Definable (expansion : String) : Prop where
  nonempty : expansion ≠ ""
  trimmed : trim expansion = expansion
  noQuote : '\'' ∉ expansion.toList

def unquoted (expansion : String) : String := trimOf ['\'', '"'] expansion

section Definable

variable {expansion : String} (h : Definable expansion)
include h

theorem Definable.stored :
    trimOf ['\'', '"'] (trim expansion) = unquoted expansion := by
  rw [h.trimmed, unquoted]

/-- A `Definable` expansion is left as it is if and only if it has no double
quote at an end; single ones it has none. -/
theorem Definable.unquoted_eq_self_iff : unquoted expansion = expansion ↔
    expansion.toList.head? ≠ some '"' ∧
    expansion.toList.getLast? ≠ some '"' := by
  have hend : ∀ c ∈ expansion.toList, ['\'', '"'].contains c = false ↔
      some c ≠ some '"' := by
    intro c hc
    have hsingle : c ≠ '\'' := fun heq => h.noQuote (heq ▸ hc)
    simp [hsingle]
  rw [← String.toList_inj, unquoted, trimOf, String.toList_ofList,
    trimBy_eq_self_iff]
  refine and_congr ⟨fun hends hc => ?_, fun hne c hc => ?_⟩ ⟨fun hends hc => ?_,
    fun hne c hc => ?_⟩
  · exact (hend _ (List.mem_of_mem_head? hc)).1 (hends _ hc) rfl
  · exact (hend c (List.mem_of_mem_head? hc)).2 (hc ▸ hne)
  · exact (hend _ (List.mem_of_getLast? hc)).1 (hends _ hc) rfl
  · exact (hend c (List.mem_of_getLast? hc)).2 (hc ▸ hne)

end Definable

/-- **Which expansions are stored as they are written.** In any state of a
session in which neither `alias` nor the name is an alias, a definition stores
the expansion without the double quotes at its ends, if anything is left of it,
and changes nothing else; the name then stands for the expansion as it was
written, with all other aliases as they were, if and only if there was no double
quote at either end. -/
theorem alias_stored_iff {w : World} {name expansion : String}
    (hname : IsName name) (hexpansion : Definable expansion)
    (hfree : w.aliases.lookup "alias" = none)
    (hnew : w.aliases.lookup name = none) :
    ((dispatch (definition name expansion) w).2.aliases.lookup name =
      some expansion ∧
      (∀ other, other ≠ name →
        (dispatch (definition name expansion) w).2.aliases.lookup other =
          w.aliases.lookup other) ↔
      expansion.toList.head? ≠ some '"' ∧
      expansion.toList.getLast? ≠ some '"') ∧
    ∃ calls,
      (unquoted expansion ≠ "" → dispatch (definition name expansion) w =
        (.ok ⟨⟩, { w with
          aliases := w.aliases ++ [(name, unquoted expansion)],
          calls := calls })) ∧
      (unquoted expansion = "" → ∃ out, dispatch (definition name expansion) w =
        (.ok ⟨⟩, { w with out := out, calls := calls })) := by
  obtain ⟨calls, hsome, hnone⟩ :=
    dispatch_definition hname hexpansion.noQuote hexpansion.stored hfree
  rw [← hexpansion.unquoted_eq_self_iff]
  refine ⟨?_, calls, ?_, hnone⟩
  · by_cases hempty : unquoted expansion = ""
    · obtain ⟨out, hrun⟩ := hnone hempty
      refine iff_of_false ?_ ?_
      · rintro ⟨hlookup, -⟩
        rw [hrun] at hlookup
        cases hnew.symm.trans hlookup
      · rw [hempty]
        exact hexpansion.nonempty.symm
    · have hself := Env.get?_set_self w.aliases name (unquoted expansion)
      rw [hsome hempty]
      constructor
      · rintro ⟨hlookup, -⟩
        exact Option.some.inj (hself.symm.trans hlookup)
      · intro hsame
        exact ⟨hself.trans (congrArg some hsame),
          fun other hother => Env.get?_set_of_ne hother w.aliases _⟩
  · intro hne
    rw [hsome hne, setAlias, Env.set_of_get?_eq_none hnew]

theorem isName_of_all {name : String}
    (h : (!name.isEmpty && name.toList.all isWordChar) = true) :
    IsName name := by
  simpa [IsName] using h

/-- A name with letters beyond ASCII, and an expansion with a flag, equals
signs, double quotes, a backslash and the name of a command. -/
theorem alias_stored_iff_marks :
    IsName "größe_2" ∧ Definable "echo --x=\"a = b\" \\ alias" ∧
      (dispatch (definition "größe_2" "echo --x=\"a = b\" \\ alias")
        { (default : World) with aliases := [("x", "y")] }).2.aliases.lookup
          "größe_2" = some "echo --x=\"a = b\" \\ alias" := by
  have hname : IsName "größe_2" := isName_of_all (by decide)
  have hexpansion : Definable "echo --x=\"a = b\" \\ alias" :=
    ⟨by decide, by rfl, by decide⟩
  have hstored := (@alias_stored_iff
    { (default : World) with aliases := [("x", "y")] } _ _ hname hexpansion
    (by rfl) (by rfl)).1.2 ⟨by decide, by decide⟩
  exact ⟨hname, hexpansion, hstored.1⟩

/-! ## A definition that is another line -/

private theorem bare_assignment {name value : String} (hname : IsName name)
    (hvalue : Bare value.toList) :
    Bare (name ++ "=" ++ value).toList := by
  rw [toList_assignment]
  refine ⟨by simp,
    forall_mem_append.2 ⟨fun c hc => isPlain_of_isWordChar (hname.2 c hc), ?_⟩⟩
  exact forall_mem_cons.2 ⟨by decide, hvalue.2⟩

/-- If `alias` stands for `echo`, a definition is a line to be shown and defines
nothing. -/
theorem aliases_of_shadowed {w : World} {name expansion : String}
    (hname : IsName name) (hexpansion : Bare expansion.toList)
    (hshadow : w.aliases.lookup "alias" = some "echo")
    (hecho : w.aliases.lookup "echo" = none) :
    (dispatch (definition name expansion) w).2.aliases = w.aliases := by
  obtain ⟨word, hword⟩ : ∃ word, name ++ "=" ++ expansion = word := ⟨_, rfl⟩
  have hequals : '=' ∈ word.toList :=
    hword ▸ equals_mem_assignment name expansion
  have hquote : '\'' ∉ expansion.toList :=
    fun h => absurd (hexpansion.2 _ h) (by decide)
  have hsplit : split (definition name expansion) = .ok ["alias", word] :=
    hword ▸ split_definition hname hquote
  have hwords : splitOrBlanks (" ".intercalate ["echo", word]) =
      ["echo", word] := by
    refine splitOrBlanks_of_split ((split_intercalate_iff _).2 ?_)
    simp only [forall_mem_cons]
    exact ⟨by decide, hword ▸ bare_assignment hname hexpansion, by simp⟩
  have hend : Unaliased w.aliases (" ".intercalate ["echo", word]) := by
    intro first hfirst
    rw [hwords] at hfirst
    cases hfirst
    exact hecho
  have hexpanded : expandedIn w (definition name expansion) =
      " ".intercalate ["echo", word] :=
    expandAliases_of_split (by decide) (definition_not_blank name expansion)
      hsplit hshadow hend
  have hask : ∀ u : World, runBuiltin "echo" .echo [("str", .text word)] u =
      (.ok (.text (expand u.env word)),
        { (ask "echo" .echo word u).2 with aliases := u.aliases }) :=
    fun u => Prod.ext (ask_echo word u) rfl
  -- what is told and what is shown change the output only
  obtain ⟨told, htold⟩ := prints_tellExpansion w (definition name expansion) w
  obtain ⟨shown, hshown⟩ := prints_showAny (.text (expand w.env word))
    { (ask "echo" .echo word { w with out := told }).2
      with aliases := w.aliases }
  have hpost : post (definition name expansion) w = (.ok .nothing,
      { (ask "echo" .echo word { w with out := told }).2
        with aliases := w.aliases, out := shown }) := by
    rw [post_eq _ (definition_not_blank name expansion), get_bind_apply,
      bind_of_ok htold, hexpanded, postExpanded_builtin hwords hequals (by rfl)
      (by decide), bind_of_ok (hask _), bind_of_ok hshown]
    rfl
  unfold dispatch
  rw [bind_of_ok hpost]
  rfl

/-- Two ways in which a definition is not stored as it is written. A double
quote at the end of the expansion is trimmed, though it belongs to a pair. If
`alias` stands for `echo`, the line is another one. -/
theorem alias_not_stored :
    (dispatch (definition "q" "echo \"a b\"") default).2.aliases =
      [("q", "echo \"a b")] ∧
      (dispatch (definition "n" "e")
        (runLines [definition "alias" "echo"] default).2).2.aliases =
        [("alias", "echo")] := by
  constructor
  · have hname : IsName "q" := isName_of_all (by decide)
    have hquote : '\'' ∉ "echo \"a b\"".toList := by decide
    obtain ⟨calls, hrun, -⟩ :=
      dispatch_definition (w := default) hname hquote rfl rfl
    rw [hrun (by decide)]
    rfl
  · have haliases : (runLines [definition "alias" "echo"] default).2.aliases =
        [("alias", "echo")] := by
      have hname : IsName "alias" := isName_of_all (by decide)
      have hquote : '\'' ∉ "echo".toList := by decide
      obtain ⟨calls, hrun, -⟩ :=
        dispatch_definition (w := default) hname hquote rfl rfl
      show (dispatch (definition "alias" "echo") default).2.aliases = _
      rw [hrun (by decide)]
      rfl
    have hname : IsName "n" := isName_of_all (by decide)
    rw [aliases_of_shadowed hname (by decide) (by rw [haliases]; rfl)
      (by rw [haliases]; rfl), haliases]

end Shell

end TaskShell

import TaskShell.Proofs.Scan
import TaskShell.Proofs.Variables

/-!
# Expanding joined words

Expansion scans a text from the left for references. Which references it finds
depends on the text alone, and what it puts in their place is never looked at
again. So a text falls into pieces, characters that stay and references, before
any value is known, and expanding it means to write out the pieces one after the
other.

No reference reaches over a blank: a name is made of word characters, and the
marks around it are no blanks either. The pieces of joined words are therefore
the pieces of each word with blanks between them, however a word ends.
-/

namespace TaskShell

open Text List

namespace Text

theorem afterStart?_append_blank {pat : List Char} (hpat : ' ' ∉ pat)
    (cs more : List Char) :
    afterStart? pat (cs ++ ' ' :: more) =
      (afterStart? pat cs).map (· ++ ' ' :: more) := by
  induction pat generalizing cs with
  | nil => rfl
  | cons p pat ih =>
    have hp : ¬ p = ' ' := fun h => hpat (by simp [h])
    have hrest : ' ' ∉ pat := fun h => hpat (mem_cons_of_mem _ h)
    cases cs with
    | nil => simp [afterStart?, hp]
    | cons c cs =>
      by_cases hpc : p = c
      · simpa [afterStart?, hpc] using ih hrest cs
      · simp [afterStart?, hpc]

theorem eq_append_of_afterStart? {pat cs rest : List Char}
    (h : afterStart? pat cs = some rest) : cs = pat ++ rest := by
  induction pat generalizing cs with
  | nil => exact Option.some.inj h
  | cons p pat ih =>
    cases cs with
    | nil => cases h
    | cons c cs =>
      by_cases hpc : p = c
      · subst hpc
        rw [cons_append, ← ih (by simpa [afterStart?] using h)]
      · simp [afterStart?, hpc] at h

end Text

namespace Shell

/-! ## Names and references -/

theorem nameAt?_append_blank (cs more : List Char) :
    nameAt? (cs ++ ' ' :: more) = nameAt? cs := by
  have hblank : isWordChar ' ' = false := by decide
  cases cs with
  | nil => rfl
  | cons c cs =>
    have hname : (cs ++ ' ' :: more).takeWhile isWordChar =
        cs.takeWhile isWordChar := by
      rw [takeWhile_append]
      split
      · next hall =>
        rw [takeWhile_cons, hblank, if_neg (by decide), append_nil]
        exact (( takeWhile_prefix _).eq_of_length hall).symm
      · rfl
    rw [cons_append, nameAt?, nameAt?, hname]

/-- `nameAt?` finds a name at the start of the text, and it is the name of a
variable. -/
theorem nameAt?_spec {cs name : List Char} (h : nameAt? cs = some name) :
    name <+: cs ∧ IsVariable (String.ofList name) := by
  cases cs with
  | nil => cases h
  | cons c cs =>
    rw [nameAt?] at h
    split at h
    · next hc =>
      cases h
      refine ⟨(prefix_cons_inj c).2 ( takeWhile_prefix _), c,
        cs.takeWhile isWordChar, ?_, hc, ?_⟩
      · rw [String.toList_ofList]
      · exact all_eq_true.1 all_takeWhile
    · cases h

/-! ## The three forms -/

def longAt? (cs : List Char) : Option (String × Nat) :=
  (afterStart? "env:".toList cs).bind fun rest =>
    (nameAt? rest).map fun name => (String.ofList name, name.length + 4)

def bracedAt? (cs : List Char) : Option (String × Nat) :=
  (afterStart? ['\x7b'] cs).bind fun rest =>
    (nameAt? rest).bind fun name =>
      if (rest.drop name.length).head? == some '\x7d' then
        some (String.ofList name, name.length + 2)
      else none

def shortAt? (cs : List Char) : Option (String × Nat) :=
  (nameAt? cs).map fun name => (String.ofList name, name.length)

theorem referenceAt?_eq (cs : List Char) :
    referenceAt? cs = ((longAt? cs).or (bracedAt? cs)).or (shortAt? cs) := rfl

theorem longAt?_append_blank (cs more : List Char) :
    longAt? (cs ++ ' ' :: more) = longAt? cs := by
  rw [longAt?, longAt?, afterStart?_append_blank (by decide)]
  cases afterStart? "env:".toList cs with
  | none => rfl
  | some rest =>
    simp only [Option.map_some, Option.bind_some, nameAt?_append_blank]

private theorem bracedAt?_append_blank (cs more : List Char) :
    bracedAt? (cs ++ ' ' :: more) = bracedAt? cs := by
  rw [bracedAt?, bracedAt?, afterStart?_append_blank (by decide)]
  cases afterStart? ['\x7b'] cs with
  | none => rfl
  | some rest =>
    simp only [Option.map_some, Option.bind_some, nameAt?_append_blank]
    cases hname : nameAt? rest with
    | none => rfl
    | some name =>
      obtain ⟨after, rfl⟩ := (nameAt?_spec hname).1
      rw [Option.bind_some, Option.bind_some, append_assoc,
        drop_left, drop_left]
      -- a name that runs up to the blank is not followed by a brace, and
      -- neither is one at the end
      cases after with
      | nil => rfl
      | cons c after => rfl

/-- **No reference reaches over a blank.** -/
theorem referenceAt?_append_blank (cs more : List Char) :
    referenceAt? (cs ++ ' ' :: more) = referenceAt? cs := by
  have hshort : shortAt? (cs ++ ' ' :: more) = shortAt? cs := by
    rw [shortAt?, shortAt?, nameAt?_append_blank]
  rw [referenceAt?_eq, referenceAt?_eq, longAt?_append_blank,
    bracedAt?_append_blank, hshort]

def spellings (name : String) : List (List Char) :=
  ["$env:".toList ++ name.toList, "$\x7b".toList ++ name.toList ++ ['\x7d'],
    '$' :: name.toList]

/-- The first `size` characters of a text, behind a dollar sign, are a reference
to a variable. -/
structure IsReference (cs : List Char) (name : String) (size : Nat) : Prop where
  inside : size ≤ cs.length
  named : IsVariable name
  spelled : '$' :: cs.take size ∈ spellings name

theorem IsReference.of_append {body : List Char} {name : String}
    (hname : IsVariable name)
    (hbody : '$' :: body ∈ spellings name) (after : List Char) :
    IsReference (body ++ after) name body.length := by
  refine ⟨?_, hname, ?_⟩
  · rw [length_append]
    exact Nat.le_add_right _ _
  · rwa [take_left]

section Forms

variable {cs : List Char} {name : String} {size : Nat}

theorem isReference_of_longAt? (h : longAt? cs = some (name, size)) :
    IsReference cs name size := by
  obtain ⟨rest, hrest, hfound⟩ := Option.bind_eq_some_iff.1 h
  obtain ⟨found, hname, hpair⟩ := Option.map_eq_some_iff.1 hfound
  obtain ⟨⟨after, rfl⟩, hvariable⟩ := nameAt?_spec hname
  obtain ⟨rfl, rfl⟩ := Prod.mk.inj hpair
  have hsize : found.length + 4 = ("env:".toList ++ found).length := by
    rw [length_append, Nat.add_comm]
    rfl
  rw [eq_append_of_afterStart? hrest, ← append_assoc, hsize]
  refine .of_append hvariable ?_ after
  rw [spellings, String.toList_ofList (l := found)]
  exact mem_cons_self

theorem isReference_of_bracedAt? (h : bracedAt? cs = some (name, size)) :
    IsReference cs name size := by
  obtain ⟨rest, hrest, hfound⟩ := Option.bind_eq_some_iff.1 h
  obtain ⟨found, hname, hpair⟩ := Option.bind_eq_some_iff.1 hfound
  obtain ⟨⟨after, rfl⟩, hvariable⟩ := nameAt?_spec hname
  rw [drop_left] at hpair
  split at hpair
  · next hclosed =>
    obtain ⟨after, rfl⟩ := head?_eq_some_iff.1 (eq_of_beq hclosed)
    obtain ⟨rfl, rfl⟩ := Prod.mk.inj (Option.some.inj hpair)
    have hsize :
        found.length + 2 = ('\x7b' :: found ++ ['\x7d']).length := by simp
    have htext : cs = ('\x7b' :: found ++ ['\x7d']) ++ after := by
      rw [eq_append_of_afterStart? hrest]
      simp
    rw [htext, hsize]
    refine .of_append hvariable ?_ after
    rw [spellings, String.toList_ofList (l := found)]
    exact mem_cons_of_mem _ mem_cons_self
  · cases hpair

private theorem isReference_of_shortAt? (h : shortAt? cs = some (name, size)) :
    IsReference cs name size := by
  obtain ⟨found, hname, hpair⟩ := Option.map_eq_some_iff.1 h
  obtain ⟨⟨after, rfl⟩, hvariable⟩ := nameAt?_spec hname
  obtain ⟨rfl, rfl⟩ := Prod.mk.inj hpair
  refine .of_append hvariable ?_ after
  rw [spellings, String.toList_ofList (l := found)]
  exact mem_cons_of_mem _ (mem_cons_of_mem _ mem_cons_self)

/-- `referenceAt?` finds a reference in one of the three forms. -/
theorem isReference_of_referenceAt? (h : referenceAt? cs = some (name, size)) :
    IsReference cs name size := by
  rw [referenceAt?_eq, Option.or_eq_some_iff, Option.or_eq_some_iff] at h
  rcases h with (h | ⟨-, h⟩) | ⟨-, h⟩
  · exact isReference_of_longAt? h
  · exact isReference_of_bracedAt? h
  · exact isReference_of_shortAt? h

end Forms

/-! ## Pieces of a text -/

inductive Piece where
  | plain (c : Char)
  /-- A reference to a variable, with the characters it is written in. -/
  | reference (name : String) (source : List Char)

namespace Piece

def source : Piece → List Char
  | plain c => [c]
  | reference _ cs => cs

def meaning (env : Env) : Piece → List Char
  | plain c => [c]
  | reference name _ => (env.get name).toList

def name? : Piece → Option String
  | plain _ => none
  | reference name _ => some name

end Piece

def piecesOf : List Char → List Piece
  | [] => []
  | c :: rest =>
    if c = '$' then
      match referenceAt? rest with
      | none => .plain c :: piecesOf rest
      | some (name, size) =>
        .reference name (c :: rest.take size) :: piecesOf (rest.drop size)
    else .plain c :: piecesOf rest
termination_by cs => cs.length
decreasing_by all_goals simp only [length_cons, length_drop]; omega

def references (s : String) : List String :=
  (piecesOf s.toList).filterMap Piece.name?

theorem piecesOf_nil : piecesOf [] = [] := by rw [piecesOf]

theorem piecesOf_plain {c : Char} (h : c ≠ '$') (rest : List Char) :
    piecesOf (c :: rest) = .plain c :: piecesOf rest := by
  rw [piecesOf, if_neg h]

theorem piecesOf_dollar {rest : List Char} (h : referenceAt? rest = none) :
    piecesOf ('$' :: rest) = .plain '$' :: piecesOf rest := by
  rw [piecesOf, if_pos rfl, h]

theorem piecesOf_reference {rest : List Char} {name : String} {size : Nat}
    (h : referenceAt? rest = some (name, size)) :
    piecesOf ('$' :: rest) =
      .reference name ('$' :: rest.take size) :: piecesOf (rest.drop size) := by
  rw [piecesOf, if_pos rfl, h]

theorem flatMap_source_piecesOf (cs : List Char) :
    (piecesOf cs).flatMap Piece.source = cs := by
  fun_induction piecesOf cs with
  | case1 => rfl
  | case2 rest h ih => simp [Piece.source, ih]
  | case3 rest name size h ih => simp [Piece.source, ih]
  | case4 c rest h ih => simp [Piece.source, ih]

/-- A reference among `piecesOf` a text has one of the three `spellings` and
names a variable. -/
theorem spelled_of_mem_piecesOf {name : String} {source : List Char}
    (cs : List Char) (h : .reference name source ∈ piecesOf cs) :
    IsVariable name ∧ source ∈ spellings name := by
  fun_induction piecesOf cs with
  | case1 => cases h
  | case2 rest hnone ih => exact ih (by simpa using h)
  | case3 rest found size hfound ih =>
    rcases mem_cons.1 h with h | h
    · cases h
      have hreference := isReference_of_referenceAt? hfound
      exact ⟨hreference.named, hreference.spelled⟩
    · exact ih h
  | case4 c rest hc ih => exact ih (by simpa using h)

/-- **A blank separates the pieces before it from those behind it.** -/
theorem piecesOf_append_blank (cs more : List Char) :
    piecesOf (cs ++ ' ' :: more) =
      piecesOf cs ++ .plain ' ' :: piecesOf more := by
  fun_induction piecesOf cs with
  | case1 => rw [nil_append, nil_append, piecesOf_plain (by decide)]
  | case2 rest h ih =>
    rw [cons_append, piecesOf_dollar
      ((referenceAt?_append_blank rest more).trans h), ih, cons_append]
  | case3 rest name size h ih =>
    have hsize : size ≤ rest.length := (isReference_of_referenceAt? h).inside
    rw [cons_append, piecesOf_reference
      ((referenceAt?_append_blank rest more).trans h), take_append_of_le_length
      hsize, drop_append_of_le_length hsize, ih, cons_append]
  | case4 c rest h ih => rw [cons_append, piecesOf_plain h, ih, cons_append]

/-! ## Expansion -/

/-- With enough fuel, `expandFrom` writes out the pieces of the text. -/
theorem expandFrom_eq (env : Env) (cs : List Char) : ∀ fuel, cs.length ≤ fuel →
    expandFrom env cs fuel = (piecesOf cs).flatMap (Piece.meaning env) := by
  fun_induction piecesOf cs with
  | case1 => intro fuel _; cases fuel <;> rfl
  | case2 rest h ih =>
    intro fuel hfuel
    cases fuel with
    | zero => cases hfuel
    | succ fuel =>
      rw [expandFrom, h]
      dsimp only
      rw [ih fuel (Nat.le_of_succ_le_succ hfuel)]
      rfl
  | case3 rest name size h ih =>
    intro fuel hfuel
    cases fuel with
    | zero => cases hfuel
    | succ fuel =>
      have hrest : (rest.drop size).length ≤ fuel := by
        rw [length_cons] at hfuel
        rw [length_drop]
        omega
      rw [expandFrom, h]
      dsimp only
      rw [ih fuel hrest]
      rfl
  | case4 c rest h ih =>
    intro fuel hfuel
    cases fuel with
    | zero => cases hfuel
    | succ fuel =>
      rw [expandFrom.eq_4 _ _ _ _ h, ih fuel (Nat.le_of_succ_le_succ hfuel)]
      rfl

/-- **`expand` writes out the pieces of a text**, with the values of variables
in place of the references to them. -/
theorem toList_expand (env : Env) (s : String) :
    (expand env s).toList =
      (piecesOf s.toList).flatMap (Piece.meaning env) := by
  rw [expand, String.toList_ofList,
    expandFrom_eq env _ _ (Nat.le_of_eq String.length_toList)]

private theorem expand_append_blank (env : Env) (s t : String) :
    expand env (s ++ " " ++ t) = expand env s ++ " " ++ expand env t := by
  have htext : (s ++ " " ++ t).toList = s.toList ++ ' ' :: t.toList := by
    rw [String.toList_append, String.toList_append, append_assoc]
    rfl
  refine String.toList_inj.1 ?_
  rw [toList_expand, htext, piecesOf_append_blank, flatMap_append, flatMap_cons,
    String.toList_append, String.toList_append, toList_expand,
    toList_expand, append_assoc]
  rfl

theorem expand_intercalate (env : Env) (words : List String) :
    expand env (" ".intercalate words) =
      " ".intercalate (words.map (expand env)) := by
  induction words with
  | nil => rfl
  | cons word words ih =>
    cases words with
    | nil =>
      rw [String.intercalate_singleton, map_singleton,
        String.intercalate_singleton]
    | cons next words =>
      rw [String.intercalate_cons_cons, expand_append_blank, ih, map_cons,
        map_cons, map_cons, String.intercalate_cons_cons]

/-- Only the values of the `references` of a text matter for it. -/
theorem expand_congr {env env' : Env} {s : String}
    (h : ∀ name ∈ references s, env.get name = env'.get name) :
    expand env s = expand env' s := by
  refine String.toList_inj.1 ?_
  rw [toList_expand, toList_expand, flatMap_def, flatMap_def]
  refine congrArg List.flatten (map_congr_left fun piece hpiece => ?_)
  cases piece with
  | plain c => rfl
  | reference name source =>
    have hname : name ∈ references s := mem_filterMap.2 ⟨_, hpiece, rfl⟩
    rw [Piece.meaning, Piece.meaning, h name hname]

theorem get?_expandArgs {env : Env} {args : Args} {name s : String}
    (h : args.get? name = some (.text s)) :
    (expandArgs env args).get? name = some (.text (expand env s)) := by
  unfold Args.get? at h ⊢
  induction args with
  | nil => cases h
  | cons entry args ih =>
    obtain ⟨k, v⟩ := entry
    rw [lookup_cons] at h
    cases hk : name == k with
    | true =>
      rw [hk] at h
      obtain rfl : v = .text s := Option.some.inj h
      rw [expandArgs, map_cons, lookup_cons, hk]
    | false =>
      rw [hk] at h
      cases v <;> exact (lookup_cons ..).trans (by rw [hk]; exact ih h)

private theorem get?_argsOf (command : String) {words : List String}
    (hwords : positionalFrom words ≠ [])
    (hflag : (flagArgs words).get? "str" = none) :
    (argsOf (command :: words)).get? "str" =
      some (.text (" ".intercalate (positionalFrom words))) := by
  have hempty : (positionalFrom words).isEmpty = false := by simpa using hwords
  rw [argsOf_cons, hempty, hflag, Option.isSome_none, Bool.or_false,
    if_neg (by decide), Args.set_of_get?_none _ _ _ hflag]
  unfold Args.get? at hflag ⊢
  rw [lookup_append, hflag, Option.none_or]
  rfl

/-- **Expansion commutes with joining.** For every environment, expanding joined
words is the same as joining the expanded words, so the text that the positional
words of a command line make up is expanded word by word. A text is cut into
pieces without a look at the environment; each reference among them has one of
the three forms, and expansion writes out the pieces with the values in place of
the references. So no value is ever scanned: environments that agree on the
variables a text refers to expand it in the same way, whatever their values look
like. -/
theorem expand_joined (env : Env) :
    (∀ words : List String, expand env (" ".intercalate words) =
      " ".intercalate (words.map (expand env))) ∧
    (∀ (command : String) (words : List String), positionalFrom words ≠ [] →
      (flagArgs words).get? "str" = none →
      (expandArgs env (argsOf (command :: words))).get? "str" =
        some
          (.text (" ".intercalate ((positionalFrom words).map (expand env))))) ∧
    (∀ s : String, (piecesOf s.toList).flatMap Piece.source = s.toList ∧
      (∀ name source, .reference name source ∈ piecesOf s.toList →
        IsVariable name ∧ source ∈ spellings name) ∧
      (expand env s).toList = (piecesOf s.toList).flatMap (Piece.meaning env)) ∧
    ∀ (s : String) (other : Env),
      (∀ name ∈ references s, env.get name = other.get name) →
      expand env s = expand other s := by
  refine ⟨expand_intercalate env, ?_, ?_, fun s other h => expand_congr h⟩
  · intro command words hwords hflag
    rw [get?_expandArgs (get?_argsOf command hwords hflag), expand_intercalate]
  · intro s
    exact ⟨flatMap_source_piecesOf _,
      fun name source => spelled_of_mem_piecesOf _, toList_expand env s⟩

/-- The words `$`, `$env:` and `$A` are expanded one by one, the second as a
reference to `env` with a colon behind it. The text `$ $A` refers to `A` alone,
whose value looks like a reference to `B`: environments that differ in `B`
expand it to the same text, in which that value stands as it is. -/
theorem expand_joined_dangling :
    expand [("A", "$B"), ("B", "1")] (" ".intercalate ["$", "$env:", "$A"]) =
      "$ : $B" ∧
    (positionalFrom ["--n", "2", "$", "$A"] ≠ [] ∧
      (flagArgs ["--n", "2", "$", "$A"]).get? "str" = none ∧
      (expandArgs [("A", "$B"), ("B", "1")]
        (argsOf ["echo", "--n", "2", "$", "$A"])).get? "str" =
        some (.text "$ $B")) ∧
    references "$ $A" = ["A"] ∧
    expand [("A", "$B"), ("B", "1")] "$ $A" =
      expand [("A", "$B"), ("B", "2")] "$ $A" := by
  obtain ⟨hjoin, hargs, -, hcongr⟩ := expand_joined [("A", "$B"), ("B", "1")]
  have hflag : (flagArgs ["--n", "2", "$", "$A"]).get? "str" = none := rfl
  have hreferences : references "$ $A" = ["A"] := by
    have hpieces : piecesOf ['$', ' ', '$', 'A'] =
        [.plain '$', .plain ' ', .reference "A" ['$', 'A']] := by
      have hfound : referenceAt? ['A'] = some ("A", 1) := rfl
      rw [piecesOf_dollar rfl, piecesOf_plain (by decide),
        piecesOf_reference hfound, drop_of_length_le (by decide), piecesOf_nil]
      rfl
    exact congrArg (List.filterMap Piece.name?) hpieces
  refine ⟨hjoin _, ⟨?_, hflag, hargs "echo" _ ?_ hflag⟩, hreferences,
    hcongr _ _ ?_⟩
  · exact cons_ne_nil _ _
  · exact cons_ne_nil _ _
  · rw [hreferences]
    exact forall_mem_singleton.2 rfl

end Shell

end TaskShell

import TaskShell.Proofs.Action
import TaskShell.Proofs.Trimming

/-!
# Variables of the environment

A variable is set by an assignment `NAME=VALUE`, and read by its name or by a
reference to it, of which there are three forms. Setting and reading take the
text they are given apart in different ways: an assignment is split at its first
equals sign, trimmed, and freed of the marks of a reference and of quotes;
reading drops the same marks; and a reference inside a text is recognised
character by character. What holds them together is that the name of a variable
is made of word characters only, none of which is a blank, an equals sign, a
dollar sign, a colon or a brace.
-/

namespace TaskShell

open List

/-! ## The store -/

namespace Env

theorem get?_cons (k old : String) (rest : Env) (name : String) :
    get? ((k, old) :: rest) name = if name = k then some old
      else get? rest name := by
  unfold get?
  rw [lookup_cons]
  by_cases h : name = k
  · simp [h]
  · rw [if_neg h, beq_eq_false_iff_ne.2 h]

theorem get?_set_self (env : Env) (name value : String) :
    (env.set name value).get? name = some value := by
  induction env with
  | nil => simp [set, get?_cons]
  | cons entry rest ih =>
    obtain ⟨k, old⟩ := entry
    by_cases hk : k = name
    · simp [set, get?_cons, hk]
    · have hk' : ¬ name = k := fun h => hk h.symm
      simp [set, get?_cons, hk, hk', ih]

theorem get?_set_of_ne {name other : String} (h : other ≠ name) (env : Env)
    (value : String) :
    (env.set name value).get? other = env.get? other := by
  induction env with
  | nil => simp [set, get?_cons, h]
  | cons entry rest ih =>
    obtain ⟨k, old⟩ := entry
    by_cases hk : k = name
    · subst hk
      simp [set, get?_cons, h]
    · simp [set, get?_cons, hk, ih]

theorem names_prefix_set (env : Env) (name value : String) :
    env.map Prod.fst <+: (env.set name value).map Prod.fst := by
  induction env with
  | nil => exact nil_prefix
  | cons entry rest ih =>
    obtain ⟨k, old⟩ := entry
    by_cases hk : k = name
    · simp [set, hk]
    · simpa [set, hk] using ih

def setAll (env : Env) (settings : List (String × String)) : Env :=
  settings.foldl (fun env setting => env.set setting.1 setting.2) env

/-- The last value that is given to a name by some settings. -/
def lastValue? (settings : List (String × String))
    (name : String) : Option String :=
  settings.reverse.lookup name

private theorem lastValue?_cons (setting : String × String)
    (rest : List (String × String)) (name : String) :
    lastValue? (setting :: rest) name =
      (lastValue? rest name).or (if name = setting.1 then some setting.2
        else none) := by
  rw [lastValue?, reverse_cons, lookup_append]
  exact congrArg (Option.or _) (get?_cons setting.1 setting.2 [] name)

/-- **Reading after writing.** `get?` finds the last value that was given to a
name, or else the one from before. -/
theorem get?_setAll (settings : List (String × String))
    (name : String) : ∀ env : Env,
    (env.setAll settings).get? name =
      (lastValue? settings name).or (env.get? name) := by
  induction settings with
  | nil => exact fun env => rfl
  | cons setting rest ih =>
    intro env
    show ((env.set setting.1 setting.2).setAll rest).get? name = _
    rw [ih, lastValue?_cons, Option.or_assoc]
    by_cases h : name = setting.1
    · rw [if_pos h, h, get?_set_self]
      rfl
    · rw [if_neg h, get?_set_of_ne h]
      rfl

/-- Names keep their places through `setAll`. -/
theorem names_prefix_setAll (settings : List (String × String)) : ∀ env : Env,
    env.map Prod.fst <+: (env.setAll settings).map Prod.fst := by
  induction settings with
  | nil => exact fun env => prefix_rfl
  | cons setting rest ih => exact fun env =>
      (names_prefix_set env _ _).trans (ih (env.set setting.1 setting.2))

end Env

namespace Text

/-! ## Word characters -/

theorem isBlank_of_isWordChar {c : Char} (h : isWordChar c = true) :
    isBlank c = false := by
  have hblanks : ∀ n ∈ [0x09, 0x0A, 0x0B, 0x0C, 0x0D, 0x1C, 0x1D, 0x1E, 0x1F,
    0x20, 0x85, 0xA0, 0x1680, 0x2000, 0x2001,
      0x2002, 0x2003, 0x2004, 0x2005, 0x2006, 0x2007, 0x2008, 0x2009, 0x200A,
      0x2028, 0x2029, 0x202F, 0x205F, 0x3000],
      isWordCode n = false := by decide +kernel
  rw [← Bool.not_eq_true]
  intro hblank
  have hmem := hblanks c.toNat (by
    simp only [isBlank, Bool.or_eq_true, Bool.and_eq_true, decide_eq_true_eq,
      beq_iff_eq] at hblank
    simp only [mem_cons, not_mem_nil, or_false]
    rcases hblank with (((((((((h | h) | h) | h) | h) | h) | h) | h) | h) |
      h) | h <;> omega)
  unfold isWordChar at h
  rw [hmem] at h
  contradiction

theorem not_mem_of_isWordChar {d : Char} {cs : List Char}
    (hcs : ∀ c ∈ cs, isWordChar c = true) (hd : isWordChar d = false) :
    d ∉ cs := by
  intro hm
  rw [hcs d hm] at hd
  contradiction

/-! ## Starts of texts -/

theorem afterStart?_append (pat cs : List Char) :
    afterStart? pat (pat ++ cs) = some cs := by
  induction pat with
  | nil => cases cs <;> rfl
  | cons p pat ih => simp [afterStart?, ih]

theorem afterStart?_eq_none {pat cs : List Char} {d : Char} (hd : d ∈ pat)
    (hcs : d ∉ cs) : afterStart? pat cs = none := by
  induction pat generalizing cs with
  | nil => contradiction
  | cons p pat ih =>
    cases cs with
    | nil => rfl
    | cons c cs =>
      by_cases hpc : p = c
      · subst hpc
        have hdp : d ≠ p := fun h => hcs (by simp [h])
        have hrest : d ∉ cs := fun h => hcs (mem_cons_of_mem _ h)
        simpa [afterStart?] using ih ((mem_cons.1 hd).resolve_left hdp) hrest
      · simp [afterStart?, hpc]

theorem splitOnce?_append {sep : Char} {left : List Char} (h : sep ∉ left)
    (right : List Char) :
    splitOnce? sep (left ++ sep :: right) = some (left, right) := by
  induction left with
  | nil => simp [splitOnce?]
  | cons c left ih =>
    have hc : ¬ c = sep := fun hc => h (by simp [hc])
    have hleft : sep ∉ left := fun hm => h (mem_cons_of_mem _ hm)
    simp [splitOnce?, hc, ih hleft]

end Text

namespace Shell

open Text Act

/-! ## Names and values -/

/-- The name of a variable: it starts like a reference and goes on with word
characters. -/
def IsVariable (name : String) : Prop :=
  ∃ c rest, name.toList = c :: rest ∧ startsReference c = true ∧
    ∀ d ∈ rest, isWordChar d = true

def Wrapped (value : String) : Prop := ∃ q inner, (q = '"' ∨ q = '\'') ∧
    value.toList = q :: (inner ++ [q])

/-- A value that is stored as it is written: without the null character, without
blanks around it, and not in quotes. -/
structure Storable (value : String) : Prop where
  noNull : '\x00' ∉ value.toList
  trimmed : trim value = value
  unwrapped : ¬ Wrapped value

private theorem isWordChar_of_startsReference {c : Char}
    (h : startsReference c = true) : isWordChar c = true := by
  have hletters : ∀ n < 123, (65 ≤ n ∧ n ≤ 90) ∨ n = 95 ∨ (97 ≤ n ∧ n ≤ 122) →
      isWordCode n = true := by
    decide
  have hopen : startsReference c =
      (decide (65 ≤ c.val ∧ c.val ≤ 90) || decide (97 ≤ c.val) &&
        decide (c.val ≤ 122) || c == '_') := rfl
  simp only [hopen, Bool.or_eq_true, Bool.and_eq_true, decide_eq_true_eq,
    beq_iff_eq, UInt32.le_iff_toNat_le] at h
  have hcode : (65 ≤ c.toNat ∧ c.toNat ≤ 90) ∨ c.toNat = 95 ∨
      (97 ≤ c.toNat ∧ c.toNat ≤ 122) := by
    rcases h with (⟨h₁, h₂⟩ | ⟨h₁, h₂⟩) | rfl
    · exact .inl ⟨h₁, h₂⟩
    · exact .inr (.inr ⟨h₁, h₂⟩)
    · exact .inr (.inl rfl)
  exact hletters c.toNat (by omega) hcode

section Names

variable {name : String} (h : IsVariable name)
include h

theorem IsVariable.chars : ∀ c ∈ name.toList, isWordChar c = true := by
  obtain ⟨c, rest, hname, hc, hrest⟩ := h
  rw [hname]
  exact List.forall_mem_cons.2 ⟨isWordChar_of_startsReference hc, hrest⟩

theorem IsVariable.not_mem {d : Char} (hd : isWordChar d = false) :
    d ∉ name.toList :=
  not_mem_of_isWordChar h.chars hd

theorem IsVariable.ne_nil : name.toList ≠ [] := by
  obtain ⟨c, rest, hname, -⟩ := h
  rw [hname]
  exact List.cons_ne_nil _ _

theorem IsVariable.trim_eq : trim name = name := by
  refine trim_eq_self_iff.2 ⟨fun c hc => ?_, fun c hc => ?_⟩
  · exact isBlank_of_isWordChar (h.chars c (List.mem_of_mem_head? hc))
  · exact isBlank_of_isWordChar (h.chars c (List.mem_of_getLast? hc))

theorem IsVariable.nameAt?_append (after : List Char)
    (hafter : ∀ c, after.head? = some c → isWordChar c = false) :
    nameAt? (name.toList ++ after) = some name.toList := by
  obtain ⟨c, rest, hname, hc, hrest⟩ := h
  have hstop : after.takeWhile isWordChar = [] := by
    cases after with
    | nil => rfl
    | cons d after => rw [List.takeWhile_cons, hafter d rfl, if_neg (by decide)]
  rw [hname, List.cons_append, nameAt?, if_pos hc,
    List.takeWhile_append_of_pos hrest, hstop, List.append_nil]

end Names

/-! ## Taking an assignment apart -/

theorem dropReference_plain {name : String} (h : '$' ∉ name.toList) :
    dropReference name = name := by
  have hlong : afterStart? "$env:".toList name.toList = none :=
    afterStart?_eq_none (d := '$') (by decide) h
  have hshort : afterStart? ['$'] name.toList = none :=
    afterStart?_eq_none (d := '$') (by decide) h
  unfold dropReference
  dsimp only
  rw [hlong, Option.getD_none, hshort, Option.getD_none, String.ofList_toList]

theorem dropReference_short {name : String} (h : ':' ∉ name.toList) :
    dropReference ("$" ++ name) = name := by
  have htext : ("$" ++ name).toList = ['$'] ++ name.toList :=
    String.toList_append
  have hlong : afterStart? "$env:".toList (['$'] ++ name.toList) = none :=
    afterStart?_eq_none (d := ':') (by decide) (by simpa using h)
  unfold dropReference
  dsimp only
  rw [htext, hlong, Option.getD_none, afterStart?_append, Option.getD_some,
    String.ofList_toList]

theorem dropReference_long {name : String} (h : '$' ∉ name.toList) :
    dropReference ("$env:" ++ name) = name := by
  have hshort : afterStart? ['$'] name.toList = none :=
    afterStart?_eq_none (d := '$') (by decide) h
  unfold dropReference
  dsimp only
  rw [String.toList_append, afterStart?_append, Option.getD_some, hshort,
    Option.getD_none, String.ofList_toList]

theorem Wrapped.ends {value : String} (h : Wrapped value) :
    (value.toList.head? = some '"' ∨ value.toList.head? = some '\'') ∧
      value.toList.getLast? = value.toList.head? := by
  obtain ⟨q, inner, hq, hvalue⟩ := h
  rw [hvalue, ← cons_append, getLast?_concat, cons_append, head?_cons]
  exact ⟨hq.imp (congrArg some) (congrArg some), rfl⟩

theorem dropQuotes_of_not_wrapped {value : String} (h : ¬ Wrapped value) :
    dropQuotes value = value := by
  unfold dropQuotes
  dsimp only
  split
  · next a b hhead hlast =>
    split
    · next hquotes =>
      simp only [Bool.and_eq_true, decide_eq_true_eq, beq_iff_eq,
        Bool.or_eq_true] at hquotes
      obtain ⟨⟨hlength, rfl⟩, hquote⟩ := hquotes
      refine absurd ?_ h
      obtain ⟨rest, hrest⟩ := head?_eq_some_iff.1 hhead
      have hlast' : rest.getLast? = some a := by
        cases rest with
        | nil => simp [hrest] at hlength
        | cons d rest => rwa [hrest, getLast?_cons_cons] at hlast
      obtain ⟨inner, hinner⟩ := getLast?_eq_some_iff.1 hlast'
      exact ⟨a, inner, hquote, by rw [hrest, hinner]⟩
    · rfl
  · rfl

theorem toList_assignment (name value : String) :
    (name ++ "=" ++ value).toList = name.toList ++ '=' :: value.toList := by
  rw [String.toList_append, String.toList_append, append_assoc]
  rfl

section Assignments

variable {name value : String} (hn : IsVariable name) (hv : Storable value)
include hn hv

theorem trim_assignment :
    trim (name ++ "=" ++ value) = name ++ "=" ++ value := by
  rw [trim_eq_self_iff, toList_assignment]
  constructor
  · intro c hc
    obtain ⟨d, rest, hname⟩ := exists_cons_of_ne_nil hn.ne_nil
    rw [hname] at hc
    cases hc
    exact isBlank_of_isWordChar (hn.chars c (by simp [hname]))
  · intro c hc
    rw [getLast?_append, getLast?_cons, Option.some_or] at hc
    cases hlast : value.toList.getLast? with
    | none =>
      rw [hlast] at hc
      cases hc
      decide
    | some d =>
      rw [hlast] at hc
      cases hc
      exact (trim_eq_self_iff.1 hv.trimmed).2 d hlast

/-- **`assignment?` takes an assignment apart** into its name and its value. -/
theorem assignment?_eq :
    assignment? (name ++ "=" ++ value) = some (name, value) := by
  unfold assignment?
  dsimp only
  rw [toList_assignment, splitOnce?_append (hn.not_mem (by decide))]
  dsimp only [Option.map_some]
  rw [String.ofList_toList, String.ofList_toList, hn.trim_eq, hv.trimmed,
    dropReference_plain (hn.not_mem (by decide)),
    dropQuotes_of_not_wrapped hv.unwrapped]

theorem assign_eq (env : Env) :
    env.assign name value = .ok (env.set name value) := by
  have hnull : '\x00' ∉ name.toList := hn.not_mem (by decide)
  have hequals : '=' ∉ name.toList := hn.not_mem (by decide)
  have hempty : name.isEmpty = false := by
    refine Bool.eq_false_iff.2 fun he => hn.ne_nil ?_
    rw [String.isEmpty_iff.1 he]
    rfl
  unfold Env.assign
  simp [String.contains_char_eq, hnull, hequals, hv.noNull, hempty]

end Assignments

/-! ## References -/

/-- `expand` gives the value of the variable for a text that is one
reference. -/
theorem expand_reference {text name : String} (after : List Char)
    (htext : text.toList = '$' :: after)
    (href : referenceAt? after = some (name, after.length)) (env : Env) :
    expand env text = env.get name := by
  have hlength : text.length = after.length + 1 := by
    rw [← String.length_toList, htext, length_cons]
  have hend : ∀ fuel, expandFrom env [] fuel = [] :=
    fun fuel => by cases fuel <;> rfl
  rw [expand, htext, hlength, expandFrom, href]
  dsimp only
  rw [drop_length, hend, append_nil, String.ofList_toList]

section References

variable {name : String} (h : IsVariable name) (env : Env)
include h

theorem expand_short : expand env ("$" ++ name) = env.get name := by
  have hlong : afterStart? "env:".toList name.toList = none :=
    afterStart?_eq_none (d := ':') (by decide) (h.not_mem (by decide))
  have hbraced : afterStart? ['\x7b'] name.toList = none :=
    afterStart?_eq_none (d := '\x7b') (by decide) (h.not_mem (by decide))
  have hname : nameAt? name.toList = some name.toList := by
    simpa using h.nameAt?_append [] (by simp)
  refine expand_reference name.toList String.toList_append ?_ env
  simp only [referenceAt?, hlong, hbraced, hname, Option.bind_none,
    Option.or_none, Option.none_or, Option.map_some, String.ofList_toList]

theorem expand_braced :
    expand env ("$\x7b" ++ name ++ "\x7d") = env.get name := by
  have htext : ("$\x7b" ++ name ++ "\x7d").toList =
      '$' :: '\x7b' :: (name.toList ++ ['\x7d']) := by
    rw [String.toList_append, String.toList_append, append_assoc]
    rfl
  have hlong : afterStart? "env:".toList ('\x7b' :: (name.toList ++ ['\x7d'])) =
      none := rfl
  have hbraced : afterStart? ['\x7b'] ('\x7b' :: (name.toList ++ ['\x7d'])) =
      some (name.toList ++ ['\x7d']) :=
    afterStart?_append ['\x7b'] _
  have hname : nameAt? (name.toList ++ ['\x7d']) = some name.toList :=
    h.nameAt?_append ['\x7d'] fun c hc => by cases hc; decide
  refine expand_reference _ htext ?_ env
  simp only [referenceAt?, hlong, hbraced, hname, Option.bind_none,
    Option.none_or, Option.bind_some, drop_left, head?_cons, beq_self_eq_true,
    if_true, Option.some_or, String.ofList_toList, length_cons,
    length_append, length_nil]

theorem expand_long : expand env ("$env:" ++ name) = env.get name := by
  have htext : ("$env:" ++ name).toList =
      '$' :: ("env:".toList ++ name.toList) := String.toList_append
  have hname : nameAt? name.toList = some name.toList := by
    simpa using h.nameAt?_append [] (by simp)
  have hlength :
      name.toList.length + 4 = ("env:".toList ++ name.toList).length := by
    rw [length_append, Nat.add_comm]
    rfl
  refine expand_reference _ htext ?_ env
  simp only [referenceAt?, afterStart?_append, hname, Option.bind_some,
    Option.map_some, Option.some_or, hlength, String.ofList_toList]

end References

/-! ## Builtins that set and read -/

def ask (name : String) (b : Builtin) (text : String) : Act Value :=
  runBuiltin name b [("str", .text text)]

theorem ask_echo (text : String) (w : World) :
    (ask "echo" .echo text w).1 = .ok (.text (expand w.env text)) := by
  by_cases hempty : text = ""
  · subst hempty
    rfl
  · have htruthy : (Value.text text).isTruthy = true := isTruthy_text hempty
    have hrun : expandValue (.text text) =
        (get >>= fun s => pure (.text (expand s.env text)) : Job Value) := by
      simp [expandValue, htruthy]
    show (expandValue (.text text) w.toSite).1 = _
    rw [hrun]
    rfl

theorem ask_get {text : String} (h : text ≠ "") (w : World) :
    (ask "get" .get text w).1 =
      .ok (.text (w.env.get (dropReference text))) := by
  have htruthy : (Value.text text).isTruthy = true := isTruthy_text h
  have hrun : getBuiltin [("str", .text text)] =
      (get >>= fun s => pure (.text (s.env.get (dropReference text))) :
        Job Value) := by
    simp [getBuiltin, textArg, Args.getD, Args.get?, htruthy, needText]
  show (getBuiltin [("str", .text text)] w.toSite).1 = _
  rw [hrun]
  rfl

def store (name value : String) : Job String := do
  let env ← Act.ofExcept ((← get).env.assign name value)
  modify fun w => { w with env := env }
  pure ""

section Setting

variable {args : Args} {raw name value : String}
  (hraw : args.givenOr "str" (.text "") = .text raw)
include hraw

theorem setBuiltin_of_none (h : assignment? (trim raw) = none) (s : Site) :
    setBuiltin args s = (.ok (.text "usage: set VAR=VALUE"), s) := by
  simp only [setBuiltin, hraw, needText, pure_bind, h]
  rfl

theorem setBuiltin_of_some (h : assignment? (trim raw) = some (name, value)) :
    setBuiltin args = (orMessage "set failed: " (store name value) >>=
      fun s => pure (.text s)) := by
  simp only [setBuiltin, hraw, needText, pure_bind, h]
  rfl

theorem setBuiltin_of_ok (h : assignment? (trim raw) = some (name, value))
    {s : Site} {env : Env} (hassign : s.env.assign name value = .ok env) :
    setBuiltin args s = (.ok (.text ""), { s with env := env }) := by
  have hstore : store name value s = (.ok "", { s with env := env }) := by
    rw [store, get_bind_apply, hassign]
    rfl
  have hmessage : orMessage "set failed: " (store name value) s =
      (.ok "", { s with env := env }) := orElse_of_ok hstore
  rw [setBuiltin_of_some hraw h, bind_of_ok hmessage]
  rfl

private theorem setBuiltin_of_error
    (h : assignment? (trim raw) = some (name, value)) {s : Site} {f : Fault}
    (hassign : s.env.assign name value = .error f) :
    setBuiltin args s = (.ok (.text ("set failed: " ++ f.message)), s) := by
  have hstore : store name value s = (.error f, s) := by
    rw [store, get_bind_apply, hassign]
    rfl
  have hmessage : orMessage "set failed: " (store name value) s =
      (.ok ("set failed: " ++ f.message), s) :=
    orElse_of_error hstore
  rw [setBuiltin_of_some hraw h, bind_of_ok hmessage]
  rfl

end Setting

/-- **`setBuiltin` changes nothing when it refuses**: whatever the arguments
are, the answer is empty or all is as it was. -/
theorem setBuiltin_unchanged (args : Args) (s : Site) :
    (setBuiltin args s).1 = .ok (.text "") ∨ (setBuiltin args s).2 = s := by
  rcases hraw : args.givenOr "str" (.text "") with _ | _ | _ | _ | raw | _ | _
  case text =>
    cases hparts : assignment? (trim raw) with
    | none => exact .inr (by rw [setBuiltin_of_none hraw hparts])
    | some pair =>
      obtain ⟨name, value⟩ := pair
      cases hassign : s.env.assign name value with
      | ok env => exact .inl (by rw [setBuiltin_of_ok hraw hparts hassign])
      | error f => exact .inr (by rw [setBuiltin_of_error hraw hparts hassign])
  all_goals
    right
    simp only [setBuiltin, hraw, needText]
    rfl

theorem ask_set {name value : String} (hn : IsVariable name)
    (hv : Storable value) (w : World) :
    ask "set" .set (name ++ "=" ++ value) w = (.ok (.text ""),
      { w with
        env := w.env.set name value
        calls := w.calls ++ [⟨true, "set", .record
          [("str", .text (name ++ "=" ++ value))]⟩] }) := by
  have hempty : ¬ name ++ "=" ++ value = "" := by
    intro he
    have hlist := congrArg String.toList he
    rw [toList_assignment] at hlist
    simp at hlist
  have hraw : Args.givenOr [("str", .text (name ++ "=" ++ value))] "str"
      (.text "") = .text (name ++ "=" ++ value) := by
    simp [Args.givenOr, Args.get?, Value.isTruthy, hempty]
  have hparts : assignment? (trim (name ++ "=" ++ value)) =
      some (name, value) := by
    rw [trim_assignment hn hv, assignment?_eq hn hv]
  have hset : setBuiltin [("str", .text (name ++ "=" ++ value))] w.toSite =
      (.ok (.text ""), { w.toSite with env := w.env.set name value }) :=
    setBuiltin_of_ok hraw hparts (assign_eq hn hv w.env)
  have hlift := lift_apply (setBuiltin [("str", .text (name ++ "=" ++ value))])
    { w with calls := w.calls ++
      [⟨true, "set", .record [("str", .text (name ++ "=" ++ value))]⟩] }
  rw [hset] at hlift
  exact hlift

/-! ## Sequences of assignments -/

/-- Runs assignments one after the other. Gives the answers. -/
def setEach : List (String × String) → World → List (Except Fault Value) × World
  | [], w => ([], w)
  | (name, value) :: rest, w =>
    let (answer, w) := ask "set" .set (name ++ "=" ++ value) w
    (answer :: (setEach rest w).1, (setEach rest w).2)

/-- `setEach` answers with nothing each time. It sets the variables and changes
nothing else. -/
theorem setEach_eq (settings : List (String × String)) : ∀ w : World,
    (∀ s ∈ settings, IsVariable s.1 ∧ Storable s.2) →
    ∃ calls, setEach settings w =
      (settings.map fun _ => .ok (.text ""),
        { w with env := w.env.setAll settings, calls := calls }) := by
  induction settings with
  | nil => exact fun w _ => ⟨w.calls, rfl⟩
  | cons setting rest ih =>
    intro w h
    obtain ⟨name, value⟩ := setting
    obtain ⟨hn, hv⟩ := h (name, value) (by simp)
    obtain ⟨calls, hrest⟩ := ih (ask "set" .set (name ++ "=" ++ value) w).2
      fun s hs => h s (mem_cons_of_mem _ hs)
    rw [ask_set hn hv] at hrest
    refine ⟨calls, ?_⟩
    simp only [setEach, ask_set hn hv, hrest, map_cons, Env.setAll, foldl_cons]

/-- **The laws of the store.** After any sequence of assignments, each of which
is answered with nothing:

* a name that was set is read by `get` and by `echo`, in every form of a
  reference, as the last value it was given, and a reference inside that value
  is left as it is;
* a name that was not set has the value it had;
* the names that were there keep their order, and new ones come after them;
* nothing but the environment has changed.

A call of `set` with any other answer, whatever its arguments are, leaves the
environment as it was. -/
theorem set_variables_kept (w : World) (settings : List (String × String))
    (h : ∀ s ∈ settings, IsVariable s.1 ∧ Storable s.2) :
    (setEach settings w).1 = settings.map (fun _ => .ok (.text "")) ∧
    (∀ name value, Env.lastValue? settings name = some value →
      (∀ text ∈ [name, "$" ++ name, "$env:" ++ name],
        (ask "get" .get text (setEach settings w).2).1 = .ok (.text value)) ∧
      ∀ text ∈ ["$" ++ name, "$\x7b" ++ name ++ "\x7d", "$env:" ++ name],
        (ask "echo" .echo text (setEach settings w).2).1 = .ok (.text value)) ∧
    (∀ name, name ∉ settings.map Prod.fst →
      (setEach settings w).2.env.get? name = w.env.get? name) ∧
    w.env.map Prod.fst <+: (setEach settings w).2.env.map Prod.fst ∧
    (∃ env calls, (setEach settings w).2 =
      { w with env := env, calls := calls }) ∧
    ∀ (args : Args) (now : World), (runBuiltin "set" .set args now).1 ≠
      .ok (.text "") →
      (runBuiltin "set" .set args now).2.toSite = now.toSite := by
  obtain ⟨calls, hrun⟩ := setEach_eq settings w h
  rw [hrun]
  refine ⟨rfl, ?_, ?_, Env.names_prefix_setAll settings w.env,
    ⟨_, calls, rfl⟩, ?_⟩
  · intro name value hlast
    have hmem : (name, value) ∈ settings := by
      obtain ⟨before, after, hsplit, -⟩ := lookup_eq_some_iff.1 hlast
      exact mem_reverse.1 (by rw [hsplit]; simp)
    have hn := (h _ hmem).1
    have hvalue : (w.env.setAll settings).get name = value := by
      rw [Env.get, Env.get?_setAll, hlast]
      rfl
    constructor
    · intro text htext
      simp only [mem_cons, not_mem_nil, or_false] at htext
      rcases htext with rfl | rfl | rfl
      · rw [ask_get, dropReference_plain (hn.not_mem (by decide)), hvalue]
        exact fun he => hn.ne_nil (by rw [he]; rfl)
      · rw [ask_get (by simp),
          dropReference_short (hn.not_mem (by decide)), hvalue]
      · rw [ask_get (by simp),
          dropReference_long (hn.not_mem (by decide)), hvalue]
    · intro text htext
      simp only [mem_cons, not_mem_nil, or_false] at htext
      rcases htext with rfl | rfl | rfl
      · rw [ask_echo, expand_short hn, hvalue]
      · rw [ask_echo, expand_braced hn, hvalue]
      · rw [ask_echo, expand_long hn, hvalue]
  · intro name hname
    have hnone : Env.lastValue? settings name = none := by
      rw [Env.lastValue?, lookup_eq_none_iff]
      intro setting hsetting
      simp only [bne_iff_ne]
      rintro rfl
      exact hname (mem_map_of_mem (mem_reverse.1 hsetting))
    rw [Env.get?_setAll, hnone]
    rfl
  · intro args now hanswer
    exact (setBuiltin_unchanged args now.toSite).resolve_left hanswer

/-- A variable that has the name of the long mark, set twice, and values with an
equals sign, references and a quote that is not closed. -/
theorem set_variables_kept_env :
    (∀ s ∈ [("env", "1"), ("A", "$env=\""), ("env", "'$A")], IsVariable s.1 ∧
      Storable s.2) ∧
      (ask "echo" .echo "$env:env"
        (setEach [("env", "1"), ("A", "$env=\""), ("env", "'$A")]
          default).2).1 = .ok (.text "'$A") ∧
      (ask "get" .get "$A"
        (setEach [("env", "1"), ("A", "$env=\""), ("env", "'$A")]
          default).2).1 = .ok (.text "$env=\"") := by
  have h : ∀ s ∈ [("env", "1"), ("A", "$env=\""), ("env", "'$A")],
      IsVariable s.1 ∧ Storable s.2 := by
    have henv : IsVariable "env" :=
      ⟨'e', ['n', 'v'], rfl, by decide, all_eq_true.1 (by decide)⟩
    have hA : IsVariable "A" := ⟨'A', [], rfl, by decide, by simp⟩
    have hone : Storable "1" :=
      ⟨by decide, by decide, fun hw => absurd hw.ends (by decide)⟩
    have hequals : Storable "$env=\"" :=
      ⟨by decide, by decide, fun hw => absurd hw.ends (by decide)⟩
    have hquote : Storable "'$A" :=
      ⟨by decide, by decide, fun hw => absurd hw.ends (by decide)⟩
    simp only [mem_cons, not_mem_nil, or_false]
    rintro s (rfl | rfl | rfl)
    · exact ⟨henv, hone⟩
    · exact ⟨hA, hequals⟩
    · exact ⟨henv, hquote⟩
  have hlaws := (set_variables_kept default _ h).2.1
  refine ⟨h, (hlaws "env" "'$A" rfl).2 _ ?_, (hlaws "A" "$env=\"" rfl).1 _ ?_⟩
  · simp
  · simp

end Shell

end TaskShell

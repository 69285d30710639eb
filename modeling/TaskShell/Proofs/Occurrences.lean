import TaskShell.Proofs.Innermost
import TaskShell.Proofs.Sources

/-!
# Quoted names in a line

Whether a name was quoted is asked of the whole line: the name in quotes, or as
a reference, is looked for anywhere in it. A name has no separators in it, so
what is found stands in the source of one word. It may be the word that is asked
about, written wholly in quotes, or any other. One quoted occurrence therefore
speaks for all occurrences of the name, and one that is quoted in part is taken
for a bare one.
-/

namespace TaskShell.Shell

open Text List
open TaskShell.Words (IsLayout Piece Writes isMark isPlain isQuote isSeparator)

/-! ## Names -/

private theorem isPlain_of_table : (Command.table.map (·.1) ++ builtinNames).all
    (fun name => name.toList.all fun c => isPlain c && c != '$') = true := by
  decide +kernel

theorem isPlain_of_isKnown {name : String} (h : isKnown name = true) {c : Char}
    (hc : c ∈ name.toList) :
    isPlain c = true ∧ c ≠ '$' := by
  have hall := all_eq_true.1
    (all_eq_true.1 isPlain_of_table name (mem_table_of_isKnown h)) c hc
  simpa using hall

/-! ## Sources that enclose a name -/

/-- The forms in which a name is looked for: in quotes of both kinds, and as a
reference. -/
def enclosures (name : List Char) : List (List Char) :=
  ['"' :: name ++ ['"'], '\'' :: name ++ ['\''],
    '$' :: '\x7b' :: name ++ ['\x7d']]

/-- Whether a text has a name in one of its `enclosures`. -/
def Encloses (text name : List Char) : Prop :=
  ∃ form ∈ enclosures name, form <:+: text

def Unquoted (source : List Char) : Prop := ∀ c ∈ source, isQuote c = false

/-- A source in which the whole name stands between two quotes. -/
def WhollyQuoted (source name : List Char) : Prop :=
  ∃ before q after, isQuote q = true ∧
    source = before ++ (q :: name ++ [q]) ++ after ∧
    ∀ m, m ∈ before ∨ m ∈ after → isMark m = true

theorem wasQuoted_iff {name line : String} :
    wasQuoted name (some line) = true ↔ Encloses line.toList name.toList := by
  have hforms : (Text.contains line ("\"" ++ name ++ "\"") ||
    Text.contains line ("'" ++ name ++ "'") ||
      Text.contains line ("$\x7b" ++ name ++ "\x7d")) = true ↔
      Encloses line.toList name.toList := by
    simp [Text.contains, occursIn_iff, Encloses, enclosures, or_assoc]
  rw [wasQuoted, Bool.and_eq_true, hforms]
  refine and_iff_right_of_imp ?_
  rintro ⟨form, hform, hfound⟩
  have hne : form ≠ [] := by
    rintro rfl
    simp [enclosures] at hform
  have hline : line.toList ≠ [] := by
    intro hnil
    rw [hnil] at hfound
    exact hne (infix_nil.1 hfound)
  simpa using hline

section Known

variable {name : String} (hknown : isKnown name = true)
include hknown

theorem enclosures_unseparated {form : List Char}
    (h : form ∈ enclosures name.toList) :
    form ≠ [] ∧ ∀ c ∈ form, isSeparator c = false := by
  have hname : ∀ c ∈ name.toList, isSeparator c = false := by
    intro c hc
    simpa using (Words.isPlain_iff.1 (isPlain_of_isKnown hknown hc).1).1
  have hmarks : isSeparator '"' = false ∧ isSeparator '\'' = false ∧
    isSeparator '$' = false ∧
      isSeparator '\x7b' = false ∧ isSeparator '\x7d' = false := by decide
  obtain ⟨hdouble, hsingle, hdollar, hopen, hclose⟩ := hmarks
  simp only [enclosures, List.mem_cons, List.not_mem_nil, or_false] at h
  rcases h with rfl | rfl | rfl
  · exact ⟨by simp, by simpa [or_imp, forall_and, hdouble] using hname⟩
  · exact ⟨by simp, by simpa [or_imp, forall_and, hsingle] using hname⟩
  · exact ⟨by simp, by simpa [or_imp, forall_and, hdollar, hopen,
      hclose] using hname⟩

/-- A name counts as quoted if the source of some word `Encloses` it. -/
theorem encloses_iff_exists {line trail : List Char} {pieces : List Piece}
    (layout : IsLayout line pieces trail) :
    Encloses line name.toList ↔
    ∃ p ∈ pieces, Encloses p.source name.toList := by
  constructor
  · rintro ⟨form, hform, hfound⟩
    obtain ⟨hne, hseparators⟩ := enclosures_unseparated hknown hform
    obtain ⟨p, hp, hsource⟩ := (layout.infix_iff hne hseparators).1 hfound
    exact ⟨p, hp, form, hform, hsource⟩
  · rintro ⟨p, hp, form, hform, hsource⟩
    obtain ⟨hne, hseparators⟩ := enclosures_unseparated hknown hform
    exact ⟨form, hform, (layout.infix_iff hne hseparators).2 ⟨p, hp, hsource⟩⟩

/-- The source of the name itself `Encloses` it only in quotes: a reference is
no name. -/
theorem encloses_iff_whollyQuoted {source : List Char}
    (h : Writes source name.toList) :
    Encloses source name.toList ↔ WhollyQuoted source name.toList := by
  have hquoted {q : Char} (hq : isQuote q = true)
      (hfound : (q :: name.toList ++ [q]) <:+: source) :
      WhollyQuoted source name.toList := by
    obtain ⟨before, after, hsource⟩ := hfound
    refine ⟨before, q, after, hq, hsource.symm,
      fun m hm => h.isMark_around hsource.symm ?_ hm⟩
    exact (List.sublist_append_left _ _).cons q
  constructor
  · rintro ⟨form, hform, hfound⟩
    simp only [enclosures, List.mem_cons, List.not_mem_nil, or_false] at hform
    rcases hform with rfl | rfl | rfl
    · exact hquoted rfl hfound
    · exact hquoted rfl hfound
    · -- the sign of a reference would stay in the word
      have hsign : '$' ∈ name.toList := by
        have hcount : name.toList.count '$' = source.count '$' := h.count_eq rfl
        rw [← List.count_pos_iff, hcount, List.count_pos_iff]
        exact hfound.subset (by simp)
      exact absurd rfl (isPlain_of_isKnown hknown hsign).2
  · rintro ⟨before, q, after, hq, hsource, -⟩
    refine ⟨q :: name.toList ++ [q], ?_, before, after, hsource.symm⟩
    simp only [isQuote, Bool.or_eq_true, beq_iff_eq] at hq
    rcases hq with rfl | rfl
    · simp [enclosures]
    · simp [enclosures]

end Known

theorem WhollyQuoted.not_unquoted {source name : List Char}
    (h : WhollyQuoted source name) : ¬ Unquoted source := by
  obtain ⟨before, q, after, hq, rfl, -⟩ := h
  intro hnone
  rw [hnone q (by simp)] at hq
  cases hq

/-! ## The chain of a line -/

theorem firstChain_of_passed {text : Option String} {words : List String}
    (k i : Nat) (h : ∀ word ∈ words.take k, isLink text word = false)
    (hk : k ≤ words.length) :
    firstChain text words i = firstChain text (words.drop k) (i + k) := by
  induction k generalizing words i with
  | zero => rfl
  | succ k ih =>
    cases words with
    | nil => cases hk
    | cons word rest =>
      rw [List.take_succ_cons, List.forall_mem_cons] at h
      rw [List.length_cons] at hk
      rw [firstChain, if_neg (by simp [h.1]), ih (i + 1) h.2 (by omega),
        List.drop_succ_cons]
      congr 1
      omega

section Place

variable {text : Option String} {parts : List String} {k place : Nat}
  {name : String} (hplace : (positionalPlaces parts)[k]? = some place)
  (hname : parts[place]? = some name)
include hplace hname

theorem getElem?_positionals : (positionals parts)[k]? = some name := by
  obtain ⟨hle, hat⟩ := getElem?_placesFrom hplace
  rw [positionals, ← hat, List.getElem?_drop, Nat.add_sub_cancel' hle, hname]

/-- The words of a chain that `locate?` gives are links, whatever stands between
them. -/
theorem isLink_of_locate? {c : Located} (h : locate? parts text = some c)
    (hfirst : c.first ≤ place) (hlast : place ≤ c.last) :
    isLink text name = true := by
  obtain ⟨before, -, -, hat, -⟩ := locate?_search h
  obtain ⟨after, hsplit, -⟩ := hat.run
  have hpos : 0 < c.chain.length := List.length_pos_iff.2 hat.nonempty
  have hstart : before ≤ k := by
    apply Nat.le_of_not_lt
    intro hlt
    have hearlier := place_lt_place hlt hplace hat.firstPlace
    omega
  have hstop : k ≤ before + c.chain.length - 1 := by
    apply Nat.le_of_not_lt
    intro hlt
    have hlater := place_lt_place hlt hat.lastPlace hplace
    omega
  refine hat.links name (List.mem_iff_getElem?.2 ⟨k - before, ?_⟩)
  have hword : ((positionals parts).drop before)[k - before]? = some name := by
    rw [List.getElem?_drop, Nat.add_sub_cancel' hstart,
      getElem?_positionals hplace hname]
  rwa [hsplit, List.getElem?_append_left (by omega)] at hword

theorem exists_locate?_of_isLink (h : isLink text name = true)
    (hbefore : ∀ word ∈ (positionals parts).take k, isLink text word = false) :
    ∃ c, locate? parts text = some c ∧ c.first = place := by
  have hword := getElem?_positionals hplace hname
  obtain ⟨hk, hget⟩ := List.getElem?_eq_some_iff.1 hword
  have hdrop : (positionals parts).drop k =
      name :: (positionals parts).drop (k + 1) := by
    rw [List.drop_eq_getElem_cons hk, hget]
  have hchain : firstChain text (positionals parts) 0 =
      some (k, name ::
        ((positionals parts).drop (k + 1)).takeWhile (isLink text)) := by
    rw [firstChain_of_passed k 0 hbefore (Nat.le_of_lt hk), hdrop, firstChain,
      if_pos h, List.takeWhile_cons, if_pos h, Nat.zero_add]
  obtain ⟨innermost, hlast⟩ : ∃ innermost,
      (name :: ((positionals parts).drop (k + 1)).takeWhile
        (isLink text)).getLast? = some innermost := by
    cases hnone : (name :: ((positionals parts).drop (k + 1)).takeWhile
        (isLink text)).getLast? with
    | none => cases List.getLast?_eq_none_iff.1 hnone
    | some innermost => exact ⟨innermost, rfl⟩
  simp only [locate?, hchain, hplace, hlast, Option.bind_eq_bind,
    Option.bind_some, Option.some.injEq, exists_eq_left']

end Place

/-! ## Occurrences -/

/-- Whether the source of another word encloses the name of the word at
`place`. -/
def EnclosedElsewhere (pieces : List Piece) (place : Nat)
    (name : List Char) : Prop :=
  ∃ i p, i ≠ place ∧ pieces[i]? = some p ∧ Encloses p.source name

/-- An occurrence is a link unless it is `WhollyQuoted` itself or
`EnclosedElsewhere`. -/
theorem isLink_iff {line name : String} {pieces : List Piece}
    {trail : List Char} {own : Piece} {place : Nat}
    (layout : IsLayout line.toList pieces trail)
    (hown : pieces[place]? = some own) (hword : own.word = name.toList)
    (hknown : isKnown name = true) : isLink (some line) name = true ↔
      ¬ WhollyQuoted own.source name.toList ∧
      ¬ EnclosedElsewhere pieces place name.toList := by
  have hwrites : Writes own.source name.toList := by
    rw [← hword]
    exact layout.writes own (List.mem_of_getElem? hown)
  have hsplit : (∃ p ∈ pieces, Encloses p.source name.toList) ↔
      Encloses own.source name.toList ∨
      EnclosedElsewhere pieces place name.toList := by
    constructor
    · rintro ⟨p, hp, hencloses⟩
      obtain ⟨i, hi⟩ := List.mem_iff_getElem?.1 hp
      by_cases hplace : i = place
      · subst hplace
        rw [hown] at hi
        obtain rfl := Option.some.inj hi
        exact .inl hencloses
      · exact .inr ⟨i, p, hplace, hi, hencloses⟩
    · rintro (hencloses | ⟨i, p, -, hi, hencloses⟩)
      · exact ⟨own, List.mem_of_getElem? hown, hencloses⟩
      · exact ⟨p, List.mem_of_getElem? hi, hencloses⟩
  rw [isLink, hknown, Bool.true_and, Bool.not_eq_true', ← Bool.not_eq_true,
    wasQuoted_iff, encloses_iff_exists hknown layout, hsplit,
    encloses_iff_whollyQuoted hknown hwrites, not_or]

/-- **For which occurrences of a name the quotes are honoured.** The line falls
into the sources of its words, and the chain of the line takes an occurrence
only if it is a link. For an occurrence without quotes the answer is the right
one if no other word encloses the name. For one with quotes it is if the whole
name stands in them, or if another word encloses it. -/
theorem isLink_honours_iff {line : String} {parts : List String}
    (hsplit : Words.split line = .ok parts) :
    (∃ pieces trail, IsLayout line.toList pieces trail) ∧
    ∀ pieces trail, IsLayout line.toList pieces trail →
      ∀ k place name, (positionalPlaces parts)[k]? = some place →
        parts[place]? = some name → isKnown name = true →
        (∀ c, locate? parts (some line) = some c → c.first ≤ place →
          place ≤ c.last → isLink (some line) name = true) ∧
        (isLink (some line) name = true → (∀ word ∈ (positionals parts).take k,
          isLink (some line) word = false) →
          ∃ c, locate? parts (some line) = some c ∧ c.first = place) ∧
        ∃ own, pieces[place]? = some own ∧ own.word = name.toList ∧
          (isLink (some line) name = true ↔
            ¬ WhollyQuoted own.source name.toList ∧
            ¬ EnclosedElsewhere pieces place name.toList) ∧
          ((isLink (some line) name = true ↔ Unquoted own.source) ↔
            Unquoted own.source ∧ ¬ EnclosedElsewhere pieces place name.toList ∨
            ¬ Unquoted own.source ∧
              (WhollyQuoted own.source name.toList ∨
                EnclosedElsewhere pieces place name.toList)) := by
  obtain ⟨pieces, trail, layout, -⟩ := Words.split_eq_ok_iff.1 hsplit
  refine ⟨⟨pieces, trail, layout⟩, ?_⟩
  clear layout
  intro pieces trail layout k place name hplace hname hknown
  refine ⟨fun c => isLink_of_locate? hplace hname,
    exists_locate?_of_isLink hplace hname, ?_⟩
  obtain ⟨own, hown, hword⟩ : ∃ own, pieces[place]? = some own ∧
      own.word = name.toList := by
    have hparts := Words.split_eq_ok_iff.2 ⟨pieces, trail, layout, rfl⟩
    rw [hsplit] at hparts
    rw [Except.ok.inj hparts, List.getElem?_map] at hname
    obtain ⟨own, hown, hword⟩ := Option.map_eq_some_iff.1 hname
    exact ⟨own, hown, by rw [← hword, String.toList_ofList]⟩
  have hlink := isLink_iff layout hown hword hknown
  refine ⟨own, hown, hword, hlink, ?_⟩
  rw [hlink]
  by_cases hquoted : Unquoted own.source
  · have hwhole : ¬ WhollyQuoted own.source name.toList :=
      fun h => h.not_unquoted hquoted
    simp [hquoted, hwhole]
  · by_cases hwhole : WhollyQuoted own.source name.toList
    · simp [hquoted, hwhole]
    · simp [hquoted, hwhole]

theorem isLink_honours_bare :
    Words.split "echo upper 'a b'" = .ok ["echo", "upper", "a b"] ∧
    isLink (some "echo upper 'a b'") "upper" = true ∧
    ∃ pieces trail own, IsLayout "echo upper 'a b'".toList pieces trail ∧
      pieces[1]? = some own ∧
      own.word = "upper".toList ∧ ¬ WhollyQuoted own.source "upper".toList ∧
      ¬ EnclosedElsewhere pieces 1 "upper".toList := by
  have hsplit :
      Words.split "echo upper 'a b'" = .ok ["echo", "upper", "a b"] := rfl
  have hlink : isLink (some "echo upper 'a b'") "upper" = true := rfl
  obtain ⟨⟨pieces, trail, layout⟩, hall⟩ := isLink_honours_iff hsplit
  obtain ⟨-, -, own, hown, hword, hiff, -⟩ :=
    hall pieces trail layout 0 1 "upper" rfl rfl rfl
  obtain ⟨hwhole, helsewhere⟩ := hiff.1 hlink
  exact ⟨hsplit, hlink, pieces, trail, own, layout, hown, hword,
    hwhole, helsewhere⟩

/-- A quoted name behind it keeps a bare one from being a link, and a name that
is quoted in part is one. -/
theorem isLink_mistakes_occurrence :
    (IsLayout "echo upper \"upper\"".toList [⟨[], "echo".toList, "echo".toList⟩,
        ⟨[' '], "upper".toList, "upper".toList⟩,
        ⟨[' '], "\"upper\"".toList, "upper".toList⟩] [] ∧
      Unquoted "upper".toList ∧
      isLink (some "echo upper \"upper\"") "upper" = false ∧
      (runComposed "echo" ["echo", "upper", "upper"]
        (some "echo upper \"upper\"") default).1 = .ok none) ∧
    (IsLayout "echo \"up\"per ab".toList [⟨[], "echo".toList, "echo".toList⟩,
        ⟨[' '], "\"up\"per".toList, "upper".toList⟩,
        ⟨[' '], "ab".toList, "ab".toList⟩] [] ∧
      ¬ Unquoted "\"up\"per".toList ∧
      isLink (some "echo \"up\"per ab") "upper" = true ∧
      (runComposed "echo" ["echo", "upper", "ab"]
        (some "echo \"up\"per ab") default).1 = .ok (some "AB")) := by
  have hecho : Writes "echo".toList "echo".toList := ⟨by simp; rfl, rfl⟩
  have hupper : Writes "upper".toList "upper".toList := ⟨by simp; rfl, rfl⟩
  have hwhole : Writes "\"upper\"".toList "upper".toList := ⟨by simp; rfl, rfl⟩
  have hpart : Writes "\"up\"per".toList "upper".toList := ⟨by simp; rfl, rfl⟩
  have hab : Writes "ab".toList "ab".toList := ⟨by simp; rfl, rfl⟩
  constructor
  · refine ⟨⟨rfl, by simp [isSeparator],
      ?_, by simp, by simp⟩, by simp [Unquoted, isQuote], rfl, rfl⟩
    simp only [forall_mem_cons, not_mem_nil, false_imp_iff,
      implies_true, and_true]
    exact ⟨hecho, hupper, hwhole⟩
  · refine ⟨⟨rfl, by simp [isSeparator],
      ?_, by simp, by simp⟩, by simp [Unquoted, isQuote], rfl, rfl⟩
    simp only [forall_mem_cons, not_mem_nil, false_imp_iff,
      implies_true, and_true]
    exact ⟨hecho, hpart, hab⟩

end TaskShell.Shell

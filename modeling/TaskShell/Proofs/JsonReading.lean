import TaskShell.Json.Writer

/-!
# Reading JSON back

What the writer makes of a document, the reader turns into the document again,
whatever follows it. A string is read code point by code point: each escape is
undone in one step, and one that is written as it is must be no escape and no
control character. Lists and records are read by the recursion that wrote them.
A number is special in that it ends only where what follows it cannot go on, so
this is asked of what follows every value.

## Main results

* `readString_flatMap` - a written string is read back.
* `readNumber_append` - a number that is read to its end is read the same way
  before anything that ends it.
* `readValue_write` - a written value is read back.
* `readDocument_write` - so is a document.
-/

namespace TaskShell.Json

open Text Number List

variable {n fuel : Nat} {c : Sign} {cs blanks k more gap : List Sign} {v : Doc}
  {fields : Fields} {items : List Doc}

variable {s : Settings}

/-! ## Strings -/

theorem hexValue?_hexDigit (h : n < 16) : hexValue? (hexDigit n) = some n := by
  have hall : ∀ n < 16, hexValue? (hexDigit n) = some n := by decide
  exact hall n h

private theorem hex4?_hex (h : n < 0x10000) (rest : List Sign) :
    hex4? ((hex 4 n).map .scalar ++ rest) = some (n, rest) := by
  have hdigits : hex 4 n = [hexDigit (n / 16 / 16 / 16 % 16), hexDigit
      (n / 16 / 16 % 16), hexDigit (n / 16 % 16), hexDigit (n % 16)] := rfl
  have hvalue : ((n / 16 / 16 / 16 % 16 * 16 + n / 16 / 16 % 16) * 16 +
      n / 16 % 16) * 16 + n % 16 = n := by omega
  have hlt : ∀ m, m % 16 < 16 := fun m => Nat.mod_lt m (by decide)
  simp only [hdigits, map_cons, map_nil, cons_append, nil_append, hex4?,
    hexValue?_hexDigit (hlt _), Option.bind_eq_bind, Option.bind_some, hvalue,
    Option.pure_def]

theorem unicodeEscape_hex (h : n < 0xD800) (c : Sign) (rest : List Sign) :
    unicodeEscape s ((hex 4 n).map .scalar ++ c :: rest) =
      .ok (.scalar (Char.ofNat n), c :: rest) := by
  have hhigh : (decide (0xD800 ≤ n) && decide (n ≤ 0xDBFF)) =
      false := by simp; omega
  have hpair :
      (decide (Sign.firstHalf ≤ n) && decide (n ≤ 0xDFFF)) = false := by
    rw [Bool.and_eq_false_iff, decide_eq_false_iff_not]
    exact .inl (Nat.not_le.2 h)
  simp only [unicodeEscape, hex4?_hex (show n < 0x10000 by omega), isEmpty_cons,
    Bool.and_false, Bool.false_eq_true, if_false, hhigh, Sign.ofNat, hpair]

/-- The three ways of `charText` to write a character: by an escape letter, by
its number, or as it is. -/
theorem charText_cases (c : Char) :
    (∃ e, charText false c = ['\\', e] ∧ e ≠ 'u' ∧ escaped? e = some c) ∨
      (charText false c = unicodeText c.toNat ∧ c.toNat < 0x20) ∨
      (charText false c = [c] ∧ c ≠ '"' ∧ c ≠ '\\' ∧ ¬ c.toNat < 0x20) := by
  by_cases hquote : c = '"'
  · exact .inl ⟨'"', by rw [hquote]; rfl, by decide, by rw [hquote]; rfl⟩
  by_cases hslash : c = '\\'
  · exact .inl ⟨'\\', by rw [hslash]; rfl, by decide, by rw [hslash]; rfl⟩
  by_cases hfeed : c = '\n'
  · exact .inl ⟨'n', by rw [hfeed]; rfl, by decide, by rw [hfeed]; rfl⟩
  by_cases hreturn : c = '\r'
  · exact .inl ⟨'r', by rw [hreturn]; rfl, by decide, by rw [hreturn]; rfl⟩
  by_cases htab : c = '\t'
  · exact .inl ⟨'t', by rw [htab]; rfl, by decide, by rw [htab]; rfl⟩
  by_cases hback : c = '\x08'
  · exact .inl ⟨'b', by rw [hback]; rfl, by decide, by rw [hback]; rfl⟩
  by_cases hform : c = '\x0c'
  · exact .inl ⟨'f', by rw [hform]; rfl, by decide, by rw [hform]; rfl⟩
  by_cases hlow : c.toNat < 0x20
  · exact .inr (.inl ⟨by simp [charText, hquote, hslash, hfeed, hreturn, htab,
      hback, hform, hlow], hlow⟩)
  · exact .inr (.inr ⟨by simp [charText, hquote, hslash, hfeed, hreturn, htab,
      hback, hform, hlow], hquote, hslash, hlow⟩)

/-- `readString` reads a code point back in one step, if something follows
it. -/
theorem readString_signText (opened fuel : Nat) (c next : Sign)
    (rest done : List Sign) :
    readString s opened (fuel + 1) (signText false c ++ next :: rest) done =
      readString s opened fuel (next :: rest) (c :: done) := by
  cases c with
  | half n => rfl
  | scalar c =>
    show readString s opened (fuel + 1) ((charText false c).map .scalar ++
      next :: rest) done = _
    rcases charText_cases c with ⟨e, htext, he, hescaped⟩ | ⟨htext, hlow⟩ |
      ⟨htext, hquote, hslash, hlow⟩
    · simp [htext, readString, escapedBy?, hescaped, he]
    · have hescape :=
        unicodeEscape_hex (s := s) (show c.toNat < 0xD800 by omega) next rest
      rw [Char.ofNat_toNat] at hescape
      rw [htext]
      show (unicodeEscape s ((hex 4 c.toNat).map .scalar ++ next :: rest) >>=
        _) = _
      rw [hescape]
      rfl
    · simp [htext, readString, hslash, hlow]

/-- **`readString` reads a written string back** up to its closing quote. -/
theorem readString_flatMap (opened : Nat) (cs rest : List Sign)
    (h : cs.length < fuel) (done : List Sign) :
    readString s opened fuel
      (cs.flatMap (signText false) ++ .scalar '"' :: rest) done =
      .ok (done.reverse ++ cs, rest) := by
  induction cs generalizing fuel done with
  | nil =>
    cases fuel with
    | zero => exact absurd h (Nat.not_lt_zero _)
    | succ fuel =>
      rw [append_nil]
      rfl
  | cons c cs ih =>
    cases fuel with
    | zero => exact absurd h (Nat.not_lt_zero _)
    | succ fuel =>
      have hread := ih (Nat.lt_of_succ_lt_succ h) (c :: done)
      -- the closing quote is there, so something follows the code point
      obtain ⟨next, more, hmore⟩ : ∃ next more,
          cs.flatMap (signText false) ++ .scalar '"' :: rest = next :: more :=
        List.exists_cons_of_ne_nil (by simp)
      rw [hmore] at hread
      rw [List.flatMap_cons, List.append_assoc, hmore, readString_signText,
        hread, List.reverse_cons, List.append_assoc]
      rfl

theorem stringText_append (ascii : Bool) (cs rest : List Sign) :
    stringText ascii cs ++ rest =
    .scalar '"' :: (cs.flatMap (signText ascii) ++ .scalar '"' :: rest) := by
  simp [stringText]

/-! ## Numbers and words -/

/-- What may follow a value: nothing, a separator, a bracket or a blank. -/
def Stops (rest : List Sign) : Prop :=
  ∀ c, rest.head? = some c → c = ',' ∨ c = ']' ∨ c = '\x7d' ∨
    isJsonBlank c = true

def isPlain (c : Char) : Bool :=
  isAsciiDigit c || c.isAlpha || c == '.' || c == '+' || c == '-'

def Ends (rest : List Char) : Prop := ∀ c, rest.head? = some c →
    isPlain c = false

theorem Stops.ends {rest : List Sign} (h : Stops rest) :
    Ends (scalars rest) := by
  intro c hc
  cases rest with
  | nil => cases hc
  | cons d rest =>
    cases d with
    | half n => cases hc
    | scalar d =>
      cases hc
      rcases h _ rfl with heq | heq | heq | hblank
      · cases heq
        decide
      · cases heq
        decide
      · cases heq
        decide
      · simp only [isJsonBlank, Bool.or_eq_true, beq_iff_eq,
          Sign.scalar.injEq] at hblank
        rcases hblank with ((rfl | rfl) | rfl) | rfl <;> decide

theorem Ends.ne {c d : Char} {rest : List Char} (h : Ends (c :: rest))
    (hd : isPlain d = true) : c ≠ d := by
  intro hc
  have hplain := h c rfl
  rw [hc, hd] at hplain
  cases hplain

def wholeDigits (body : List Char) : List Char :=
  match body with
  | '0' :: _ => ['0']
  | _ => body.takeWhile isAsciiDigit

theorem length_wholeDigits_le (body : List Char) :
    (wholeDigits body).length ≤ body.length := by
  unfold wholeDigits
  split
  · simp
  · exact (List.takeWhile_sublist _).length_le

def readUnsigned (negative : Bool)
    (body : List Char) : Option (Except ReadFault (Doc × List Char)) :=
  if (wholeDigits body).isEmpty then none
  else
    let (part, rest) := fraction (body.drop (wholeDigits body).length)
    match part, exponent? rest with
    | [], none =>
      if maxDigits < (wholeDigits body).length then
        some (.error (.longInteger (wholeDigits body).length))
      else
        let n : Int := decimal (wholeDigits body)
        some (.ok (.int (if negative then -n else n), rest))
    | _, none =>
      some (.ok (.float (ofDecimal negative (decimal (wholeDigits body ++ part))
        (-part.length)), rest))
    | _, some (e, rest) =>
      some (.ok (.float (ofDecimal negative (decimal (wholeDigits body ++ part))
        (e - part.length)), rest))

theorem readNumber_eq (cs : List Char) : readNumber cs =
    readUnsigned (cs.head? == some '-') (if cs.head? == some '-' then cs.drop 1
      else cs) := rfl

section Ends

variable {rest : List Char} (hrest : Ends rest)

include hrest

theorem takeWhile_append_of_ends (cs : List Char) :
    (cs ++ rest).takeWhile isAsciiDigit = cs.takeWhile isAsciiDigit := by
  induction cs with
  | nil =>
    cases rest with
    | nil => rfl
    | cons c rest =>
      have hc : isAsciiDigit c = false := by
        have hplain := hrest c rfl
        simp only [isPlain, Bool.or_eq_false_iff] at hplain
        exact hplain.1.1.1.1
      rw [List.nil_append, List.takeWhile_cons_of_neg (by simp [hc])]
      rfl
  | cons c cs ih =>
    rw [List.cons_append, List.takeWhile_cons, List.takeWhile_cons, ih]

omit hrest in
theorem drop_append_takeWhile (cs : List Char) :
    (cs ++ rest).drop (cs.takeWhile isAsciiDigit).length =
      cs.drop (cs.takeWhile isAsciiDigit).length ++ rest :=
  List.drop_append_of_le_length (List.takeWhile_sublist _).length_le

theorem fraction_append (cs : List Char) :
    fraction (cs ++ rest) = ((fraction cs).1, (fraction cs).2 ++ rest) := by
  cases cs with
  | nil =>
    cases rest with
    | nil => rfl
    | cons c rest =>
      have hc : c ≠ '.' := hrest.ne (by decide)
      simp [fraction, hc]
  | cons c cs =>
    by_cases hc : c = '.'
    · rw [hc, List.cons_append, fraction, fraction]
      simp only [takeWhile_append_of_ends hrest, drop_append_takeWhile]
      split
      · rfl
      · rfl
    · simp [fraction, hc]

private theorem splitSign_append (cs : List Char) :
    splitSign (cs ++ rest) = ((splitSign cs).1, (splitSign cs).2 ++ rest) := by
  cases cs with
  | nil =>
    cases rest with
    | nil => rfl
    | cons c rest =>
      have hplus : c ≠ '+' := hrest.ne (by decide)
      have hminus : c ≠ '-' := hrest.ne (by decide)
      simp [splitSign, hplus, hminus]
  | cons c cs =>
    by_cases hminus : c = '-'
    · rw [hminus]
      rfl
    · by_cases hplus : c = '+'
      · rw [hplus]
        rfl
      · simp [splitSign, hplus, hminus]

theorem exponent?_append (cs : List Char) :
    exponent? (cs ++ rest) = (exponent? cs).map fun found =>
      (found.1, found.2 ++ rest) := by
  cases cs with
  | nil =>
    cases rest with
    | nil => rfl
    | cons c rest =>
      have he : c ≠ 'e' := hrest.ne (by decide)
      have hE : c ≠ 'E' := hrest.ne (by decide)
      simp [exponent?, he, hE]
  | cons c cs =>
    rw [List.cons_append, exponent?, exponent?]
    split
    · rw [splitSign_append hrest]
      simp only [takeWhile_append_of_ends hrest, drop_append_takeWhile]
      split
      · rfl
      · rfl
    · rfl

private theorem wholeDigits_append (body : List Char) :
    wholeDigits (body ++ rest) = wholeDigits body := by
  cases body with
  | nil =>
    cases rest with
    | nil => rfl
    | cons c rest =>
      have hc : c ≠ '0' := hrest.ne (by decide)
      have hnone := takeWhile_append_of_ends hrest []
      rw [List.nil_append] at hnone ⊢
      simpa [wholeDigits, hc] using hnone
  | cons c body =>
    by_cases hc : c = '0'
    · rw [hc]
      rfl
    · have hwhole := takeWhile_append_of_ends hrest (c :: body)
      rw [List.cons_append] at hwhole ⊢
      simpa [wholeDigits, hc] using hwhole

private theorem readUnsigned_append (negative : Bool) (body : List Char) :
    readUnsigned negative (body ++ rest) =
    (readUnsigned negative body).map fun outcome => outcome.map fun found =>
      (found.1, found.2 ++ rest) := by
  unfold readUnsigned
  rw [wholeDigits_append hrest]
  split
  · rfl
  · rw [List.drop_append_of_le_length (length_wholeDigits_le body),
      fraction_append hrest]
    rcases fraction (body.drop (wholeDigits body).length) with ⟨part, more⟩
    simp only [exponent?_append hrest]
    cases part with
    | nil =>
      cases exponent? more with
      | none =>
        dsimp only [Option.map_none]
        split
        · rfl
        · rfl
      | some found => rfl
    | cons d part =>
      cases exponent? more with
      | none => rfl
      | some found => rfl

/-- **A number ends where what follows it cannot go on**, so what follows does
not change how `readNumber` reads it. -/
theorem readNumber_append (cs : List Char) :
    readNumber (cs ++ rest) = (readNumber cs).map fun outcome =>
      outcome.map fun found => (found.1, found.2 ++ rest) := by
  have hnegative :
      ((cs ++ rest).head? == some '-') = (cs.head? == some '-') := by
    cases cs with
    | nil =>
      cases rest with
      | nil => rfl
      | cons c rest =>
        have hc : c ≠ '-' := hrest.ne (by decide)
        simp [hc]
    | cons c cs => rfl
  have hbody :
      (if cs.head? == some '-' then (cs ++ rest).drop 1 else cs ++ rest) =
      (if cs.head? == some '-' then cs.drop 1 else cs) ++ rest := by
    split
    · next hc =>
      cases cs with
      | nil => cases hc
      | cons c cs => rfl
    · rfl
  rw [readNumber_eq, readNumber_eq, hnegative, hbody, readUnsigned_append hrest]

theorem afterStart?_append {word : List Char} (hword : word.all isPlain = true)
    (cs : List Char) :
    afterStart? word (cs ++ rest) = (afterStart? word cs).map (· ++ rest) := by
  induction word generalizing cs with
  | nil => rfl
  | cons p word ih =>
    rw [List.all_cons, Bool.and_eq_true] at hword
    cases cs with
    | nil =>
      cases rest with
      | nil => rfl
      | cons c rest =>
        have hc : (p == c) = false := by
          rw [beq_eq_false_iff_ne]
          exact (hrest.ne hword.1).symm
        rw [List.nil_append]
        simp [afterStart?, hc]
    | cons c cs =>
      rw [List.cons_append, afterStart?, afterStart?]
      split
      · exact ih hword.2 cs
      · rfl

private theorem readWord_append (cs : List Char) :
    readWord (cs ++ rest) = (readWord cs).map fun found =>
      (found.1, found.2 ++ rest) := by
  have hwords : ∀ entry ∈ wordValues, entry.1.toList.all isPlain =
      true := by decide
  unfold readWord
  generalize wordValues = words at hwords
  induction words with
  | nil => rfl
  | cons entry words ih =>
    obtain ⟨word, v⟩ := entry
    rw [List.findSome?_cons, List.findSome?_cons]
    dsimp only
    rw [afterStart?_append hrest (hwords _ List.mem_cons_self)]
    cases afterStart? word.toList cs with
    | none => exact ih fun e he => hwords e (List.mem_cons_of_mem _ he)
    | some more => rfl

theorem readLeaf_append (cs : List Char) : readLeaf (cs ++ rest) =
    (readLeaf cs).map fun outcome => outcome.map fun found =>
      (found.1, found.2 ++ rest) := by
  unfold readLeaf
  rw [readNumber_append hrest, readWord_append hrest]
  cases readNumber cs with
  | some outcome => rfl
  | none =>
    cases readWord cs with
    | some found => rfl
    | none => rfl

end Ends

/-! ## Characters before the first half -/

theorem scalars_append (cs : List Char) (rest : List Sign) :
    scalars (cs.map .scalar ++ rest) = cs ++ scalars rest := by
  induction cs with
  | nil => rfl
  | cons c cs ih => exact congrArg (c :: ·) ih

theorem scalars_map (cs : List Char) : scalars (cs.map .scalar) = cs := by
  have h := scalars_append cs []
  rwa [List.append_nil, show scalars [] = [] from rfl, List.append_nil] at h

private theorem scalars_isPrefix (cs : List Sign) :
    (scalars cs).map .scalar <+: cs := by
  induction cs with
  | nil => exact List.prefix_refl _
  | cons c cs ih =>
    cases c with
    | half n => exact List.nil_prefix
    | scalar c => exact (List.cons_prefix_cons).2 ⟨rfl, ih⟩

/-- What `readPlain` reads as a whole is a number or a word of characters. -/
theorem readPlain_eq_ok_nil (h : readPlain cs = .ok (v, [])) :
    ∃ chars, cs = chars.map .scalar ∧ readLeaf chars = some (.ok (v, [])) := by
  unfold readPlain at h
  split at h
  · next u left hleaf =>
    obtain ⟨rfl, hdrop⟩ := Prod.mk.inj (Except.ok.inj h)
    have hlength := List.drop_eq_nil_iff.1 hdrop
    obtain ⟨more, hmore⟩ := scalars_isPrefix cs
    have htotal := congrArg List.length hmore
    rw [List.length_append, List.length_map] at htotal
    -- all of the text is taken, so nothing of it is left and it has no halves
    have hnone : more = [] := List.length_eq_zero_iff.1 (by omega)
    have hleft : left = [] := by
      cases hchars : scalars cs with
      | nil =>
        rw [hchars] at hleaf
        cases hleaf
      | cons c chars =>
        rw [hchars, List.length_cons] at hlength htotal
        exact List.length_eq_zero_iff.1 (by omega)
    rw [hleft] at hleaf
    rw [hnone, List.append_nil] at hmore
    exact ⟨scalars cs, hmore.symm, hleaf⟩
  · cases h
  · cases h

theorem readPlain_append {rest : List Sign} (h : readPlain cs = .ok (v, []))
    (hrest : Stops rest) : readPlain (cs ++ rest) = .ok (v, rest) := by
  obtain ⟨chars, rfl, hleaf⟩ := readPlain_eq_ok_nil h
  unfold readPlain
  rw [scalars_append, readLeaf_append hrest.ends, hleaf]
  show Except.ok (v,
    List.drop ((chars ++ scalars rest).length - (scalars rest).length) _) = _
  rw [List.length_append, Nat.add_sub_cancel,
    List.drop_left' (List.length_map ..)]

/-- What the first code point of a value is not: a blank, a closing bracket or
the mark of the order of bytes. -/
structure Opens (c : Sign) : Prop where
  blank : isJsonBlank c = false
  bracket : c ≠ ']'
  mark : c ≠ Char.ofNat 0xFEFF

theorem opens_of_readPlain {rest : List Sign}
    (h : readPlain (c :: cs) = .ok (v, rest)) : Opens c := by
  refine ⟨?_, ?_, ?_⟩
  · rw [← Bool.not_eq_true]
    intro hblank
    simp only [isJsonBlank, Bool.or_eq_true, beq_iff_eq] at hblank
    rcases hblank with ((rfl | rfl) | rfl) | rfl <;> cases h
  · rintro rfl
    cases h
  · rintro rfl
    cases h

private theorem head_of_readPlain {rest : List Sign}
    (h : readPlain (c :: cs) = .ok (v, rest)) :
    c ≠ '"' ∧ c ≠ '\x7b' ∧ c ≠ '[' := by
  refine ⟨?_, ?_, ?_⟩
  · rintro rfl
    cases h
  · rintro rfl
    cases h
  · rintro rfl
    cases h

theorem readValue_plain {rest : List Sign} (h : readPlain cs = .ok (v, rest))
    (fuel : Nat) : readValue s (fuel + 1) cs = .ok (v, rest) := by
  cases cs with
  | nil => cases h
  | cons c cs =>
    obtain ⟨hquote, hbrace, hbracket⟩ := head_of_readPlain h
    rw [← h, readValue]
    · intro t ht
      exact hquote (List.cons.inj ht).1
    · intro t ht
      exact hbrace (List.cons.inj ht).1
    · intro t ht
      exact hbracket (List.cons.inj ht).1

/-! ## Values -/

/-- A layout that is read back: only blanks are added to what must stand there,
and no character is escaped without need. -/
structure Layout.Faithful (l : Layout) : Prop where
  ascii : l.ascii = false
  indent : ∀ unit, l.indent = some unit → (signs unit).all isJsonBlank = true
  item : ∃ blanks, signs l.itemSeparator = .scalar ',' :: blanks ∧
    blanks.all isJsonBlank = true
  key : ∃ blanks, signs l.keySeparator = .scalar ':' :: blanks ∧
    blanks.all isJsonBlank = true

mutual

/-- A value that has a text of its own: its numbers are read back, and no record
has two fields of one name. -/
def Legible : Doc → Prop
  | .text _ => True
  | .list items => LegibleItems items
  | .record fields => (fields.map Prod.fst).Nodup ∧ LegibleFields fields
  | v => readPlain (write .line 0 v) = .ok (v, [])

/-- `Legible` for the items of a list. -/
def LegibleItems : List Doc → Prop
  | [] => True
  | v :: rest => Legible v ∧ LegibleItems rest

/-- `Legible` for the fields of a record. -/
def LegibleFields : Fields → Prop
  | [] => True
  | (_, v) :: rest => Legible v ∧ LegibleFields rest

end

theorem skip_append (h : blanks.all isJsonBlank = true) (cs : List Sign) :
    skip (blanks ++ cs) = skip cs :=
  dropWhile_append_of_pos (all_eq_true.1 h)

theorem skip_cons (h : isJsonBlank c = false) (cs : List Sign) :
    skip (c :: cs) = c :: cs :=
  dropWhile_cons_of_neg (by rw [h]; decide)

def itemsText (l : Layout) (level : Nat) : List Doc → List Sign
  | [] => []
  | v :: rest => (write l level v) ++ (writeItems l level rest)

def fieldsText (l : Layout) (level : Nat) : Fields → List Sign
  | [] => []
  | (k, v) :: rest =>
    (stringText l.ascii k) ++ (signs l.keySeparator ++
      ((write l level v) ++ (writeFields l level rest)))

section Writing

variable {l : Layout}

theorem newline_blank (hl : l.Faithful) (level : Nat) :
    (newline l level).all isJsonBlank = true := by
  unfold newline
  split
  · rfl
  · next unit hunit =>
    have hunits : ((List.replicate level (signs unit)).flatten).all
        isJsonBlank = true := by
      rw [all_flatten, all_eq_true]
      intro cs hcs
      rw [(mem_replicate.1 hcs).2]
      exact hl.indent unit hunit
    rw [all_cons, hunits]
    rfl

theorem write_list (level : Nat) (v : Doc) (rest : List Doc) :
    (write l level (.list (v :: rest))) =
    .scalar '[' :: ((newline l (level + 1)) ++ (itemsText l (level + 1)
      (v :: rest) ++ ((newline l level) ++ [.scalar ']']))) := by
  simp [write, itemsText]

theorem write_record (level : Nat) (k : List Sign) (v : Doc) (rest : Fields) :
    (write l level (.record ((k, v) :: rest))) =
      .scalar '\x7b' :: ((newline l (level + 1)) ++ (fieldsText l (level + 1)
        ((k, v) :: rest) ++ ((newline l level) ++ [.scalar '\x7d']))) := by
  simp [write, fieldsText]

theorem writeItems_nil (level : Nat) : writeItems l level [] = [] := by
  rw [writeItems]

theorem writeFields_nil (level : Nat) : writeFields l level [] = [] := by
  rw [writeFields]

theorem writeItems_cons (level : Nat) (v : Doc) (rest : List Doc) :
    (writeItems l level (v :: rest)) =
    signs l.itemSeparator ++
      ((newline l level) ++ itemsText l level (v :: rest)) := by
  simp [writeItems, itemsText]

theorem writeFields_cons (level : Nat) (k : List Sign) (v : Doc)
    (rest : Fields) :
    (writeFields l level ((k, v) :: rest)) =
      signs l.itemSeparator ++
        ((newline l level) ++ fieldsText l level ((k, v) :: rest)) := by
  simp [writeFields, fieldsText]

theorem fieldsText_head (level : Nat) (k : List Sign) (v : Doc)
    (fields : Fields) :
    ∃ cs, fieldsText l level ((k, v) :: fields) = .scalar '"' :: cs :=
  ⟨_, by rw [fieldsText, stringText]; rfl⟩

theorem setField_of_not_mem (h : k ∉ fields.map Prod.fst) (v : Doc) :
    setField fields k v = fields ++ [(k, v)] := by
  induction fields with
  | nil => rfl
  | cons entry fields ih =>
    obtain ⟨name, old⟩ := entry
    rw [List.map_cons, List.mem_cons, not_or] at h
    have hname : (name == k) = false := by
      rw [beq_eq_false_iff_ne]
      exact fun hk => h.1 hk.symm
    rw [setField, hname, ih h.2]
    rfl

private theorem length_le_flatMap_signText (cs : List Sign) :
    cs.length ≤ (cs.flatMap (signText false)).length := by
  induction cs with
  | nil => exact Nat.le_refl _
  | cons c cs ih =>
    have hone : 1 ≤ (signText false c).length := by
      cases c with
      | half n => exact Nat.le_refl _
      | scalar c =>
        show 1 ≤ ((charText false c).map Sign.scalar).length
        rw [List.length_map]
        rcases charText_cases c with ⟨e, htext, -⟩ | ⟨htext, -⟩ | ⟨htext, -⟩ <;>
          rw [htext] <;> simp [unicodeText]
    rw [List.flatMap_cons, List.length_append, List.length_cons]
    omega

theorem readString_stringText (opened : Nat) (cs rest : List Sign) :
    readString s opened
      ((cs.flatMap (signText false) ++ .scalar '"' :: rest).length + 1)
      (cs.flatMap (signText false) ++ .scalar '"' :: rest) [] =
        .ok (cs, rest) := by
  have hlength := length_le_flatMap_signText cs
  rw [readString_flatMap]
  · rfl
  · rw [List.length_append]
    omega

/-! ### Steps of the reader -/

theorem skip_comma (cs : List Sign) :
    skip (.scalar ',' :: cs) = .scalar ',' :: cs := skip_cons (by decide) cs

theorem readItems_last {rest : List Sign} (done : List Doc)
    (hread : readValue s fuel cs = .ok (v, blanks ++ .scalar ']' :: rest))
    (hblanks : blanks.all isJsonBlank = true) :
    readItems s (fuel + 1) cs done = .ok ((v :: done).reverse, rest) := by
  have hskip : skip (blanks ++ .scalar ']' :: rest) = .scalar ']' :: rest := by
    rw [skip_append hblanks, skip_cons (by decide)]
  rw [readItems, hread]
  simp only [bind, Except.bind, hskip]
  rfl

theorem readItems_more (done : List Doc)
    (hread : readValue s fuel cs =
      .ok (v, .scalar ',' :: (blanks ++ c :: more)))
    (hblanks : blanks.all isJsonBlank = true) (hc : Opens c) :
    readItems s (fuel + 1) cs done =
      readItems s fuel (c :: more) (v :: done) := by
  have hskip : skip (blanks ++ c :: more) = c :: more := by
    rw [skip_append hblanks, skip_cons hc.blank]
  have hhead : ((c :: more).head? == some (.scalar ']')) = false := by
    simp [hc.bracket]
  rw [readItems, hread]
  simp only [bind, Except.bind, skip_comma, hskip, hhead, Bool.and_false,
    Bool.false_eq_true, if_false]

theorem readFields_last {rest : List Sign} (done : Fields)
    (hgap : gap.all isJsonBlank = true) (hc : Opens c)
    (hread : readValue s fuel (c :: more) =
      .ok (v, blanks ++ .scalar '\x7d' :: rest))
    (hblanks : blanks.all isJsonBlank = true) :
    readFields s (fuel + 1)
      ((stringText false k) ++ .scalar ':' :: (gap ++ c :: more)) done =
      .ok (setField done k v, rest) := by
  have hcolon : ∀ cs, skip (.scalar ':' :: cs) = .scalar ':' :: cs :=
    skip_cons (by decide)
  have hvalue : skip (gap ++ c :: more) = c :: more := by
    rw [skip_append hgap, skip_cons hc.blank]
  have hend : skip (blanks ++ .scalar '\x7d' :: rest) = .scalar '\x7d' ::
      rest := by rw [skip_append hblanks, skip_cons (by decide)]
  rw [stringText_append, readFields]
  simp only [readString_stringText, bind, Except.bind, hcolon,
    hvalue, hread, hend]
  rfl

theorem readFields_more {next : List Sign} (done : Fields)
    (hgap : gap.all isJsonBlank = true) (hc : Opens c)
    (hread : readValue s fuel (c :: more) =
      .ok (v, .scalar ',' :: (blanks ++ .scalar '"' :: next)))
    (hblanks : blanks.all isJsonBlank = true) :
    readFields s (fuel + 1) ((stringText false k) ++ .scalar ':' ::
      (gap ++ c :: more)) done =
      readFields s fuel (.scalar '"' :: next) (setField done k v) := by
  have hcolon : ∀ cs, skip (.scalar ':' :: cs) = .scalar ':' :: cs :=
    skip_cons (by decide)
  have hvalue : skip (gap ++ c :: more) = c :: more := by
    rw [skip_append hgap, skip_cons hc.blank]
  have hnext : skip (blanks ++ .scalar '"' :: next) = .scalar '"' :: next := by
    rw [skip_append hblanks, skip_cons (by decide)]
  have hhead :
      ((.scalar '"' :: next).head? == some (.scalar '\x7d')) = false := rfl
  rw [stringText_append, readFields]
  simp only [readString_stringText, bind, Except.bind, hcolon, hvalue, hread,
    skip_comma, hnext, hhead, Bool.and_false, Bool.false_eq_true, if_false]

theorem readValue_list {rest : List Sign} (hgap : gap.all isJsonBlank = true)
    (hc : Opens c)
    (hread : readItems s fuel (c :: more) [] = .ok (items, rest)) :
    readValue s (fuel + 1) (.scalar '[' :: (gap ++ c :: more)) =
      .ok (.list items, rest) := by
  have hskip : skip (gap ++ c :: more) = c :: more := by
    rw [skip_append hgap, skip_cons hc.blank]
  rw [readValue]
  simp only [hskip]
  split
  · next h => exact absurd (List.cons.inj h).1 hc.bracket
  · rw [hread]
    rfl

theorem readValue_nil_list (fuel : Nat) (rest : List Sign) :
    readValue s (fuel + 1) (.scalar '[' :: .scalar ']' :: rest) =
      .ok (.list [], rest) := by
  rw [readValue]
  simp only [skip_cons (show isJsonBlank ']' = false by decide)]

theorem readValue_nil_record (fuel : Nat) (rest : List Sign) :
    readValue s (fuel + 1) (.scalar '\x7b' :: .scalar '\x7d' :: rest) =
      .ok (.record [], rest) := by
  rw [readValue]
  simp only [skip_cons (show isJsonBlank '\x7d' = false by decide)]

theorem readValue_record {rest : List Sign} (hgap : gap.all isJsonBlank = true)
    (hread : readFields s fuel (.scalar '"' :: more) [] = .ok (fields, rest)) :
    readValue s (fuel + 1) (.scalar '\x7b' :: (gap ++ .scalar '"' :: more)) =
      .ok (.record fields, rest) := by
  have hskip : skip (gap ++ .scalar '"' :: more) = .scalar '"' :: more := by
    rw [skip_append hgap, skip_cons (by decide)]
  rw [readValue]
  simp only [hskip, hread]
  rfl

/-! ### The recursion -/

theorem stops_comma (rest : List Sign) : Stops (.scalar ',' :: rest) := by
  intro c hc
  cases hc
  exact .inl rfl

theorem stops_of_blanks (h : blanks.all isJsonBlank = true) (rest : List Sign)
    (hc : c = ']' ∨ c = '\x7d') : Stops (blanks ++ c :: rest) := by
  intro d hd
  cases blanks with
  | nil =>
    cases hd
    rcases hc with h | h
    · exact .inr (.inl h)
    · exact .inr (.inr (.inl h))
  | cons b blanks =>
    cases hd
    exact .inr (.inr (.inr (all_eq_true.1 h _ mem_cons_self)))

/-- A value whose text starts as values do and is read back, whatever may follow
it. -/
structure ReadsBack (s : Settings) (l : Layout) (v : Doc) : Prop where
  head : ∀ level, ∃ c cs, (write l level v) = c :: cs ∧ Opens c
  read : ∀ (level fuel : Nat) (rest : List Sign),
    (write l level v).length ≤ fuel → Stops rest →
    readValue s fuel ((write l level v) ++ rest) = .ok (v, rest)

theorem readsBack_plain {text : List Sign}
    (hwrite : ∀ level, write l level v = text)
    (h : readPlain text = .ok (v, [])) : ReadsBack s l v where
  head level := by
    rw [hwrite]
    cases htext : text with
    | nil =>
      rw [htext] at h
      cases h
    | cons c cs =>
      rw [htext] at h
      exact ⟨c, cs, rfl, opens_of_readPlain h⟩
  read level fuel rest hfuel hrest := by
    rw [hwrite] at hfuel ⊢
    cases fuel with
    | zero =>
      rw [length_eq_zero_iff.1 (Nat.le_zero.1 hfuel)] at h
      cases h
    | succ fuel => exact readValue_plain (readPlain_append h hrest) fuel

theorem readsBack_text (hl : l.Faithful) (t : List Sign) :
    ReadsBack s l (.text t) where
  head level :=
    ⟨.scalar '"', _, by rw [write]; rfl, by decide, by decide, by decide⟩
  read level fuel rest hfuel hrest := by
    rw [write, hl.ascii] at hfuel ⊢
    cases fuel with
    | zero =>
      rw [stringText] at hfuel
      cases hfuel
    | succ fuel =>
      rw [stringText_append, readValue]
      simp only [readString_stringText, bind, Except.bind]
      rfl

theorem Layout.Faithful.separator (hl : l.Faithful) (level : Nat) :
    ∃ blanks, blanks.all isJsonBlank = true ∧
    ∀ cs, signs l.itemSeparator ++ ((newline l level) ++ cs) =
      .scalar ',' :: (blanks ++ cs) := by
  obtain ⟨gap, hsep, hgap⟩ := hl.item
  refine ⟨gap ++ (newline l level), ?_, ?_⟩
  · rw [List.all_append, hgap, newline_blank hl]
    rfl
  · intro cs
    rw [hsep, List.cons_append, List.append_assoc]

/-- `readItems` reads the items of a list back up to its closing bracket. -/
theorem readItems_itemsText (hl : l.Faithful) (hne : items ≠ [])
    (hitems : ∀ v ∈ items, ReadsBack s l v) (level : Nat)
    (hblanks : blanks.all isJsonBlank = true) (rest : List Sign) (fuel : Nat)
    (hfuel : (itemsText l level items).length < fuel) (done : List Doc) :
    readItems s fuel
      (itemsText l level items ++ (blanks ++ .scalar ']' :: rest)) done =
      .ok (done.reverse ++ items, rest) := by
  induction items generalizing fuel done with
  | nil => exact absurd rfl hne
  | cons v items ih =>
    have hvalue := (hitems v List.mem_cons_self).read level
    cases fuel with
    | zero => cases hfuel
    | succ fuel =>
      rw [itemsText, List.length_append] at hfuel
      rw [itemsText, List.append_assoc]
      cases items with
      | nil =>
        have hread := hvalue fuel (blanks ++ .scalar ']' :: rest) (by omega)
          (stops_of_blanks hblanks rest (.inl rfl))
        rw [writeItems_nil, List.nil_append, readItems_last done hread hblanks,
          List.reverse_cons]
      | cons next items =>
        obtain ⟨gap, hgap, hsep⟩ := hl.separator level
        obtain ⟨c, cs, hhead, hc⟩ := (hitems next (by simp)).head level
        rw [writeItems_cons, hsep, List.length_cons,
          List.length_append] at hfuel
        have hnext := ih (by simp) (fun u hu =>
          hitems u (List.mem_cons_of_mem _ hu)) fuel (by omega) (v :: done)
        rw [itemsText, hhead, List.cons_append, List.cons_append] at hnext
        have hread := hvalue fuel _ (by omega) (stops_comma (gap ++
          c :: (cs ++ (writeItems l level items) ++
            (blanks ++ .scalar ']' :: rest))))
        have hstep := readItems_more done hread hgap hc
        rw [hnext] at hstep
        rw [writeItems_cons, hsep, itemsText, hhead]
        simpa using hstep

private theorem fresh_append {done : Fields} {names : List (List Sign)}
    (hdone : ∀ m ∈ k :: names, m ∉ done.map Prod.fst)
    (hk : k ∉ names) (v : Doc) :
    ∀ m ∈ names, m ∉ (done ++ [(k, v)]).map Prod.fst := by
  intro m hm hmem
  rw [List.map_append, List.mem_append] at hmem
  rcases hmem with hmem | hmem
  · exact hdone m (List.mem_cons_of_mem _ hm) hmem
  · rw [List.map_singleton, List.mem_singleton] at hmem
    rw [hmem] at hm
    exact hk hm

/-- `readFields` reads the fields of a record back up to its closing bracket, if
their names are new. -/
theorem readFields_fieldsText (hl : l.Faithful) (hne : fields ≠ [])
    (hfields : ∀ field ∈ fields, ReadsBack s l field.2)
    (hnodup : (fields.map Prod.fst).Nodup) (level : Nat)
    (hblanks : blanks.all isJsonBlank = true) (rest : List Sign) (fuel : Nat)
    (hfuel : (fieldsText l level fields).length < fuel) (done : Fields)
    (hdone : ∀ k ∈ fields.map Prod.fst, k ∉ done.map Prod.fst) :
    readFields s fuel
      (fieldsText l level fields ++ (blanks ++ .scalar '\x7d' :: rest)) done =
      .ok (done ++ fields, rest) := by
  induction fields generalizing fuel done with
  | nil => exact absurd rfl hne
  | cons field fields ih =>
    obtain ⟨k, v⟩ := field
    have hback := hfields (k, v) List.mem_cons_self
    have hvalue := hback.read level
    obtain ⟨c, cs, hhead, hc⟩ := hback.head level
    obtain ⟨gap, hkey, hgap⟩ := hl.key
    have hset : setField done k v = done ++ [(k, v)] :=
      setField_of_not_mem (hdone k List.mem_cons_self) v
    dsimp only at hvalue hhead
    rw [List.map_cons, List.nodup_cons] at hnodup
    cases fuel with
    | zero => cases hfuel
    | succ fuel =>
      simp only [fieldsText, List.length_append] at hfuel
      cases fields with
      | nil =>
        have hread := hvalue fuel (blanks ++ .scalar '\x7d' :: rest) (by omega)
          (stops_of_blanks hblanks rest (.inr rfl))
        rw [hhead] at hread
        have hlast := readFields_last (k := k) done hgap hc hread hblanks
        rw [hset] at hlast
        rw [fieldsText, hl.ascii, hkey, hhead, writeFields_nil]
        simpa using hlast
      | cons field fields =>
        obtain ⟨name, next⟩ := field
        obtain ⟨space, hspace, hsep⟩ := hl.separator level
        obtain ⟨more, hmore⟩ := fieldsText_head (l := l) level name next fields
        rw [writeFields_cons, hsep, List.length_cons,
          List.length_append] at hfuel
        have hnext := ih (by simp) (fun f hf =>
          hfields f (List.mem_cons_of_mem _ hf)) hnodup.2 fuel
          (by omega) (done ++ [(k, v)]) (fresh_append hdone hnodup.1 v)
        rw [hmore, List.cons_append] at hnext
        have hread := hvalue fuel _ (by omega) (stops_comma (space ++
          .scalar '"' :: (more ++ (blanks ++ .scalar '\x7d' :: rest))))
        rw [hhead] at hread
        have hstep := readFields_more (k := k) done hgap hc hread hspace
        rw [hset, hnext] at hstep
        rw [fieldsText, hl.ascii, hkey, hhead, writeFields_cons, hsep, hmore]
        simpa using hstep

theorem readsBack_list (hl : l.Faithful)
    (hitems : ∀ v ∈ items, ReadsBack s l v) :
    ReadsBack s l (.list items) := by
  cases items with
  | nil =>
    refine ⟨fun level =>
      ⟨'[', [.scalar ']'], by rw [write]; rfl, by decide, by decide, by decide⟩,
      fun level fuel rest hfuel hrest => ?_⟩
    rw [write] at hfuel ⊢
    cases fuel with
    | zero => cases hfuel
    | succ fuel => exact readValue_nil_list fuel rest
  | cons v items =>
    refine ⟨fun level =>
      ⟨'[', _, write_list level v items, by decide, by decide, by decide⟩,
      fun level fuel rest hfuel hrest => ?_⟩
    obtain ⟨c, cs, hhead, hc⟩ := (hitems v mem_cons_self).head (level + 1)
    rw [write_list] at hfuel ⊢
    cases fuel with
    | zero => cases hfuel
    | succ fuel =>
      simp only [length_cons, length_append] at hfuel
      have hread := readItems_itemsText hl (by simp) hitems (level + 1)
        (newline_blank hl level) rest fuel (by omega) []
      rw [itemsText, hhead] at hread ⊢
      simp only [cons_append, append_assoc, nil_append, reverse_nil] at hread ⊢
      exact readValue_list (newline_blank hl _) hc hread

private theorem readsBack_record (hl : l.Faithful)
    (hfields : ∀ field ∈ fields, ReadsBack s l field.2)
    (hnodup : (fields.map Prod.fst).Nodup) :
    ReadsBack s l (.record fields) := by
  cases fields with
  | nil =>
    refine ⟨fun level => ⟨'\x7b',
      [.scalar '\x7d'], by rw [write]; rfl, by decide, by decide, by decide⟩,
      fun level fuel rest hfuel hrest => ?_⟩
    rw [write] at hfuel ⊢
    cases fuel with
    | zero => cases hfuel
    | succ fuel => exact readValue_nil_record fuel rest
  | cons field fields =>
    obtain ⟨k, v⟩ := field
    refine ⟨fun level => ⟨'\x7b', _,
      write_record level k v fields, by decide, by decide, by decide⟩,
      fun level fuel rest hfuel hrest => ?_⟩
    obtain ⟨cs, hhead⟩ := fieldsText_head (l := l) (level + 1) k v fields
    rw [write_record] at hfuel ⊢
    cases fuel with
    | zero => cases hfuel
    | succ fuel =>
      simp only [length_cons, length_append] at hfuel
      have hread := readFields_fieldsText hl (by simp) hfields hnodup
        (level + 1) (newline_blank hl level) rest fuel (by omega) [] (by simp)
      rw [hhead] at hread ⊢
      simp only [cons_append, append_assoc, nil_append] at hread ⊢
      exact readValue_record (newline_blank hl _) hread

mutual

/-- **A `Legible` value is read back**, whatever may follow it. -/
theorem readsBack_of_legible (hl : l.Faithful) :
    ∀ v : Doc, Legible v → ReadsBack s l v
  | .null, h => readsBack_plain (fun _ => rfl) h
  | .bool true, h => readsBack_plain (fun _ => rfl) h
  | .bool false, h => readsBack_plain (fun _ => rfl) h
  | .int _, h => readsBack_plain (fun _ => rfl) h
  | .float _, h => readsBack_plain (fun _ => rfl) h
  | .text t, _ => readsBack_text hl t
  | .list items, h => readsBack_list hl (readsBack_of_items hl items h)
  | .record fields, h =>
    readsBack_record hl (readsBack_of_fields hl fields h.2) h.1

theorem readsBack_of_items (hl : l.Faithful) :
    ∀ items : List Doc, LegibleItems items → ∀ v ∈ items, ReadsBack s l v
  | [], _, v, hv => absurd hv not_mem_nil
  | u :: items, h, v, hv => by
      have hu := readsBack_of_legible hl u h.1
      have hitems := readsBack_of_items hl items h.2
      rcases mem_cons.1 hv with rfl | hv
      · exact hu
      · exact hitems v hv

theorem readsBack_of_fields (hl : l.Faithful) :
    ∀ fields : Fields, LegibleFields fields →
    ∀ field ∈ fields, ReadsBack s l field.2
  | [], _, field, hfield => absurd hfield not_mem_nil
  | (k, u) :: fields, h, field, hfield => by
      have hu := readsBack_of_legible hl u h.1
      have hfields := readsBack_of_fields hl fields h.2
      rcases mem_cons.1 hfield with rfl | hfield
      · exact hu
      · exact hfields field hfield

end

/-- **`readDocument` reads a written document back.** -/
theorem readDocument_write (hl : l.Faithful) (h : Legible v) :
    readDocument s (write l 0 v) = .ok v := by
  have hback : ReadsBack s l v := readsBack_of_legible hl v h
  have hread := hback.read 0 ((write l 0 v).length + 1) [] (Nat.le_succ _)
    (fun c hc => by cases hc)
  obtain ⟨c, cs, hhead, hc⟩ := hback.head 0
  rw [append_nil, hhead] at hread
  have hmark : ((c :: cs).head? == some (.scalar (Char.ofNat 0xFEFF))) =
      false := by simp [hc.mark]
  rw [readDocument, hhead, hmark, skip_cons hc.blank]
  show (readValue s ((c :: cs).length + 1) (c :: cs) >>= _) = _
  rw [hread]
  rfl

end Writing

/-! ## Texts without halves -/

/-- Code points that are characters, all of them. -/
def Whole (cs : List Sign) : Prop := ∀ c ∈ cs, c.isHalf = false

theorem whole_map (cs : List Char) : Whole (cs.map .scalar) := by
  intro c hc
  obtain ⟨d, -, rfl⟩ := mem_map.1 hc
  rfl

theorem Whole.append {ds : List Sign} (hcs : Whole cs) (hds : Whole ds) :
    Whole (cs ++ ds) :=
  forall_mem_append.2 ⟨hcs, hds⟩

theorem Whole.signs_textOf (h : Whole cs) : signs (textOf cs) = cs := by
  rw [signs, textOf, String.toList_ofList]
  induction cs with
  | nil => rfl
  | cons c cs ih =>
    obtain ⟨hc, hcs⟩ := forall_mem_cons.1 h
    cases c with
    | scalar c => exact congrArg (.scalar c :: ·) (ih hcs)
    | half n => cases hc

theorem length_signs (text : String) :
    (signs text).length = text.toList.length := length_map _

theorem textOf_signs (text : String) : textOf (signs text) = text := by
  rw [textOf, signs, map_map, show Sign.char ∘ Sign.scalar = id from rfl,
    map_id, String.ofList_toList]

theorem whole_stringText (ascii : Bool) (text : String) :
    Whole (stringText ascii (signs text)) := by
  have hchars : Whole ((signs text).flatMap (signText ascii)) := by
    intro c hc
    obtain ⟨d, hd, hc⟩ := mem_flatMap.1 hc
    obtain ⟨e, -, rfl⟩ := mem_map.1 hd
    exact whole_map (charText ascii e) c hc
  exact Whole.append (forall_mem_cons.2 ⟨rfl, hchars⟩) (whole_map ['"'])

theorem whole_newline (l : Layout) (level : Nat) : Whole (newline l level) := by
  unfold newline
  split
  · exact whole_map []
  · intro c hc
    rcases mem_cons.1 hc with rfl | hc
    · rfl
    · obtain ⟨unit, hunit, hc⟩ := mem_flatten.1 hc
      rw [eq_of_mem_replicate hunit] at hc
      exact whole_map _ c hc

mutual

/-- What `write` makes of a `Value` has no halves. -/
theorem whole_write (l : Layout) :
    ∀ (level : Nat) (v : Value), Whole (write l level (.ofValue v))
  | _, .null => whole_map _
  | _, .bool true => whole_map _
  | _, .bool false => whole_map _
  | _, .int _ => whole_map _
  | _, .float _ => whole_map _
  | _, .text t => whole_stringText l.ascii t
  | _, .list [] => whole_map _
  | level, .list (v :: rest) =>
    ((((whole_map ['[']).append (whole_newline l _)).append
      (whole_write l (level + 1) v)).append
      (whole_writeItems l (level + 1) rest)).append (whole_newline l level)
        |>.append (whole_map [']'])
  | _, .record [] => whole_map _
  | level, .record ((k, v) :: rest) =>
    ((((((whole_map ['\x7b']).append (whole_newline l _)).append
      (whole_stringText l.ascii k)).append (whole_map _)).append
      (whole_write l (level + 1) v)).append (whole_writeFields l (level + 1)
        rest)).append (whole_newline l level)
      |>.append (whole_map ['\x7d'])

theorem whole_writeItems (l : Layout) : ∀ (level : Nat) (items : List Value),
    Whole (writeItems l level (Doc.ofItems items))
  | _, [] => whole_map []
  | level, v :: rest =>
    (((whole_map _).append (whole_newline l level)).append
      (whole_write l level v)).append (whole_writeItems l level rest)

theorem whole_writeFields (l : Layout) :
    ∀ (level : Nat) (fields : List (String × Value)),
    Whole (writeFields l level (Doc.ofFields fields))
  | _, [] => whole_map []
  | level, (k, v) :: rest =>
    (((((whole_map _).append (whole_newline l level)).append
      (whole_stringText l.ascii k)).append (whole_map _)).append
      (whole_write l level v)).append (whole_writeFields l level rest)

end

mutual

/-- A `Value` is what its document stands for. -/
theorem toValue_ofValue : ∀ v : Value, (Doc.ofValue v).toValue = v
  | .null => rfl
  | .bool _ => rfl
  | .int _ => rfl
  | .float _ => rfl
  | .text t => congrArg Value.text (textOf_signs t)
  | .list items => congrArg Value.list (toItems_ofItems items)
  | .record fields => congrArg Value.record (toFields_ofFields fields)

theorem toItems_ofItems :
    ∀ items : List Value, Doc.toItems (Doc.ofItems items) = items
  | [] => rfl
  | v :: rest => by
    rw [Doc.ofItems, Doc.toItems, toValue_ofValue v, toItems_ofItems rest]

theorem toFields_ofFields : ∀ fields : List (String × Value),
    Doc.toFields (Doc.ofFields fields) = fields
  | [] => rfl
  | (k, v) :: rest => by
    rw [Doc.ofFields, Doc.toFields, textOf_signs, toValue_ofValue v,
      toFields_ofFields rest]

end

end TaskShell.Json

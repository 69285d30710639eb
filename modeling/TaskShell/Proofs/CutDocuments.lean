import TaskShell.Proofs.JsonNumbers
import TaskShell.Proofs.Utf8

/-!
# Documents that are cut off

A record that was written and then cut off is no document. Its end is a brace
that stands outside of all strings, and the reader comes to it only by way of
every name and value. A string that is cut off is never closed. A number that is
cut off may still be one, but what follows a number is a comma or a brace, and
these are missing then. That a number is read back is not needed for that: what
the reader leaves of it goes on like a number, and a record does not.
-/

namespace TaskShell.Json

open Text Number List

variable {p blanks gap cs rest : List Sign} {c : Sign} {v : Doc}
  {fields : Fields}

variable {s : Settings}

theorem error_of_bind {ε α β : Type} {x : Except ε α} {g : α → Except ε β}
    (h : ∀ a, x = .ok a → ∃ f, g a = .error f) :
    ∃ f, x >>= g = .error f := by
  cases x with
  | error f => exact ⟨f, rfl⟩
  | ok a => exact h a rfl

theorem all_of_start (h : p <+: blanks)
    (hblanks : blanks.all isJsonBlank = true) : p.all isJsonBlank = true :=
  all_eq_true.2 fun c hc => all_eq_true.1 hblanks c (h.subset hc)

theorem skip_of_all (h : blanks.all isJsonBlank = true) : skip blanks = [] := by
  have hskip := skip_append h []
  rw [append_nil] at hskip
  exact hskip

theorem skip_of_cut {more : List Sign} (hgap : gap.all isJsonBlank = true)
    (hcs : cs = c :: more) (hc : isJsonBlank c = false) (h : p <+: gap ++ cs)
    (hcut : p ≠ gap ++ cs) : skip p <+: cs ∧ skip p ≠ cs := by
  rcases prefix_append_cases h with ⟨hblank, -⟩ | ⟨q, rfl, hrest⟩
  · rw [skip_of_all (all_of_start hblank hgap), hcs]
    exact ⟨ nil_prefix, cons_ne_nil c more |>.symm⟩
  · have hskip : skip q = q := by
      cases q with
      | nil => rfl
      | cons d q =>
        rw [hcs] at hrest
        rw [(cons_prefix_cons.1 hrest).1]
        exact skip_cons hc q
    rw [skip_append hgap, hskip]
    exact ⟨hrest, fun heq => hcut (by rw [heq])⟩

/-! ## Strings -/

section Strings

variable (opened fuel : Nat) (done : List Sign)

theorem readString_nil : ∃ f, readString s opened fuel [] done = .error f := by
  cases fuel with
  | zero => exact ⟨_, rfl⟩
  | succ fuel => exact ⟨_, rfl⟩

private theorem hex4?_short {n : Nat} (hcs : cs.length ≤ 4)
    (h : hex4? cs = some (n, rest)) : rest = [] := by
  unfold hex4? at h
  split at h
  · next a b c d left =>
    obtain rfl : left = [] := by
      simp only [length_cons] at hcs
      exact eq_nil_of_length_eq_zero (by omega)
    simp only [Option.bind_eq_bind, Option.bind_eq_some_iff, Option.pure_def,
      Option.some.injEq, Prod.mk.injEq] at h
    obtain ⟨_, _, _, _, _, _, _, _, _, hrest⟩ := h
    exact hrest.symm
  · cases h

private theorem unicodeEscape_short (hcs : cs.length ≤ 4)
    (h : unicodeEscape s cs = .ok (c, rest)) : rest = [] := by
  unfold unicodeEscape at h
  dsimp only at h
  cases hhex : hex4? cs with
  | none =>
    rw [hhex] at h
    cases h
  | some found =>
    obtain ⟨n, left⟩ := found
    rw [hhex, hex4?_short hcs hhex] at h
    dsimp only at h
    split at h
    · cases h
    · split at h
      · cases h
        rfl
      · cases h
        rfl

theorem readString_of_cut_char {c : Char} {p : List Char}
    (h : p <+: charText false c) :
    ∃ f, readString s opened fuel (p.map .scalar) done = .error f := by
  cases fuel with
  | zero => exact ⟨_, rfl⟩
  | succ fuel =>
    rcases charText_cases c with ⟨e, htext, he, hescaped⟩ | ⟨htext, hlow⟩ |
      ⟨htext, hquote, hslash, hlow⟩
    · rw [htext] at h
      rcases prefix_cons_iff.1 h with rfl | ⟨p, rfl, hmore⟩
      · exact ⟨_, rfl⟩
      · rcases prefix_cons_iff.1 hmore with rfl | ⟨p, rfl, hlast⟩
        · exact ⟨_, rfl⟩
        · rw [prefix_nil.1 hlast]
          have hread : readString s opened (fuel + 1) [.scalar '\\', .scalar e]
              done = readString s opened fuel [] (.scalar c :: done) := by
            rw [readString]
            · rw [escapedBy?, hescaped]
            · exact fun heq => he (Sign.scalar.inj heq)
          rw [map_cons, map_singleton, hread]
          exact readString_nil opened fuel (.scalar c :: done)
    · rw [htext, unicodeText] at h
      rcases prefix_cons_iff.1 h with rfl | ⟨p, rfl, hmore⟩
      · exact ⟨_, rfl⟩
      · rcases prefix_cons_iff.1 hmore with rfl | ⟨p, rfl, hdigits⟩
        · exact ⟨_, rfl⟩
        · have hlength : (p.map Sign.scalar).length ≤ 4 := by
            rw [length_map]
            exact hdigits.length_le
          refine error_of_bind (x := unicodeEscape s (p.map .scalar))
            fun found hfound => ?_
          obtain ⟨d, rest⟩ := found
          rw [unicodeEscape_short hlength hfound]
          exact readString_nil opened fuel (d :: done)
    · rw [htext] at h
      rcases prefix_cons_iff.1 h with rfl | ⟨p, rfl, hlast⟩
      · exact ⟨_, rfl⟩
      · rw [prefix_nil.1 hlast]
        have hread : readString s opened (fuel + 1) [.scalar c] done =
            readString s opened fuel [] (.scalar c :: done) := by
          simp [readString, hslash, hlow]
        rw [map_singleton, hread]
        exact readString_nil opened fuel (.scalar c :: done)

/-- `readString_of_cut_char` for a code point, which may be a half. -/
theorem readString_of_cut_sign (h : p <+: signText false c) :
    ∃ f, readString s opened fuel p done = .error f := by
  cases c with
  | scalar c =>
    obtain ⟨chars, hchars, rfl⟩ := prefix_map_iff.1 h
    exact readString_of_cut_char opened fuel done hchars
  | half n =>
    cases fuel with
    | zero => exact ⟨_, rfl⟩
    | succ fuel =>
      rcases prefix_cons_iff.1 h with rfl | ⟨p, rfl, hlast⟩
      · exact ⟨_, rfl⟩
      · rw [prefix_nil.1 hlast]
        exact readString_nil opened fuel (.half n :: done)

/-- **A string that is cut off is not read** by `readString`. -/
theorem readString_of_cut (h : p <+: cs.flatMap (signText false)) :
    ∃ f, readString s opened fuel p done = .error f := by
  induction cs generalizing p fuel done with
  | nil =>
    rw [prefix_nil.1 h]
    exact readString_nil opened fuel done
  | cons c cs ih =>
    rw [flatMap_cons] at h
    rcases prefix_append_cases h with ⟨hchar, -⟩ | ⟨p, rfl, hrest⟩
    · exact readString_of_cut_sign opened fuel done hchar
    · cases fuel with
      | zero => exact ⟨_, rfl⟩
      | succ fuel =>
        cases p with
        | nil =>
          rw [append_nil]
          exact readString_of_cut_sign opened (fuel + 1) done (prefix_refl _)
        | cons next p =>
          rw [readString_signText]
          exact ih fuel (c :: done) hrest

end Strings

/-! ## Values -/

/-- A text with which a record does not go on: nothing, or what goes on like a
number. -/
def Stuck (rest : List Sign) : Prop := ∀ c, rest.head? = some c →
    ∃ d, c = .scalar d ∧ isPlain d = true

/-- A value whose text is not empty and that cannot be taken for another one: if
it is cut off, or read only in part, a record does not go on after it. -/
structure Cuts (s : Settings) (l : Layout) (v : Doc) : Prop where
  head : ∀ level, ∃ c cs, (write l level v) = c :: cs ∧ Opens c
  cut : ∀ (level fuel : Nat) (p : List Sign) (found : Doc) (rest : List Sign),
    p <+: (write l level v) →
    p ≠ (write l level v) → readValue s fuel p = .ok (found, rest) → Stuck rest
  whole :
    ∀ (level fuel : Nat) (next : List Sign) (found : Doc) (rest : List Sign),
    Stops next →
    readValue s fuel (write l level v ++ next) = .ok (found, rest) →
    rest = next ∨ Stuck rest

theorem readValue_zero (cs : List Sign) :
    readValue s 0 cs = .error (.at_ .value cs.length) := by
  rw [readValue]

theorem readValue_nil (fuel : Nat) :
    readValue s fuel [] = .error (.at_ .value 0) := by
  cases fuel with
  | zero => exact readValue_zero []
  | succ fuel =>
    rw [readValue]
    · rfl
    all_goals exact fun _ h => absurd h.symm (cons_ne_nil _ _)

theorem prefix_of_cut_stringText {t : List Sign}
    (h : p <+: (stringText false t)) (hcut : p ≠ (stringText false t)) :
    p = [] ∨ ∃ q, p = .scalar '"' :: q ∧ q <+: t.flatMap (signText false) := by
  rw [stringText] at h hcut
  rcases List.prefix_cons_iff.1 h with rfl | ⟨q, rfl, hchars⟩
  · exact .inl rfl
  · rcases List.prefix_concat_iff.1 hchars with rfl | hchars
    · exact absurd rfl hcut
    · exact .inr ⟨q, rfl, hchars⟩

section Values

variable {l : Layout}

theorem cuts_text (hl : l.Faithful) (t : List Sign) : Cuts s l (.text t) where
  head level :=
    ⟨.scalar '"', _, by rw [write]; rfl, by decide, by decide, by decide⟩
  cut level fuel p found rest hp hcut h := by
    rw [write, hl.ascii] at hp hcut
    rcases prefix_of_cut_stringText hp hcut with rfl | ⟨q, rfl, hchars⟩
    · rw [readValue_nil] at h
      cases h
    · cases fuel with
      | zero =>
        rw [readValue_zero] at h
        cases h
      | succ fuel =>
        obtain ⟨f, hf⟩ := readString_of_cut (s := s)
          (Sign.scalar '"' :: q).length (q.length + 1) [] hchars
        rw [readValue, hf] at h
        cases h
  whole level fuel next found rest hnext h := by
    cases fuel with
    | zero =>
      rw [readValue_zero] at h
      cases h
    | succ fuel =>
      rw [write, hl.ascii, stringText_append, readValue] at h
      simp only [readString_stringText, bind, Except.bind] at h
      cases h
      exact .inl rfl

theorem opens_of_isPlain {c : Char} (h : isPlain c = true) :
    Opens (.scalar c) := by
  refine ⟨isJsonBlank_of_isPlain h, ?_, ?_⟩
  · intro hc
    cases hc
    cases h
  · intro hc
    cases hc
    revert h
    decide

/-- What starts like a number is read by `readPlain`. -/
theorem readPlain_of_readValue {fuel : Nat} {c : Char} (hc : isPlain c = true)
    (h : readValue s fuel (.scalar c :: cs) = .ok (v, rest)) :
    readPlain (.scalar c :: cs) = .ok (v, rest) := by
  cases fuel with
  | zero =>
    rw [readValue_zero] at h
    cases h
  | succ fuel =>
    rw [readValue] at h
    · exact h
    · rintro q hq
      cases hq
      revert hc
      decide
    · rintro q hq
      cases hq
      revert hc
      decide
    · rintro q hq
      cases hq
      revert hc
      decide

theorem readPlain_of_append {cs : List Char} {next : List Sign}
    (hnext : Stops next)
    (h : readPlain (cs.map .scalar ++ next) = .ok (v, rest)) :
    ∃ left, rest = left.map .scalar ++ next ∧ left <:+ cs := by
  unfold readPlain at h
  rw [scalars_append, readLeaf_append hnext.ends] at h
  cases hleaf : readLeaf cs with
  | none =>
    rw [hleaf] at h
    cases h
  | some outcome =>
    rw [hleaf] at h
    cases outcome with
    | error f => cases h
    | ok found =>
      obtain ⟨-, rfl⟩ := Prod.mk.inj (Except.ok.inj h)
      refine ⟨cs.drop (cs.length - found.2.length), ?_, List.drop_suffix _ _⟩
      rw [List.length_append, List.length_append, Nat.add_sub_add_right,
        List.map_drop,
        List.drop_append_of_le_length (by rw [List.length_map]; omega)]

private theorem write_ne_nil (x : Float) :
    (numberFormat.write x).toList ≠ [] := by
  have hpositive : (numberFormat.positive x).toList ≠ [] := by
    unfold Format.positive
    dsimp only
    split
    · split
      · simp
      · split
        · simp [numberFormat, Format.plain]
        · simp
    · simp
  unfold Format.write
  dsimp only
  split
  · decide
  · split
    · simp [numberFormat]
    · split
      · simp
      · simp [hpositive]

theorem cuts_float (x : Float) : Cuts s l (.float x) := by
  have hplain := plainText_write x
  obtain ⟨c, cs, htext⟩ := List.exists_cons_of_ne_nil (write_ne_nil x)
  have hc : isPlain c = true :=
    hplain c (by rw [htext]; exact List.mem_cons_self)
  have hsigns : signs (numberFormat.write x) = .scalar c :: cs.map .scalar := by
    rw [signs, htext, List.map_cons]
  refine ⟨fun level =>
    ⟨.scalar c, cs.map .scalar, hsigns, opens_of_isPlain hc⟩, ?_, ?_⟩
  · intro level fuel p found rest hp hcut h
    have hmem : ∀ d ∈ p, ∃ e, d = .scalar e ∧ isPlain e = true := by
      intro d hd
      obtain ⟨e, he, rfl⟩ := List.mem_map.1 (hp.subset hd)
      exact ⟨e, rfl, hplain e he⟩
    cases p with
    | nil =>
      rw [readValue_nil] at h
      cases h
    | cons d p =>
      obtain ⟨e, rfl, he⟩ := hmem d List.mem_cons_self
      intro a ha
      exact hmem a ((readPlain_suffix (readPlain_of_readValue he h)).subset
        (List.mem_of_mem_head? ha))
  · intro level fuel next found rest hnext h
    have hread : readPlain ((numberFormat.write x).toList.map .scalar ++ next) =
        .ok (found, rest) := by
      rw [write, hsigns, List.cons_append] at h
      rw [← signs, hsigns]
      exact readPlain_of_readValue hc h
    obtain ⟨left, rfl, hleft⟩ := readPlain_of_append hnext hread
    cases left with
    | nil => exact .inl rfl
    | cons d left =>
      right
      intro a ha
      cases ha
      exact ⟨d, rfl, hplain d (hleft.subset List.mem_cons_self)⟩

end Values

/-! ## Fields -/

/-- What `readFields` does after a value. -/
def closing (s : Settings) (fuel : Nat) (fields : Fields) (rest : List Sign) :
    Except ReadFault (Fields × List Sign) :=
  match skip rest with
  | .scalar '\x7d' :: rest => .ok (fields, rest)
  | .scalar ',' :: more =>
    if s.wording == .detailed && (skip more).head? == some (.scalar '\x7d') then
      .error (.at_ .trailingInObject (Sign.scalar ',' :: more).length)
    else readFields s fuel (skip more) fields
  | left => .error (.at_ .comma left.length)

theorem readFields_field (k : List Sign) (fuel : Nat) (cs : List Sign)
    (done : Fields) :
    readFields s (fuel + 1) (stringText false k ++ Sign.scalar ':' :: cs) done =
      readValue s fuel (skip cs) >>=
        fun found => closing s fuel (setField done k found.1) found.2 := by
  have hcolon : skip (Sign.scalar ':' :: cs) = Sign.scalar ':' :: cs :=
    skip_cons (by decide) cs
  rw [stringText_append, readFields]
  simp only [readString_stringText, bind, Except.bind, hcolon]
  cases readValue s fuel (skip cs) with
  | error f => rfl
  | ok found =>
    dsimp only
    unfold closing
    generalize skip found.2 = rest
    cases rest with
    | nil => rfl
    | cons c more =>
      by_cases hbrace : c = '\x7d'
      · rw [hbrace]
        rfl
      · by_cases hcomma : c = ','
        · rw [hcomma]
          show (if _ then _ else _) = if _ then _ else _
          by_cases htrailing : (s.wording == .detailed && (skip more).head? ==
            some (.scalar '\x7d')) = true
          · rw [if_pos htrailing, if_pos htrailing]
            rfl
          · rw [if_neg htrailing, if_neg htrailing]
        · simp only [List.cons.injEq, hbrace, hcomma, false_and,
            imp_self, implies_true]
          rfl

/-- Nothing comes of a value after which the text is `Stuck`. -/
theorem closing_of_stuck (h : Stuck rest) (fuel : Nat) (fields : Fields) :
    ∃ f, closing s fuel fields rest = .error f := by
  cases rest with
  | nil => exact ⟨_, rfl⟩
  | cons c rest =>
    obtain ⟨d, rfl, hc⟩ := h c rfl
    unfold closing
    rw [skip_cons (isJsonBlank_of_isPlain hc)]
    split
    · next heq =>
      cases heq
      cases hc
    · next heq =>
      cases heq
      cases hc
    · exact ⟨_, rfl⟩

theorem closing_of_blanks (h : rest.all isJsonBlank = true) (fuel : Nat)
    (fields : Fields) : ∃ f, closing s fuel fields rest = .error f := by
  unfold closing
  rw [skip_of_all h]
  exact ⟨_, rfl⟩

private theorem readFields_nil (fuel : Nat) (done : Fields) :
    ∃ f, readFields s fuel [] done = .error f := by
  cases fuel with
  | zero => exact ⟨_, by rw [readFields]⟩
  | succ fuel =>
    refine ⟨.at_ .propertyName 0, ?_⟩
    rw [readFields]
    · rfl
    · exact fun _ h => absurd h.symm (List.cons_ne_nil _ _)

/-- A name that is cut off, or that nothing follows, is no field. -/
theorem readFields_of_cut_name {k : List Sign} (h : p <+: stringText false k)
    (fuel : Nat) (done : Fields) :
    ∃ f, readFields s fuel p done = .error f := by
  cases fuel with
  | zero => exact ⟨_, by rw [readFields]⟩
  | succ fuel =>
    by_cases hcut : p = stringText false k
    · rw [hcut, ← List.append_nil (stringText false k),
        stringText_append, readFields]
      simp only [readString_stringText, bind, Except.bind]
      exact ⟨_, rfl⟩
    · rcases prefix_of_cut_stringText h hcut with rfl | ⟨q, rfl, hchars⟩
      · exact readFields_nil (fuel + 1) done
      · obtain ⟨f, hf⟩ := readString_of_cut (s := s)
          (Sign.scalar '"' :: q).length (q.length + 1) [] hchars
        rw [readFields, hf]
        exact ⟨f, rfl⟩

theorem closing_of_comma {fuel : Nat}
    (h : ∃ f, readFields s fuel (skip rest) fields = .error f) :
    ∃ f, closing s fuel fields (.scalar ',' :: rest) = .error f := by
  unfold closing
  simp only [skip_comma]
  split
  · exact ⟨_, rfl⟩
  · exact h

/-- A text with which no record can go on after a value, and that ends a
number. -/
structure DeadEnd (s : Settings) (rest : List Sign) : Prop where
  stops : Stops rest
  closing : ∀ (fuel : Nat) (fields : Fields),
    ∃ f, closing s fuel fields rest = .error f

theorem deadEnd_of_blanks (h : rest.all isJsonBlank = true) :
    DeadEnd s rest := by
  refine ⟨fun c hc => ?_, closing_of_blanks h⟩
  exact .inr (.inr (.inr (all_eq_true.1 h c (mem_of_mem_head? hc))))

section Fields

variable {l : Layout}

private theorem closing_of_cut_value (hv : Cuts s l v) (level fuel : Nat)
    (add : Doc → Fields) {tail : List Sign} (hgap : gap.all isJsonBlank = true)
    (htail : ∀ q, q <+: tail → q ≠ tail → DeadEnd s q)
    (h : p <+: gap ++ (write l level v ++ tail))
    (hcut : p ≠ gap ++ (write l level v ++ tail)) :
    ∃ f, (readValue s fuel (skip p) >>=
      fun found => closing s fuel (add found.1) found.2) = .error f := by
  obtain ⟨c, cs, htext, hc⟩ := hv.head level
  obtain ⟨hvalue, hne⟩ :=
    skip_of_cut hgap (by rw [htext, cons_append]) hc.blank h hcut
  refine error_of_bind fun found hfound => ?_
  obtain ⟨value, rest⟩ := found
  -- the cut is either in the value or after it
  rcases prefix_append_cases hvalue with ⟨hpart, hshort⟩ | ⟨q, hq, hrest⟩
  · exact closing_of_stuck (hv.cut level fuel _ value rest hpart hshort hfound)
      fuel (add value)
  · have hend : DeadEnd s q := htail q hrest (fun heq => hne (by rw [hq, heq]))
    rw [hq] at hfound
    rcases hv.whole level fuel q value rest hend.stops hfound with rfl | hstuck
    · exact hend.closing fuel (add value)
    · exact closing_of_stuck hstuck fuel (add value)

private theorem readFields_of_cut_field (hv : Cuts s l v) (k : List Sign)
    (level fuel : Nat) (done : Fields) {tail : List Sign}
    (hgap : gap.all isJsonBlank = true)
    (htail : ∀ q, q <+: tail → q ≠ tail → DeadEnd s q)
    (h : p <+: stringText false k ++ Sign.scalar ':' ::
      (gap ++ (write l level v ++ tail)))
    (hcut : p ≠ stringText false k ++ Sign.scalar ':' ::
      (gap ++ (write l level v ++ tail))) :
    ∃ f, readFields s fuel p done = .error f := by
  rcases prefix_append_cases h with ⟨hname, -⟩ | ⟨p, rfl, hmore⟩
  · exact readFields_of_cut_name hname fuel done
  · rcases prefix_cons_iff.1 hmore with rfl | ⟨p, rfl, hvalue⟩
    · rw [append_nil]
      exact readFields_of_cut_name (prefix_refl _) fuel done
    · cases fuel with
      | zero => exact ⟨_, by rw [readFields]⟩
      | succ fuel =>
        rw [readFields_field]
        exact closing_of_cut_value hv level fuel (setField done k) hgap htail
          hvalue (fun heq => hcut (by rw [heq]))

/-- **The fields of a record that is cut off are not read** by `readFields`. -/
theorem readFields_of_cut (hl : l.Faithful) (hne : fields ≠ [])
    (hfields : ∀ field ∈ fields, Cuts s l field.2) (level : Nat)
    (hblanks : blanks.all isJsonBlank = true) (fuel : Nat) (done : Fields)
    (h : p <+: fieldsText l level fields ++ (blanks ++ [.scalar '\x7d']))
    (hcut : p ≠ fieldsText l level fields ++ (blanks ++ [.scalar '\x7d'])) :
    ∃ f, readFields s fuel p done = .error f := by
  induction fields generalizing p fuel done with
  | nil => exact absurd rfl hne
  | cons field fields ih =>
    obtain ⟨k, v⟩ := field
    obtain ⟨gap, hkey, hgap⟩ := hl.key
    simp only [fieldsText, hl.ascii, hkey, append_assoc, cons_append] at h hcut
    refine readFields_of_cut_field (hfields (k, v) mem_cons_self) k level fuel
      done hgap ?_ h hcut
    intro q hq hqcut
    cases fields with
    | nil =>
      rw [writeFields_nil, nil_append] at hq hqcut
      rcases prefix_concat_iff.1 hq with rfl | hq
      · exact absurd rfl hqcut
      · exact deadEnd_of_blanks (all_of_start hq hblanks)
    | cons next fields =>
      -- the record goes on with a comma, and what follows it is cut off
      obtain ⟨name, value⟩ := next
      obtain ⟨space, hspace, hsep⟩ := hl.separator level
      obtain ⟨cs, hhead⟩ := fieldsText_head (l := l) level name value fields
      rw [writeFields_cons, append_assoc, append_assoc, hsep] at hq hqcut
      rcases prefix_cons_iff.1 hq with rfl | ⟨q, rfl, hmore⟩
      · exact deadEnd_of_blanks rfl
      · refine ⟨stops_comma q, fun fuel fields => closing_of_comma ?_⟩
        obtain ⟨hnext, hnextcut⟩ :=
          skip_of_cut hspace (by rw [hhead, cons_append]) (by decide) hmore
          (fun heq => hqcut (by rw [heq]))
        exact ih (by simp) (fun field hfield =>
          hfields field (mem_cons_of_mem _ hfield)) fuel fields hnext hnextcut

/-- **A record that is cut off is no document** to `readDocument`. -/
theorem readDocument_of_cut (hl : l.Faithful) (hne : fields ≠ [])
    (hfields : ∀ field ∈ fields, Cuts s l field.2)
    (h : p <+: (write l 0 (.record fields)))
    (hcut : p ≠ (write l 0 (.record fields))) :
    ∃ f, readDocument s p = .error f := by
  obtain ⟨⟨k, v⟩, fields, rfl⟩ := exists_cons_of_ne_nil hne
  rw [write_record] at h hcut
  rcases prefix_cons_iff.1 h with rfl | ⟨p, rfl, hmore⟩
  · exact ⟨_, rfl⟩
  · obtain ⟨cs, hhead⟩ := fieldsText_head (l := l) 1 k v fields
    obtain ⟨hnext, hnextcut⟩ := skip_of_cut (newline_blank hl 1)
      (by rw [hhead, cons_append]) (by decide) hmore
      (fun heq => hcut (by rw [heq]))
    obtain ⟨f, hf⟩ := readFields_of_cut hl (by simp) hfields 1
      (newline_blank hl 0) (Sign.scalar '\x7b' :: p).length [] hnext hnextcut
    have hread : readValue s ((Sign.scalar '\x7b' :: p).length + 1)
        (Sign.scalar '\x7b' :: p) = .error f := by
      rw [readValue]
      dsimp only
      split
      · next heq =>
        rw [heq, hhead] at hnext
        exact absurd (cons_prefix_cons.1 hnext).1 (by decide)
      · rw [hf]
        rfl
    have hmark : ((Sign.scalar '\x7b' :: p).head? ==
        some (.scalar (Char.ofNat 0xFEFF))) = false := rfl
    refine ⟨f, ?_⟩
    rw [readDocument, hmark, skip_cons (by decide), hread]
    rfl

end Fields

end TaskShell.Json

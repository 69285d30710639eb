import TaskShell.Text.Utf8

/-!
# Reading back what was written as bytes

The bytes of a character are cut off again as one piece, whatever follows them,
so the pieces of a written text are its characters. The three readings of bytes
differ only in what they do with bad pieces, and agree where there is none.
-/

namespace TaskShell.Text

open List

variable {n : Nat} {b : UInt8} {cs : List Char} {bs : List UInt8}

/-! ## Characters -/

theorem toNat_range (c : Char) :
    c.toNat < 0xD800 ∨ (0xDFFF < c.toNat ∧ c.toNat < 0x110000) := c.valid

theorem toNat_toUInt8_of_lt (h : n < 256) : n.toUInt8.toNat = n := by
  rw [Nat.toUInt8_eq, UInt8.toNat_ofNat', Nat.mod_eq_of_lt h]

theorem toUInt8_lt_iff (h : n < 256) (b : UInt8) :
    n.toUInt8 < b ↔ n < b.toNat := by
  rw [UInt8.lt_iff_toNat_lt, toNat_toUInt8_of_lt h]

theorem not_toUInt8_lt (h : n < 256) (hb : b.toNat ≤ n) : ¬ n.toUInt8 < b := by
  rw [toUInt8_lt_iff h]
  exact Nat.not_lt.2 hb

theorem le_toUInt8_iff (h : n < 256) (b : UInt8) :
    b ≤ n.toUInt8 ↔ b.toNat ≤ n := by
  rw [UInt8.le_iff_toNat_le, toNat_toUInt8_of_lt h]

theorem toUInt8_ne_iff (h : n < 256) (b : UInt8) :
    (n.toUInt8 != b) = true ↔ n ≠ b.toNat := by
  rw [bne_iff_ne, ne_eq, ← UInt8.toNat_inj, toNat_toUInt8_of_lt h]

theorem isContinuation_of_lt (h : n < 64) :
    isContinuation (0x80 + n).toUInt8 = true := by
  have hn : 0x80 + n < 256 := by omega
  simp only [isContinuation, Bool.and_eq_true, decide_eq_true_eq,
    le_toUInt8_iff hn, toUInt8_lt_iff hn, UInt8.reduceToNat]
  omega

theorem payload_of_lt (h : n < 64) : payload (0x80 + n).toUInt8 = n := by
  rw [payload, toNat_toUInt8_of_lt (by omega)]
  omega

theorem fitsThree_of_range {m : Nat} (hm : m < 16) (hn : n < 64)
    (hlow : m = 0 → 0x20 ≤ n) (hpair : m = 13 → n < 0x20) :
    fitsThree (0xE0 + m).toUInt8 (0x80 + n).toUInt8 = true := by
  have hm' : 0xE0 + m < 256 := by omega
  have hn' : 0x80 + n < 256 := by omega
  simp only [fitsThree, isContinuation_of_lt hn, Bool.true_and,
    Bool.and_eq_true, Bool.or_eq_true, decide_eq_true_eq, toUInt8_ne_iff hm',
    le_toUInt8_iff hn', toUInt8_lt_iff hn', UInt8.reduceToNat]
  omega

theorem fitsFour_of_range {m : Nat} (hm : m < 5) (hn : n < 64)
    (hlow : m = 0 → 0x10 ≤ n) (hhigh : m = 4 → n < 0x10) :
    fitsFour (0xF0 + m).toUInt8 (0x80 + n).toUInt8 = true := by
  have hm' : 0xF0 + m < 256 := by omega
  have hn' : 0x80 + n < 256 := by omega
  simp only [fitsFour, isContinuation_of_lt hn, Bool.true_and, Bool.and_eq_true,
    Bool.or_eq_true, decide_eq_true_eq, toUInt8_ne_iff hm', le_toUInt8_iff hn',
    toUInt8_lt_iff hn', UInt8.reduceToNat]
  omega

/-! ## Pieces -/

theorem utf8Piece_one (h : n < 0x80) (rest : List UInt8) :
    utf8Piece n.toUInt8 rest = (.char (Char.ofNat n), 0) := by
  have hb : n < 256 := by omega
  have h80 : n.toUInt8 < 0x80 := (toUInt8_lt_iff hb _).2 h
  unfold utf8Piece
  rw [if_pos h80, toNat_toUInt8_of_lt hb]

theorem utf8Piece_two (h : 0x80 ≤ n) (h' : n < 0x800) (rest : List UInt8) :
    utf8Piece (0xC0 + n / 64).toUInt8 ((0x80 + n % 64).toUInt8 :: rest) =
      (.char (Char.ofNat n), 1) := by
  have hb : 0xC0 + n / 64 < 256 := by omega
  have hn : n % 64 < 64 := Nat.mod_lt _ (by decide)
  have h80 : ¬ (0xC0 + n / 64).toUInt8 < 0x80 :=
    not_toUInt8_lt hb (by simp; omega)
  have hC2 : ¬ (0xC0 + n / 64).toUInt8 < 0xC2 :=
    not_toUInt8_lt hb (by simp; omega)
  have hE0 : (0xC0 + n / 64).toUInt8 < 0xE0 :=
    (toUInt8_lt_iff hb _).2 (by simp; omega)
  have hvalue : (0xC0 + n / 64) % 32 * 64 + n % 64 = n := by omega
  unfold utf8Piece
  simp only [if_neg h80, if_neg hC2, if_pos hE0, isContinuation_of_lt hn,
    if_true, payload_of_lt hn, toNat_toUInt8_of_lt hb, hvalue]

theorem utf8Piece_three (h : 0x800 ≤ n) (h' : n < 0x10000)
    (hpair : n < 0xD800 ∨ 0xDFFF < n) (rest : List UInt8) :
    utf8Piece (0xE0 + n / 4096).toUInt8 ((0x80 + n / 64 % 64).toUInt8 ::
      (0x80 + n % 64).toUInt8 :: rest) = (.char (Char.ofNat n), 2) := by
  have hb : 0xE0 + n / 4096 < 256 := by omega
  have hn1 : n / 64 % 64 < 64 := Nat.mod_lt _ (by decide)
  have hn2 : n % 64 < 64 := Nat.mod_lt _ (by decide)
  have h80 : ¬ (0xE0 + n / 4096).toUInt8 < 0x80 :=
    not_toUInt8_lt hb (by simp; omega)
  have hC2 : ¬ (0xE0 + n / 4096).toUInt8 < 0xC2 :=
    not_toUInt8_lt hb (by simp; omega)
  have hE0 : ¬ (0xE0 + n / 4096).toUInt8 < 0xE0 := not_toUInt8_lt hb (by simp)
  have hF0 : (0xE0 + n / 4096).toUInt8 < 0xF0 :=
    (toUInt8_lt_iff hb _).2 (by simp; omega)
  have hfits :
      fitsThree (0xE0 + n / 4096).toUInt8 (0x80 + n / 64 % 64).toUInt8 = true :=
    fitsThree_of_range (by omega) hn1 (by omega) (by omega)
  have hvalue :
      (0xE0 + n / 4096) % 16 * 4096 + n / 64 % 64 * 64 + n % 64 = n := by omega
  unfold utf8Piece
  simp only [if_neg h80, if_neg hC2, if_neg hE0, if_pos hF0, hfits,
    Bool.not_true, Bool.false_eq_true, if_false,
    isContinuation_of_lt hn2, if_true, payload_of_lt hn1, payload_of_lt hn2,
    toNat_toUInt8_of_lt hb, hvalue]

private theorem utf8Piece_four (h : 0x10000 ≤ n) (h' : n < 0x110000)
    (rest : List UInt8) :
    utf8Piece (0xF0 + n / 262144).toUInt8
        ((0x80 + n / 4096 % 64).toUInt8 :: (0x80 + n / 64 % 64).toUInt8 ::
          (0x80 + n % 64).toUInt8 :: rest) = (.char (Char.ofNat n), 3) := by
  have hb : 0xF0 + n / 262144 < 256 := by omega
  have hn1 : n / 4096 % 64 < 64 := Nat.mod_lt _ (by decide)
  have hn2 : n / 64 % 64 < 64 := Nat.mod_lt _ (by decide)
  have hn3 : n % 64 < 64 := Nat.mod_lt _ (by decide)
  have h80 : ¬ (0xF0 + n / 262144).toUInt8 < 0x80 :=
    not_toUInt8_lt hb (by simp; omega)
  have hC2 : ¬ (0xF0 + n / 262144).toUInt8 < 0xC2 :=
    not_toUInt8_lt hb (by simp; omega)
  have hE0 : ¬ (0xF0 + n / 262144).toUInt8 < 0xE0 :=
    not_toUInt8_lt hb (by simp; omega)
  have hF0 : ¬ (0xF0 + n / 262144).toUInt8 < 0xF0 := not_toUInt8_lt hb (by simp)
  have hF5 : (0xF0 + n / 262144).toUInt8 < 0xF5 :=
    (toUInt8_lt_iff hb _).2 (by simp; omega)
  have hfits : fitsFour (0xF0 + n / 262144).toUInt8
      (0x80 + n / 4096 % 64).toUInt8 = true :=
    fitsFour_of_range (by omega) hn1 (by omega) (by omega)
  have hvalue : (0xF0 + n / 262144) % 8 * 262144 + n / 4096 % 64 * 4096 +
      n / 64 % 64 * 64 + n % 64 = n := by omega
  unfold utf8Piece
  simp only [if_neg h80, if_neg hC2, if_neg hE0, if_neg hF0, if_pos hF5, hfits,
    Bool.not_true, Bool.false_eq_true, if_false, isContinuation_of_lt hn2,
    isContinuation_of_lt hn3, if_true, payload_of_lt hn1, payload_of_lt hn2,
    payload_of_lt hn3, toNat_toUInt8_of_lt hb, hvalue]

/-- `utf8Piece` recognises the bytes of a character, whatever follows them. -/
theorem utf8Piece_utf8OfChar (c : Char) :
    ∃ b bs, utf8OfChar c = b :: bs ∧
      ∀ rest, utf8Piece b (bs ++ rest) = (.char c, bs.length) := by
  have hrange := toNat_range c
  have hc : Char.ofNat c.toNat = c := Char.ofNat_toNat c
  unfold utf8OfChar
  dsimp only
  split
  · next h1 =>
    have hpiece := utf8Piece_one h1
    rw [hc] at hpiece
    exact ⟨_, _, rfl, hpiece⟩
  · split
    · next h1 h2 =>
      have hpiece := utf8Piece_two (Nat.not_lt.1 h1) h2
      rw [hc] at hpiece
      exact ⟨_, _, rfl, hpiece⟩
    · split
      · next h1 h2 h3 =>
        have hpiece := utf8Piece_three (Nat.not_lt.1 h2) h3 (by omega)
        rw [hc] at hpiece
        exact ⟨_, _, rfl, hpiece⟩
      · next h1 h2 h3 =>
        have hpiece := utf8Piece_four (Nat.not_lt.1 h3) (by omega)
        rw [hc] at hpiece
        exact ⟨_, _, rfl, hpiece⟩

private theorem utf8PiecesFrom_append (bs rest : List UInt8) :
    utf8PiecesFrom (bs ++ rest) bs.length = utf8PiecesFrom rest 0 := by
  induction bs with
  | nil => rfl
  | cons b bs ih => exact ih

theorem utf8PiecesFrom_utf8OfChar (c : Char) (rest : List UInt8) :
    utf8PiecesFrom (utf8OfChar c ++ rest) 0 =
      (.char c, (utf8OfChar c).length) :: utf8PiecesFrom rest 0 := by
  obtain ⟨b, bs, hbytes, hpiece⟩ := utf8Piece_utf8OfChar c
  rw [hbytes, cons_append, utf8PiecesFrom, hpiece, length_cons]
  exact congrArg _ (utf8PiecesFrom_append bs rest)

/-! ## Texts -/

private theorem strictFrom_utf8Of (cs : List Char) :
    ∀ offset, strictFrom (utf8PiecesFrom (utf8Of cs) 0) offset = .ok cs := by
  induction cs with
  | nil => exact fun _ => rfl
  | cons c cs ih =>
    intro offset
    have hbytes : utf8Of (c :: cs) = utf8OfChar c ++ utf8Of cs := flatMap_cons
    rw [hbytes, utf8PiecesFrom_utf8OfChar, strictFrom, ih]
    rfl

/-- **`decodeStrict` reads a written text back.** -/
theorem decodeStrict_utf8Of (cs : List Char) :
    decodeStrict (utf8Of cs) = .ok cs := strictFrom_utf8Of cs 0

theorem exists_of_strictFrom_cons {piece : Utf8Piece × Nat}
    {pieces : List (Utf8Piece × Nat)} {offset : Nat}
    (h : strictFrom (piece :: pieces) offset = .ok cs) :
    ∃ c ds n, cs = c :: ds ∧ piece = (.char c, n) ∧
      strictFrom pieces (offset + n) = .ok ds := by
  obtain ⟨found, n⟩ := piece
  cases found with
  | bad first reason => cases h
  | char c =>
    rw [strictFrom] at h
    cases hrest : strictFrom pieces (offset + n) with
    | error f =>
      rw [hrest] at h
      cases h
    | ok ds =>
      rw [hrest] at h
      cases h
      exact ⟨c, ds, n, rfl, rfl, hrest⟩

/-- `decodeReplacing` reads bytes that are valid throughout like
`decodeStrict`. -/
theorem decodeReplacing_of_strict (h : decodeStrict bs = .ok cs) :
    decodeReplacing bs = cs := by
  unfold decodeStrict at h
  unfold decodeReplacing
  generalize utf8Pieces bs = pieces, 0 = offset at h ⊢
  induction pieces generalizing cs offset with
  | nil =>
    cases h
    rfl
  | cons piece pieces ih =>
    obtain ⟨c, ds, n, rfl, rfl, hrest⟩ := exists_of_strictFrom_cons h
    rw [map_cons, ih _ hrest]

/-- `decodeIgnoring` reads bytes that are valid throughout like
`decodeStrict`. -/
theorem decodeIgnoring_of_strict (h : decodeStrict bs = .ok cs) :
    decodeIgnoring bs = cs := by
  unfold decodeStrict at h
  unfold decodeIgnoring
  generalize utf8Pieces bs = pieces, 0 = offset at h ⊢
  induction pieces generalizing cs offset with
  | nil =>
    cases h
    rfl
  | cons piece pieces ih =>
    obtain ⟨c, ds, n, rfl, rfl, hrest⟩ := exists_of_strictFrom_cons h
    rw [filterMap_cons, ih _ hrest]

/-! ## Texts that are cut off -/

theorem prefix_append_cases {α : Type} {p x y : List α} (h : p <+: x ++ y) :
    (p <+: x ∧ p ≠ x) ∨ ∃ p', p = x ++ p' ∧ p' <+: y := by
  by_cases hlength : x.length ≤ p.length
  · obtain ⟨p', rfl⟩ := prefix_of_prefix_length_le (prefix_append x y) h hlength
    exact .inr ⟨p', rfl, (prefix_append_right_inj x).1 h⟩
  · refine .inl ⟨prefix_of_prefix_length_le h (prefix_append x y) (by omega),
      ?_⟩
    rintro rfl
    exact hlength (Nat.le_refl _)

/-- A character that `utf8Piece` finds is made of bytes that are there, and is
found whatever follows them. -/
theorem utf8Piece_append {c : Char} (h : utf8Piece b bs = (.char c, n)) :
    n ≤ bs.length ∧ ∀ more, utf8Piece b (bs ++ more) = (.char c, n) := by
  unfold utf8Piece at h ⊢
  by_cases h80 : b < 0x80
  · simp only [if_pos h80] at h ⊢
    cases h
    exact ⟨Nat.zero_le _, fun _ => rfl⟩
  by_cases hC2 : b < 0xC2
  · simp only [if_neg h80, if_pos hC2] at h
    cases h
  by_cases hE0 : b < 0xE0
  · simp only [if_neg h80, if_neg hC2, if_pos hE0] at h ⊢
    cases bs with
    | nil => cases h
    | cons b1 bs =>
      dsimp only at h
      split at h
      · next hcontinues =>
        cases h
        exact ⟨by simp, fun more => by simp [hcontinues]⟩
      · cases h
  by_cases hF0 : b < 0xF0
  · simp only [if_neg h80, if_neg hC2, if_neg hE0, if_pos hF0] at h ⊢
    cases bs with
    | nil => cases h
    | cons b1 bs =>
      cases bs with
      | nil =>
        dsimp only at h
        split at h <;> cases h
      | cons b2 bs =>
        dsimp only at h
        split at h
        · cases h
        · next hfits =>
          split at h
          · next hcontinues =>
            cases h
            exact ⟨by simp, fun more => by simp [hfits, hcontinues]⟩
          · cases h
  by_cases hF5 : b < 0xF5
  · simp only [if_neg h80, if_neg hC2, if_neg hE0, if_neg hF0,
      if_pos hF5] at h ⊢
    cases bs with
    | nil => cases h
    | cons b1 bs =>
      cases bs with
      | nil =>
        dsimp only at h
        split at h <;> cases h
      | cons b2 bs =>
        cases bs with
        | nil =>
          dsimp only at h
          split at h
          · cases h
          · split at h <;> cases h
        | cons b3 bs =>
          dsimp only at h
          split at h
          · cases h
          · next hfits =>
            split at h
            · cases h
            · next hsecond =>
              split at h
              · next hthird =>
                cases h
                exact ⟨by simp, fun more => by simp [hfits, hsecond, hthird]⟩
              · cases h
  · simp only [if_neg h80, if_neg hC2, if_neg hE0, if_neg hF0, if_neg hF5] at h
    cases h

private theorem strictFrom_of_cut_char {c : Char} (h : b :: bs <+: utf8OfChar c)
    (hcut : b :: bs ≠ utf8OfChar c) (offset : Nat) :
    ∃ f, strictFrom (utf8PiecesFrom (b :: bs) 0) offset = .error f := by
  obtain ⟨b', whole, hbytes, hpiece⟩ := utf8Piece_utf8OfChar c
  rw [hbytes] at h hcut
  obtain ⟨rest, hrest⟩ := h
  rw [cons_append] at hrest
  obtain ⟨rfl, rfl⟩ := List.cons.inj hrest
  have hne : rest ≠ [] := by
    rintro rfl
    exact hcut (by rw [append_nil])
  cases hfound : utf8Piece b bs with
  | mk piece n =>
    rw [utf8PiecesFrom, hfound]
    cases piece with
    | bad first reason => exact ⟨_, rfl⟩
    | char d =>
      -- the character would be found in the whole as well, and end too early
      obtain ⟨hshort, hmore⟩ := utf8Piece_append hfound
      have hwhole := hpiece []
      rw [append_nil, hmore rest] at hwhole
      have hlength := (Prod.mk.inj hwhole).2
      rw [length_append] at hlength
      have hpos := length_pos_iff.2 hne
      omega

private theorem strictFrom_of_cut {p : List UInt8} (h : p <+: utf8Of cs)
    (offset : Nat) :
    (∃ f, strictFrom (utf8PiecesFrom p 0) offset = .error f) ∨
      ∃ ds, ds <+: cs ∧ p = utf8Of ds ∧
        strictFrom (utf8PiecesFrom p 0) offset = .ok ds := by
  induction cs generalizing p offset with
  | nil =>
    rw [prefix_nil.1 h]
    exact .inr ⟨[], prefix_refl _, rfl, rfl⟩
  | cons c cs ih =>
    have hbytes : utf8Of (c :: cs) = utf8OfChar c ++ utf8Of cs := flatMap_cons
    rw [hbytes] at h
    rcases prefix_append_cases h with ⟨hchar, hcut⟩ | ⟨p', rfl, hrest⟩
    · cases p with
      | nil => exact .inr ⟨[], nil_prefix, rfl, rfl⟩
      | cons b bs => exact .inl (strictFrom_of_cut_char hchar hcut offset)
    · rw [utf8PiecesFrom_utf8OfChar, strictFrom]
      rcases ih hrest (offset + (utf8OfChar c).length)
        with ⟨f, hf⟩ | ⟨ds, hds, rfl, hok⟩
      · exact .inl ⟨f, by rw [hf]; rfl⟩
      · refine .inr ⟨c :: ds, cons_prefix_cons.2 ⟨rfl, hds⟩,
          flatMap_cons.symm, ?_⟩
        rw [hok]
        rfl

/-- **`decodeStrict` reads a written text that is cut off as the start of the
text, or not at all.** -/
theorem decodeStrict_of_cut {p : List UInt8} (h : p <+: utf8Of cs) :
    (∃ f, decodeStrict p = .error f) ∨ ∃ ds, ds <+: cs ∧ p = utf8Of ds ∧
      decodeStrict p = .ok ds :=
  strictFrom_of_cut h 0

end TaskShell.Text

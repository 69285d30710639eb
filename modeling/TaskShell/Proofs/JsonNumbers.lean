import TaskShell.Proofs.JsonReading

/-!
# The texts of numbers

Whether a double is read back is a matter of rounding. What is shown here holds
of every double: its text has only characters of numbers and words, so that it
ends in a document where it ends by itself, and it is short. The digits are
found by a search over decimals with at most seventeen digits beyond the point
that is estimated first, which bounds their number and the exponent that is
written after them.
-/

namespace TaskShell.Number

open List

/-! ## Digits -/

private theorem lt_of_mem_digitsOf {n d : Nat}
    (h : d ∈ digitsOf n) : d < 10 := by
  rw [digitsOf, mem_map] at h
  obtain ⟨c, hc, rfl⟩ := h
  have hdigit := Nat.isDigit_of_mem_toDigits (by decide) (by decide) hc
  simp only [Char.isDigit, Bool.and_eq_true, decide_eq_true_eq] at hdigit
  have hhigh : c.toNat ≤ 57 := UInt32.le_iff_toNat_le.1 hdigit.2
  omega

private theorem lt_of_mem_search {i : Interval} {point : Int} {fuel n d : Nat}
    (h : d ∈ (i.search point fuel n).digits) :
    d < 10 := by
  induction fuel generalizing n with
  | zero => cases h
  | succ fuel ih =>
    rw [Interval.search] at h
    split at h
    · next k hk =>
      dsimp only [dropZeros] at h
      rw [mem_reverse] at h
      exact lt_of_mem_digitsOf (mem_reverse.1 ((dropWhile_sublist _).subset h))
    · exact ih h

theorem lt_of_mem_shortest {f : Float} {d : Nat} (h : d ∈ (shortest f).digits) :
    d < 10 := lt_of_mem_search h

end TaskShell.Number

namespace TaskShell.Json

open Text Number List

/-! ## The characters of numbers -/

/-- A text of characters that stand in numbers and words. -/
def PlainText (text : String) : Prop := ∀ c ∈ text.toList, isPlain c = true

theorem PlainText.append {s t : String} (hs : PlainText s) (ht : PlainText t) :
    PlainText (s ++ t) := by
  intro c hc
  rw [String.toList_append, mem_append] at hc
  exact hc.elim (hs c) (ht c)

theorem isJsonBlank_of_isPlain {c : Char} (h : isPlain c = true) :
    isJsonBlank (.scalar c) = false := by
  rw [← Bool.not_eq_true]
  intro hblank
  simp only [isJsonBlank, Bool.or_eq_true, beq_iff_eq,
    Sign.scalar.injEq] at hblank
  rcases hblank with ((rfl | rfl) | rfl) | rfl <;> revert h <;> decide

theorem plainText_digitText {ds : List Nat} (h : ∀ d ∈ ds, d < 10) :
    PlainText (digitText ds) := by
  have hall : ∀ d < 10, isPlain (Char.ofNat (48 + d)) = true := by decide
  intro c hc
  rw [digitText, String.toList_ofList, mem_map] at hc
  obtain ⟨d, hd, rfl⟩ := hc
  exact hall d (h d hd)

theorem plainText_zeros (n : Nat) :
    PlainText (String.ofList (List.replicate n '0')) := by
  intro c hc
  rw [String.toList_ofList] at hc
  rw [eq_of_mem_replicate hc]
  decide

theorem plainText_toString (n : Nat) : PlainText (toString n) := by
  intro c hc
  rw [Nat.toString_eq_ofList_toDigits, String.toList_ofList] at hc
  have hdigit : isAsciiDigit c = true :=
    Nat.isDigit_of_mem_toDigits (by decide) (by decide) hc
  rw [isPlain, hdigit]
  rfl

theorem plainText_of_all {text : String} (h : text.toList.all isPlain = true) :
    PlainText text := all_eq_true.1 h

private theorem plainText_positive (x : Float) :
    PlainText (numberFormat.positive x) := by
  have hword : ∀ text ∈ ["0.", ".0", ".", "0", "e", "-", "+", ""],
      PlainText text := by
    intro text htext
    refine plainText_of_all ?_
    revert text
    decide
  have hdigits : ∀ d ∈ (shortest x).digits, d < 10 :=
    fun d hd => lt_of_mem_shortest hd
  unfold Format.positive
  generalize shortest x = found at hdigits
  obtain ⟨ds, point⟩ := found
  dsimp only at hdigits ⊢
  split
  · split
    · exact ((hword _ (by decide)).append (plainText_zeros _)).append
        (plainText_digitText hdigits)
    · split
      · exact ((plainText_digitText hdigits).append (plainText_zeros _)).append
          (hword _ (by decide))
      · exact ((plainText_digitText fun d hd =>
          hdigits d (mem_of_mem_take hd)).append (hword _ (by decide))).append
          (plainText_digitText fun d hd => hdigits d (mem_of_mem_drop hd))
  · refine PlainText.append (PlainText.append (PlainText.append
      (PlainText.append ?_ (hword _ (by decide))) ?_) ?_) (plainText_toString _)
    · split
      · exact hword _ (by decide)
      · exact plainText_digitText hdigits
      · next d rest _ =>
        have hfirst : ∀ e ∈ [d], e < 10 :=
          fun e he => hdigits e (mem_singleton.1 he ▸ mem_cons_self)
        exact ((plainText_digitText hfirst).append (hword _ (by decide))).append
          (plainText_digitText fun e he => hdigits e (mem_cons_of_mem _ he))
    · split
      · exact hword _ (by decide)
      · exact hword _ (by decide)
    · split
      · exact hword _ (by decide)
      · exact hword _ (by decide)

theorem plainText_write (x : Float) : PlainText (numberFormat.write x) := by
  have hword : ∀ text ∈ ["NaN", "Infinity", "0", ".0", "-", ""],
      PlainText text := by
    intro text htext
    refine plainText_of_all ?_
    revert text
    decide
  have hsign : PlainText (if signBit x then "-" else "") := by
    split
    · exact hword _ (by decide)
    · exact hword _ (by decide)
  unfold Format.write
  dsimp only
  split
  · exact hword _ (by decide)
  · split
    · exact hsign.append (hword _ (by decide))
    · split
      · exact (hsign.append (hword _ (by decide))).append (hword _ (by decide))
      · exact hsign.append (plainText_positive x)

/-! ## Numbers within documents -/

/-- What `readPlain` leaves is the end of the text. -/
theorem readPlain_suffix {cs rest : List Sign} {v : Doc}
    (h : readPlain cs = .ok (v, rest)) : rest <:+ cs := by
  unfold readPlain at h
  split at h
  · cases h
    exact drop_suffix _ _
  · cases h
  · cases h

theorem ok_of_bind {ε α β : Type} {x : Except ε α} {f : α → Except ε β} {b : β}
    (h : x >>= f = .ok b) :
    ∃ a, x = .ok a ∧ f a = .ok b := by
  cases x with
  | error e => cases h
  | ok a => exact ⟨a, rfl, h⟩

theorem readValue_ok {s : Settings} {fuel : Nat} {cs rest : List Sign} {v : Doc}
    (h : readValue s (fuel + 1) cs = .ok (v, rest)) :
    (∃ t, v = .text t) ∨
    (∃ fields, v = .record fields ∧
      (fields = [] ∨ ∃ cs', readFields s fuel cs' [] = .ok (fields, rest))) ∨
    (∃ items, v = .list items ∧
      (items = [] ∨ ∃ cs', readItems s fuel cs' [] = .ok (items, rest))) ∨
    readPlain cs = .ok (v, rest) := by
  rw [readValue.eq_def] at h
  dsimp only at h
  split at h
  · obtain ⟨⟨t, more⟩, -, hfound⟩ := ok_of_bind h
    cases hfound
    exact .inl ⟨t, rfl⟩
  · refine .inr (.inl ?_)
    split at h
    · cases h
      exact ⟨[], rfl, .inl rfl⟩
    · obtain ⟨⟨fields, more⟩, hread, hfound⟩ := ok_of_bind h
      cases hfound
      exact ⟨fields, rfl, .inr ⟨_, hread⟩⟩
  · refine .inr (.inr (.inl ?_))
    split at h
    · cases h
      exact ⟨[], rfl, .inl rfl⟩
    · obtain ⟨⟨items, more⟩, hread, hfound⟩ := ok_of_bind h
      cases hfound
      exact ⟨items, rfl, .inr ⟨_, hread⟩⟩
  · exact .inr (.inr (.inr h))

/-- **A number that is read back from a document of its own is `Legible`**, also
within others. -/
theorem legible_float {s : Settings} {x : Float}
    (h : readDocument s (signs (numberFormat.write x)) = .ok (.float x)) :
    Legible (.float x) := by
  have hplain := plainText_write x
  have hskip : ∀ cs, cs <:+ signs (numberFormat.write x) → skip cs = cs := by
    intro cs hcs
    cases cs with
    | nil => rfl
    | cons c cs =>
      obtain ⟨d, hd, rfl⟩ := mem_map.1 (hcs.subset mem_cons_self)
      exact skip_cons (isJsonBlank_of_isPlain (hplain d hd)) cs
  unfold readDocument at h
  split at h
  · cases h
  · obtain ⟨⟨v, rest⟩, hread, hrest⟩ := ok_of_bind h
    rw [hskip _ (suffix_refl _)] at hread
    dsimp only at hrest
    split at hrest
    · next hempty =>
      cases hrest
      have hnumber : readPlain (signs (numberFormat.write x)) =
          .ok (.float x, rest) := by
        rcases readValue_ok hread with ⟨t, ht⟩ | ⟨fields, hfields, -⟩ |
          ⟨items, hitems, -⟩ | hplain
        · cases ht
        · cases hfields
        · cases hitems
        · exact hplain
      rw [hskip rest (readPlain_suffix hnumber), List.isEmpty_iff] at hempty
      rw [hempty] at hnumber
      exact hnumber
    · cases hrest

end TaskShell.Json

namespace TaskShell.Number

open List

/-! ## Bounds of the digits -/

/-- The range of the exact values of doubles, as `Dyadic.ofFloat` gives them. -/
structure Dyadic.InRange (d : Dyadic) : Prop where
  mantissa : d.mantissa < Nat.pow 2 53
  least : -1074 ≤ d.exponent
  greatest : d.exponent ≤ 972

theorem Dyadic.inRange_ofFloat (f : Float) : (Dyadic.ofFloat f).InRange := by
  have hexponent : exponentBits f < 2048 := Nat.mod_lt _ (by decide)
  have hfraction : fractionBits f < Nat.pow 2 52 := Nat.mod_lt _ (by decide)
  have hhidden : Nat.pow 2 53 = 2 * Nat.pow 2 52 := rfl
  unfold Dyadic.ofFloat
  dsimp only
  split
  · exact ⟨by dsimp only; omega, by dsimp only; omega, by dsimp only; omega⟩
  · next hzero =>
    have hpositive : exponentBits f ≠ 0 := by simpa using hzero
    exact ⟨by dsimp only; omega, by dsimp only; omega, by dsimp only; omega⟩

theorem scale_le {e : Int} {n : Nat} (h : e ≤ n) :
    (if 0 ≤ e then Nat.pow 2 e.toNat else 1) ≤ Nat.pow 2 n := by
  split
  · exact Nat.pow_le_pow_right (by decide) (Int.toNat_le.2 h)
  · exact Nat.one_le_two_pow

private theorem two_pow_mul_le {a b c k : Nat} (h : a + b + c ≤ 3 * k) :
    Nat.pow 2 a * Nat.pow 2 b * Nat.pow 2 c ≤ Nat.pow 10 k :=
  calc 2 ^ a * 2 ^ b * 2 ^ c = 2 ^ (a + b + c) := by
        rw [Nat.pow_add, Nat.pow_add]
    _ ≤ 2 ^ (3 * k) := Nat.pow_le_pow_right (by decide) h
    _ = (2 ^ 3) ^ k := Nat.pow_mul ..
    _ ≤ 10 ^ k := Nat.pow_le_pow_left (by decide) k

theorem Interval.value_of_le {d : Dyadic} {a b k : Nat}
    (hmantissa : d.mantissa ≤ Nat.pow 2 a)
    (hexponent : d.exponent ≤ b) (h : 2 + a + b ≤ 3 * k) :
    (Interval.of d).value ≤ Nat.pow 10 k :=
  calc (Interval.of d).value
      = 4 * d.mantissa * (if 0 ≤ d.exponent then Nat.pow 2 d.exponent.toNat
        else 1) := rfl
    _ ≤ Nat.pow 2 2 * Nat.pow 2 a * Nat.pow 2 b :=
        Nat.mul_le_mul (Nat.mul_le_mul (by decide) hmantissa)
          (scale_le hexponent)
    _ ≤ Nat.pow 10 k := two_pow_mul_le h

theorem powerAbove_bounds (value den fuel : Nat) (k : Int) :
    k ≤ powerAbove value den fuel k ∧
    powerAbove value den fuel k ≤ k + fuel := by
  induction fuel generalizing k with
  | zero => exact ⟨Int.le_refl _, by simp [powerAbove]⟩
  | succ fuel ih =>
    have hnext := ih (k + 1)
    rw [powerAbove]
    split
    · omega
    · omega

theorem roundDiv_le (num den : Nat) : roundDiv num den ≤ num / den + 1 := by
  unfold roundDiv
  dsimp only
  split
  · omega
  · split
    · omega
    · omega

theorem le_of_taken {first second : Bool} {near far bound k : Nat}
    (hnear : near ≤ bound) (hfar : far ≤ bound)
    (h : (if first then some near else if second then some far else none) =
      some k) : k ≤ bound := by
  cases first with
  | true =>
    cases h
    exact hnear
  | false =>
    cases second with
    | true =>
      cases h
      exact hfar
    | false => cases h

theorem far_le (near quotient : Nat) :
    (if near == quotient then quotient + 1 else quotient) ≤ quotient + 1 := by
  split
  · exact Nat.le_refl _
  · exact Nat.le_succ _

theorem Interval.atDigits_le {i : Interval} {point : Int} {n k : Nat}
    (h : i.atDigits point n = some k) :
    k ≤ i.value * Nat.pow 10 ((n : Int) - point).toNat + 1 := by
  unfold Interval.atDigits at h
  by_cases hshift : 0 ≤ (n : Int) - point
  · simp only [if_pos hshift] at h
    exact Nat.le_trans (le_of_taken (roundDiv_le _ _) (far_le _ _) h)
      (Nat.succ_le_succ (Nat.div_le_self _ _))
  · simp only [if_neg hshift] at h
    have hscale : i.value ≤ i.value * Nat.pow 10 ((n : Int) - point).toNat :=
      Nat.le_mul_of_pos_right _ (Nat.pow_pos (by decide))
    exact Nat.le_trans (le_of_taken (roundDiv_le _ _) (far_le _ _) h)
      (Nat.succ_le_succ (Nat.le_trans (Nat.div_le_self _ _) hscale))

private theorem length_dropZeros_le (ds : List Nat) :
    (dropZeros ds).length ≤ ds.length := by
  rw [dropZeros, length_reverse]
  exact Nat.le_trans (dropWhile_sublist _).length_le
    (Nat.le_of_eq length_reverse)

theorem Interval.search_bounds {i : Interval} {point : Int} {size : Nat}
    (hsize : 0 < size) (fuel n : Nat)
    (htried : ∀ m k, m < n + fuel → i.atDigits point m = some k →
      k < Nat.pow 10 size) :
    (i.search point fuel n).digits.length ≤ size ∧
    point ≤ (i.search point fuel n).point ∧
      (i.search point fuel n).point ≤ point + 1 := by
  induction fuel generalizing n with
  | zero => exact ⟨Nat.zero_le _, Int.le_refl _, Int.le_add_one (Int.le_refl _)⟩
  | succ fuel ih =>
    rw [Interval.search]
    split
    · next k hk =>
      have hlt := htried n k (by omega) hk
      have hdigits : (digitsOf k).length ≤ size := by
        rw [digitsOf, length_map]
        exact (Nat.length_toDigits_le_iff (by decide) hsize).2 hlt
      refine ⟨Nat.le_trans (length_dropZeros_le _) hdigits, ?_, ?_⟩
      · dsimp only
        split <;> omega
      · dsimp only
        split <;> omega
    · exact ih (n + 1) fun m k hm => htried m k (by omega)

private theorem scaled_lt {value m a b : Nat} (hvalue : value ≤ Nat.pow 10 a)
    (hm : m ≤ b) :
    value * Nat.pow 10 m + 1 < Nat.pow 10 (a + b + 1) := by
  show value * 10 ^ m + 1 < 10 ^ (a + b + 1)
  have hscaled : value * 10 ^ m ≤ 10 ^ (a + b) := by
    rw [Nat.pow_add]
    exact Nat.mul_le_mul hvalue (Nat.pow_le_pow_right (by decide) hm)
  have hpos : 0 < 10 ^ (a + b) := Nat.pow_pos (by decide)
  rw [Nat.pow_succ]
  omega

/-- **The `shortest` digits of a double are few, and their point is near.** -/
theorem shortest_bounds (f : Float) :
    (shortest f).digits.length ≤ 700 ∧ -400 ≤ (shortest f).point ∧
    (shortest f).point ≤ 400 := by
  have hrange := Dyadic.inRange_ofFloat f
  generalize hd : Dyadic.ofFloat f = d at hrange
  have hlog : d.mantissa.log2 ≤ 53 := by
    by_cases hzero : d.mantissa = 0
    · rw [hzero]
      decide
    · exact Nat.le_of_lt ((Nat.log2_lt hzero).2 hrange.mantissa)
  have hguess :
    -330 ≤ ((d.mantissa.log2 : Int) + d.exponent) * 30103 / 100000 - 1 ∧
      ((d.mantissa.log2 : Int) + d.exponent) * 30103 / 100000 - 1 ≤ 330 := by
    have hleast := hrange.least
    have hgreatest := hrange.greatest
    omega
  have hpoint := powerAbove_bounds (Interval.of d).value (Interval.of d).den 4
    (((d.mantissa.log2 : Int) + d.exponent) * 30103 / 100000 - 1)
  unfold shortest
  rw [hd]
  dsimp only
  generalize powerAbove (Interval.of d).value (Interval.of d).den 4
    (((d.mantissa.log2 : Int) + d.exponent) * 30103 / 100000 - 1) =
      point at hpoint ⊢
  -- the size of the greatest value stays a variable, so that no power of it is
  -- computed
  obtain ⟨size, hsize⟩ : ∃ size : Nat, size = 343 := ⟨_, rfl⟩
  have hvalue : (Interval.of d).value ≤ Nat.pow 10 size :=
    Interval.value_of_le (Nat.le_of_lt hrange.mantissa) (b := 972)
      hrange.greatest (by omega)
  have htried : ∀ m k, m < 1 + 17 → (Interval.of d).atDigits point m = some k →
      k < Nat.pow 10 (size + 350 + 1) := by
    intro m k hm hk
    have hshift : ((m : Int) - point).toNat ≤ 350 := by omega
    exact Nat.lt_of_le_of_lt (Interval.atDigits_le hk) (scaled_lt hvalue hshift)
  obtain ⟨hlength, hlow, hhigh⟩ :=
    Interval.search_bounds (Nat.succ_pos _) 17 1 htried
  exact ⟨by omega, by omega, by omega⟩

/-! ## Lengths of texts -/

theorem length_digitText (ds : List Nat) :
    (digitText ds).toList.length = ds.length := by
  rw [digitText, String.toList_ofList, length_map]

end TaskShell.Number

namespace TaskShell.Json

open Number List

theorem length_toString_le {n : Nat} (h : n < 1000) :
    (toString n).toList.length ≤ 3 := by
  rw [Nat.toString_eq_ofList_toDigits, String.toList_ofList]
  exact (Nat.length_toDigits_le_iff (by decide) (by decide)).2 h

private theorem length_positive_le (x : Float) :
    (numberFormat.positive x).toList.length ≤ 750 := by
  obtain ⟨hdigits, hlow, hhigh⟩ := shortest_bounds x
  have hbounds : numberFormat.least = -4 ∧
      numberFormat.greatest = 15 := ⟨rfl, rfl⟩
  have hwords : "0.".toList.length = 2 ∧ ".".toList.length = 1 ∧
    "0".toList.length = 1 ∧ "e".toList.length = 1 ∧
    numberFormat.whole.toList.length = 2 := ⟨rfl, rfl, rfl, rfl, rfl⟩
  unfold Format.positive
  generalize shortest x = found at hdigits hlow hhigh ⊢
  obtain ⟨ds, point⟩ := found
  dsimp only at hdigits hlow hhigh ⊢
  rw [hbounds.1, hbounds.2]
  split
  · next hpower =>
    simp only [Bool.and_eq_true, decide_eq_true_eq] at hpower
    split
    · simp only [String.toList_append, length_append, length_digitText,
        String.toList_ofList, length_replicate]
      omega
    · split
      · simp only [String.toList_append, length_append, length_digitText,
          String.toList_ofList, length_replicate]
        omega
      · simp only [String.toList_append, length_append, length_digitText,
          length_take, length_drop]
        omega
  · have hsign : (if point - 1 < 0 then "-" else "+").toList.length =
        1 := by split <;> rfl
    have hzero : (if (point - 1).natAbs < 10 then "0" else "").toList.length ≤
        1 := by split <;> decide
    have hpower := length_toString_le (n := (point - 1).natAbs) (by omega)
    have hall : ∀ head : String, head.toList.length ≤ ds.length + 1 →
        (head ++ "e" ++ (if point - 1 < 0 then "-" else "+") ++
          (if (point - 1).natAbs < 10 then "0" else "") ++
          toString (point - 1).natAbs).toList.length ≤ 750 := by
      intro head hhead
      simp only [String.toList_append, length_append]
      omega
    refine hall _ ?_
    split
    · exact Nat.le_refl _
    · exact Nat.le_trans (Nat.le_of_eq (length_digitText _)) (by simp)
    · simp only [String.toList_append, length_append, length_digitText,
        length_cons, length_nil]
      omega

/-- **The text of a number is short.** -/
theorem length_write_le (x : Float) :
    (numberFormat.write x).toList.length ≤ 800 := by
  have hpositive := length_positive_le x
  have hsign : (if signBit x then "-" else "").toList.length ≤ 1 := by
    split <;> decide
  have hwords : numberFormat.infinity.toList.length = 8 ∧
    "0".toList.length = 1 ∧
    numberFormat.whole.toList.length = 2 := ⟨rfl, rfl, rfl⟩
  unfold Format.write
  dsimp only
  split
  · decide
  · split
    · rw [String.toList_append, length_append]
      omega
    · split
      · rw [String.toList_append, String.toList_append, length_append,
          length_append]
        omega
      · rw [String.toList_append, length_append]
        omega

end TaskShell.Json

import TaskShell.Files.Basic
import TaskShell.Proofs.JsonReading

/-!
# Quoted texts in messages

A message shows a path between quotes, with escapes for what could be taken for
a quote and for what has no visible form. Such a text can be read back character
by character, so that different paths are shown differently. It follows that two
refusals with the same wording are the same refusal.
-/

namespace TaskShell

open List

namespace Text

/-! ## Reading back -/

def hexNumber (digits : List Char) : Nat :=
  digits.foldl (fun n c => n * 16 + (Json.hexValue? c).getD 0) 0

theorem hexNumber_hex {width n : Nat} (h : n < Nat.pow 16 width) :
    hexNumber (hex width n) = n := by
  induction width generalizing n with
  | zero =>
    have hzero : n = 0 := Nat.lt_one_iff.1 h
    rw [hzero]
    rfl
  | succ width ih =>
    have hhigh : n / 16 < Nat.pow 16 width :=
      Nat.div_lt_of_lt_mul (by rwa [Nat.mul_comm])
    have hlow : Json.hexValue? (hexDigit (n % 16)) = some (n % 16) :=
      Json.hexValue?_hexDigit (Nat.mod_lt n (by decide))
    have hrest := ih hhigh
    unfold hexNumber at hrest ⊢
    rw [hex, foldl_append, hrest, foldl_cons, foldl_nil, hlow, Option.getD_some]
    omega

theorem length_hex (width n : Nat) : (hex width n).length = width := by
  induction width generalizing n with
  | zero => rfl
  | succ width ih => rw [hex, length_append, ih, length_singleton]

/-- The character that a letter after a backslash stands for, with what follows
it. -/
def unescape (e : Char) (rest : List Char) : Char × List Char :=
  if e = 'n' then ('\n', rest)
  else if e = 'r' then ('\r', rest)
  else if e = 't' then ('\t', rest)
  else if e = 'x' then (Char.ofNat (hexNumber (rest.take 2)), rest.drop 2)
  else if e = 'u' then (Char.ofNat (hexNumber (rest.take 4)), rest.drop 4)
  else if e = 'U' then (Char.ofNat (hexNumber (rest.take 8)), rest.drop 8)
  else (e, rest)

/-- The first character of a text between quotes, with what follows it. -/
def unquote : List Char → Option (Char × List Char)
  | [] => none
  | c :: rest =>
    if c = '\\' then
      match rest with
      | [] => none
      | e :: rest => some (unescape e rest)
    else some (c, rest)

/-- `hexNumber` reads an escape by number back. -/
theorem some_hexNumber (width : Nat) {c : Char} (h : c.toNat < Nat.pow 16 width)
    (rest : List Char) :
    some (Char.ofNat (hexNumber ((hex width c.toNat ++ rest).take width)),
      (hex width c.toNat ++ rest).drop width) = some (c, rest) := by
  have hlength := length_hex width c.toNat
  rw [List.take_left' hlength, List.drop_left' hlength, hexNumber_hex h,
    Char.ofNat_toNat]

/-- **`unquote` reads a character between quotes back.** -/
theorem unquote_quotedChar {quote : Char} (hquote : quote = '\'' ∨ quote = '"')
    (c : Char) (rest : List Char) :
    unquote (quotedChar quote c ++ rest) = some (c, rest) := by
  unfold quotedChar
  split
  · next hself =>
    -- neither a quote nor a backslash is the letter of an escape
    rw [Bool.or_eq_true, beq_iff_eq, beq_iff_eq] at hself
    rcases hself with rfl | rfl
    · rcases hquote with rfl | rfl <;> rfl
    · rfl
  · next hself =>
    have hslash : c ≠ '\\' := by
      rintro rfl
      simp at hself
    split
    · next hc => rw [beq_iff_eq.1 hc]; rfl
    · split
      · next hc => rw [beq_iff_eq.1 hc]; rfl
      · split
        · next hc => rw [beq_iff_eq.1 hc]; rfl
        · split
          · show (if c = '\\' then _ else some (c, rest)) = _
            rw [if_neg hslash]
          · dsimp only
            split
            · next hsmall => exact some_hexNumber 2 hsmall rest
            · split
              · next hsmall => exact some_hexNumber 4 hsmall rest
              · have hsmall : c.toNat < Nat.pow 16 8 := c.val.toNat_lt
                exact some_hexNumber 8 hsmall rest

theorem flatMap_quotedChar_injective {quote : Char}
    (hquote : quote = '\'' ∨ quote = '"') {cs ds : List Char}
    (h : cs.flatMap (quotedChar quote) = ds.flatMap (quotedChar quote)) :
    cs = ds := by
  induction cs generalizing ds with
  | nil =>
    cases ds with
    | nil => rfl
    | cons d ds =>
      have hd := unquote_quotedChar hquote d (ds.flatMap (quotedChar quote))
      rw [flatMap_cons, flatMap_nil] at h
      rw [← h] at hd
      cases hd
  | cons c cs ih =>
    have hc := unquote_quotedChar hquote c (cs.flatMap (quotedChar quote))
    rw [flatMap_cons] at h
    rw [h] at hc
    cases ds with
    | nil => cases hc
    | cons d ds =>
      rw [flatMap_cons, unquote_quotedChar hquote d, Option.some.injEq,
        Prod.mk.injEq] at hc
      rw [hc.1, ih hc.2.symm]

private theorem quoteFor_cases (cs : List Char) :
    quoteFor cs = '\'' ∨ quoteFor cs = '"' := by
  unfold quoteFor
  split
  · exact .inr rfl
  · exact .inl rfl

/-- **Different texts are `quoted` differently.** -/
theorem quoted_injective {s t : String} (h : quoted s = quoted t) : s = t := by
  have hchars : quotedChars s.toList = quotedChars t.toList :=
    String.ofList_inj.1 h
  unfold quotedChars at hchars
  dsimp only at hchars
  rw [List.cons_append, List.cons_append, List.cons.injEq] at hchars
  obtain ⟨hquote, hrest⟩ := hchars
  rw [hquote, List.append_cancel_right_eq] at hrest
  exact String.toList_inj.1
    (flatMap_quotedChar_injective (quoteFor_cases _) hrest)

end Text

namespace Files

open Text

/-! ## Refusals -/

/-- What the wording of a refusal starts with, up to the path. -/
def lead (code : Errno) : String :=
  "[Errno " ++ toString code.number ++ "] " ++ code.text ++ ": "

theorem message_refuse (code : Errno) (p : String) :
    (refuse code p).message = lead code ++ quoted p := by
  have hshown : " -> ".intercalate ([Value.text p].map Value.shown) =
      quoted p := by
    rw [List.map_singleton, String.intercalate_singleton, Value.shown]
  unfold refuse Fault.message
  dsimp only
  rw [hshown, lead]
  exact (String.append_assoc ..).symm

private theorem number_injective {code other : Errno}
    (h : code.number = other.number) :
    code = other := by
  cases code <;> cases other <;> first | rfl | cases h

/-- The number of a condition stands between the first blank and the first
closing bracket of its wording. -/
theorem number_of_lead_append {code other : Errno} {cs ds : List Char}
    (h : (lead code).toList ++ cs = (lead other).toList ++ ds) :
    code = other := by
  have hlead : ∀ code : Errno, (lead code).toList =
      "[Errno ".toList ++ (Nat.toDigits 10 code.number ++ ']' ::
        (" " ++ code.text ++ ": ").toList) := by
    intro code
    have hnumber : (toString code.number).toList =
        Nat.toDigits 10 code.number := Nat.toList_repr
    simp only [lead, String.toList_append, hnumber, append_assoc]
    rfl
  have hdigits : ∀ (n : Nat) (rest : List Char),
      (Nat.toDigits 10 n ++ ']' :: rest).takeWhile (· != ']') =
        Nat.toDigits 10 n := by
    intro n rest
    rw [takeWhile_append_of_pos]
    · simp
    · intro c hc
      have hdigit := Nat.isDigit_of_mem_toDigits (by decide) (by decide) hc
      rw [bne_iff_ne]
      rintro rfl
      cases hdigit
  rw [hlead, hlead] at h
  simp only [append_assoc, cons_append, append_cancel_left_eq] at h
  have hsame := congrArg (List.takeWhile (· != ']')) h
  rw [hdigits, hdigits] at hsame
  apply number_injective
  rw [← Nat.ofDigitChars_toDigits (b := 10) (n := code.number) (by decide)
    (by decide), hsame, Nat.ofDigitChars_toDigits (by decide) (by decide)]

/-- **A refusal is known from its wording**: its code and its path. -/
theorem refuse_of_message_eq {code other : Errno} {p q : String}
    (h : (refuse code p).message = (refuse other q).message) :
    code = other ∧ p = q := by
  rw [message_refuse, message_refuse] at h
  have hchars : (lead code).toList ++ (quoted p).toList =
      (lead other).toList ++ (quoted q).toList := by
    rw [← String.toList_append, h, String.toList_append]
  obtain rfl := number_of_lead_append hchars
  exact ⟨rfl,
    quoted_injective (String.toList_inj.1 (append_cancel_left hchars))⟩

end Files

end TaskShell

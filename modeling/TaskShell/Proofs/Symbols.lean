import Mathlib.Data.List.TakeWhile
import TaskShell.Proofs.Action
import TaskShell.Proofs.Utf8

/-!
# Texts as symbols

Three bytes are written as four symbols of six bits each. The reader takes
symbol by symbol and gives a byte whenever eight bits are there, so four symbols
give the three bytes back and leave nothing over. A last group of one or two
bytes has unused bits, which are zero, and is filled up with padding signs,
where reading ends.

The reader would pass over foreign bytes, and the reading of bytes as a text
would put a replacement for bad ones. Neither ever happens to what was written,
as all of it is symbols and all bytes come from a text.
-/

namespace TaskShell

open Act Text List

namespace Codec.Base64

/-! ## Reading symbols -/

/-- `value?` reads a six-bit value back from its `symbol`, which is no padding
sign. -/
theorem value?_symbol {n : Nat} (h : n < 64) :
    value? (symbol n) = some n ∧ (symbol n == pad) = false := by
  have hall : ∀ n < 64, value? (symbol n) = some n ∧
      (symbol n == pad) = false := by decide
  exact hall n h

theorem decodeFrom_symbol {n : Nat} (h : n < 64) (strict : Bool) {g : Group}
    (hpadded : g.padded = false) (rest : List UInt8) :
    decodeFrom strict g (symbol n :: rest) =
      ((g.push n).2 ++ ·) <$> decodeFrom strict (g.push n).1 rest := by
  obtain ⟨hvalue, hpad⟩ := value?_symbol h
  rw [decodeFrom, hpad, if_neg Bool.false_ne_true, hvalue]
  simp only [hpadded, Bool.and_false, Bool.false_eq_true, if_false]

def Group.startAt (symbols : Nat) : Group := { Group.empty with symbols }

section Groups

variable (strict : Bool) (k : Nat) (a b c : UInt8)

theorem decodeFrom_three (rest : List UInt8) :
    decodeFrom strict (.startAt k) (symbol (a.toNat / 4) ::
      symbol (a.toNat % 4 * 16 + b.toNat / 16) ::
        symbol (b.toNat % 16 * 4 + c.toNat / 64) ::
          symbol (c.toNat % 64) :: rest) =
      ([a, b, c] ++ ·) <$> decodeFrom strict (.startAt (k + 4)) rest := by
  have ha := a.toNat_lt
  have hb := b.toNat_lt
  have hc := c.toNat_lt
  have hfirst : a.toNat / 4 * 4 + (a.toNat % 4 * 16 + b.toNat / 16) / 16 =
      a.toNat := by omega
  have hsecond : (a.toNat % 4 * 16 + b.toNat / 16) % 16 * 16 +
      (b.toNat % 16 * 4 + c.toNat / 64) / 4 = b.toNat := by
    omega
  have hthird : (b.toNat % 16 * 4 + c.toNat / 64) % 4 * 64 + c.toNat % 64 =
      c.toNat := by omega
  rw [decodeFrom_symbol (by omega) strict rfl, decodeFrom_symbol (by omega)
    strict rfl, decodeFrom_symbol (by omega) strict rfl,
    decodeFrom_symbol (by omega) strict rfl]
  simp only [Group.startAt, Group.empty, Group.push, hfirst, hsecond, hthird,
    UInt8.ofNat_toNat]
  cases decodeFrom strict ⟨0, 0, 0, false, k + 4⟩ rest <;> rfl

theorem decodeFrom_two :
    decodeFrom strict (.startAt k) [symbol (a.toNat / 4),
      symbol (a.toNat % 4 * 16 + b.toNat / 16), symbol (b.toNat % 16 * 4),
      pad] = .ok [a, b] := by
  have ha := a.toNat_lt
  have hb := b.toNat_lt
  have hfirst : a.toNat / 4 * 4 + (a.toNat % 4 * 16 + b.toNat / 16) / 16 =
      a.toNat := by omega
  have hsecond : (a.toNat % 4 * 16 + b.toNat / 16) % 16 * 16 +
      b.toNat % 16 * 4 / 4 = b.toNat := by omega
  rw [decodeFrom_symbol (by omega) strict rfl, decodeFrom_symbol (by omega)
    strict rfl, decodeFrom_symbol (by omega) strict rfl]
  simp only [Group.startAt, Group.empty, Group.push, hfirst, hsecond,
    UInt8.ofNat_toNat]
  cases strict <;> rfl

private theorem decodeFrom_one :
    decodeFrom strict (.startAt k) [symbol (a.toNat / 4),
      symbol (a.toNat % 4 * 16), pad, pad] = .ok [a] := by
  have ha := a.toNat_lt
  have hfirst : a.toNat / 4 * 4 + a.toNat % 4 * 16 / 16 = a.toNat := by omega
  rw [decodeFrom_symbol (by omega) strict rfl,
    decodeFrom_symbol (by omega) strict rfl]
  simp only [Group.startAt, Group.empty, Group.push, hfirst, UInt8.ofNat_toNat]
  cases strict <;> rfl

end Groups

/-- **`decodeFrom` reads what `encode` wrote**, whatever was read before. -/
theorem decodeFrom_encode (strict : Bool) (k : Nat) (bytes : List UInt8) :
    decodeFrom strict (.startAt k) (encode bytes) = .ok bytes := by
  induction bytes using encode.induct generalizing k with
  | case1 a b c rest ih =>
    rw [encode, decodeFrom_three, ih]
    rfl
  | case2 a b => exact decodeFrom_two strict k a b
  | case3 a => exact decodeFrom_one strict k a
  | case4 => rfl

/-! ## What is written -/

/-- The symbols, in the order of their values. -/
def alphabet : String :=
  "ABCDEFGHIJKLMNOPQRSTUVWXYZabcdefghijklmnopqrstuvwxyz0123456789+/"

def character (b : UInt8) : Char := Char.ofNat b.toNat

theorem character_symbol {n : Nat} (h : n < 64) :
    alphabet.toList[n]? = some (character (symbol n)) := by
  have hall :
      ∀ n < 64, alphabet.toList[n]? = some (character (symbol n)) := by decide
  exact hall n h

/-- How many bytes the last group lacks. -/
def lacking (size : Nat) : Nat := (3 - size % 3) % 3

/-- **`encode` writes symbols first, then padding signs**, as many as bytes are
missing. -/
theorem encode_eq (bytes : List UInt8) :
    ∃ values : List Nat, (∀ n ∈ values, n < 64) ∧
    encode bytes =
      values.map symbol ++ List.replicate (lacking bytes.length) pad ∧
    values.length + lacking bytes.length = 4 * ((bytes.length + 2) / 3) := by
  induction bytes using encode.induct with
  | case1 a b c rest ih =>
    obtain ⟨values, hvalues, hencode, hlength⟩ := ih
    have ha := a.toNat_lt
    have hb := b.toNat_lt
    have hc := c.toNat_lt
    have hlacking : lacking (a :: b :: c :: rest).length =
        lacking rest.length := by
      simp only [lacking, length_cons]
      omega
    refine ⟨a.toNat / 4 :: (a.toNat % 4 * 16 + b.toNat / 16) ::
      (b.toNat % 16 * 4 + c.toNat / 64) :: c.toNat % 64 :: values, ?_, ?_, ?_⟩
    · simp only [forall_mem_cons]
      exact ⟨by omega, by omega, by omega, by omega, hvalues⟩
    · rw [encode, hencode, hlacking]
      rfl
    · rw [hlacking]
      simp only [length_cons] at hlength ⊢
      omega
  | case2 a b =>
    have ha := a.toNat_lt
    have hb := b.toNat_lt
    refine ⟨[a.toNat / 4, a.toNat % 4 * 16 + b.toNat / 16, b.toNat % 16 * 4],
      ?_, rfl, by simp [lacking]⟩
    simp only [forall_mem_cons]
    exact ⟨by omega, by omega, by omega, by simp⟩
  | case3 a =>
    have ha := a.toNat_lt
    refine ⟨[a.toNat / 4, a.toNat % 4 * 16], ?_, rfl, by simp [lacking]⟩
    simp only [forall_mem_cons]
    exact ⟨by omega, by omega, by simp⟩
  | case4 => exact ⟨[], by simp, rfl, rfl⟩

end Codec.Base64

namespace Text

/-! ## Texts of small characters -/

theorem toNat_character (b : UInt8) :
    (Codec.Base64.character b).toNat = b.toNat := by
  have hlt := b.toNat_lt
  have hvalid : b.toNat.isValidChar := .inl (by omega)
  rw [Codec.Base64.character, Char.ofNat, dif_pos hvalid]
  rfl

private theorem utf8OfChar_character {b : UInt8} (h : b.toNat < 128) :
    utf8OfChar (Codec.Base64.character b) = [b] := by
  have hbyte : b.toNat.toUInt8 = b := UInt8.ofNat_toNat
  simp only [utf8OfChar, toNat_character, if_pos h, hbyte]

theorem utf8Of_map_character {bs : List UInt8} (h : ∀ b ∈ bs, b.toNat < 128) :
    utf8Of (bs.map Codec.Base64.character) = bs := by
  induction bs with
  | nil => rfl
  | cons b bs ih =>
    obtain ⟨hb, hbs⟩ := forall_mem_cons.1 h
    rw [map_cons, utf8Of, flatMap_cons, utf8OfChar_character hb,
      ← utf8Of, ih hbs]
    rfl

end Text

namespace Shell

open Codec.Base64

theorem asciiFault?_eq_none {cs : List Char} (h : ∀ c ∈ cs, c.toNat ≤ 127) :
    asciiFault? cs = none := by
  have hall : cs.takeWhile (fun c => decide (c.toNat ≤ 127)) = cs :=
    takeWhile_eq_self_iff.2 fun c hc => decide_eq_true (h c hc)
  have hdrop : cs.drop cs.length = [] := drop_length
  unfold asciiFault?
  simp only [hall, hdrop]
  rfl

theorem givenOr_text {t : String} (h : t ≠ "") :
    Args.givenOr [("str", .text t)] "str" (.text "") = .text t := by
  show (if (Value.text t).isTruthy then Value.text t else .text "") = .text t
  rw [if_pos (isTruthy_text h)]

theorem encodeCommand_text (s : Site) {t : String} (h : t ≠ "") :
    encodeCommand [("str", .text t)] s =
    (.ok (.text (String.ofList (decodeReplacing (encode (utf8 t))))), s) := by
  have htruthy : (Value.text t).isTruthy = true := isTruthy_text h
  rw [encodeCommand, givenOr_text h, htruthy]
  rfl

/-- `decodeCommand` reads symbols for the bytes of a text as the text. -/
theorem decodeCommand_text (s : Site) {code t : String} (hcode : code ≠ "")
    (hascii : ∀ c ∈ code.toList, c.toNat ≤ 127)
    (h : decode false (utf8 code) = .ok (utf8 t)) :
    decodeCommand [("str", .text code)] s = (.ok (.text t), s) := by
  have htruthy : (Value.text code).isTruthy = true := isTruthy_text hcode
  have hread : decodeReplacing (utf8 t) = t.toList :=
    decodeReplacing_of_strict (decodeStrict_utf8Of _)
  have hneed : needText "encode" (.text code) s = (.ok code, s) := rfl
  rw [decodeCommand, givenOr_text hcode, htruthy]
  refine bind_of_ok (orElse_of_ok ?_)
  rw [bind_of_ok hneed, asciiFault?_eq_none hascii, h]
  show (Except.ok (String.ofList (decodeReplacing (utf8 t))), s) = _
  rw [hread, String.ofList_toList]

/-- **A text is read back from its symbols.** For every text that is not empty,
what is written for it are symbols, followed by a padding sign for each byte
that the last group of three lacks, four characters for each group; reading them
gives the text again. -/
theorem encode_decode_text (s : Site) {text : String} (h : text ≠ "") :
    ∃ (body : List Char) (code : String),
      Command.run .encode [("str", .text text)] s = (.ok (.text code), s) ∧
      code.toList = body ++ List.replicate (lacking (utf8 text).length) '=' ∧
      (∀ c ∈ body, c ∈ alphabet.toList) ∧
      code.length = 4 * (((utf8 text).length + 2) / 3) ∧
      Command.run .decode [("str", .text code)] s = (.ok (.text text), s) := by
  obtain ⟨values, hvalues, hencode, hlength⟩ := encode_eq (utf8 text)
  have hsymbols : ∀ b ∈ encode (utf8 text), b.toNat < 128 := by
    have hall : ∀ n < 64, (symbol n).toNat < 128 := by decide
    rw [hencode, forall_mem_append]
    refine ⟨?_, fun b hb => eq_of_mem_replicate hb ▸ by decide⟩
    intro b hb
    obtain ⟨n, hn, rfl⟩ := mem_map.1 hb
    exact hall n (hvalues n hn)
  have hbytes := utf8Of_map_character hsymbols
  have hread : decodeReplacing (encode (utf8 text)) =
      (encode (utf8 text)).map character := by
    rw [← hbytes, decodeReplacing_of_strict (decodeStrict_utf8Of _), hbytes]
  have hcode : (String.ofList (decodeReplacing (encode (utf8 text)))).toList =
      (values.map symbol).map character ++
        List.replicate (lacking (utf8 text).length) '=' := by
    rw [String.toList_ofList, hread, hencode, map_append, map_replicate]
    rfl
  refine ⟨_, _, encodeCommand_text s h, hcode, ?_, ?_, ?_⟩
  · intro c hc
    rw [map_map] at hc
    obtain ⟨n, hn, rfl⟩ := mem_map.1 hc
    exact mem_of_getElem? (character_symbol (hvalues n hn))
  · rw [← String.length_toList, hcode, length_append, length_map, length_map,
      length_replicate, hlength]
  · have hdecode : decode false (utf8 (String.ofList
        (decodeReplacing (encode (utf8 text))))) = .ok (utf8 text) := by
      rw [utf8, String.toList_ofList, hread, hbytes]
      exact decodeFrom_encode false 0 (utf8 text)
    refine decodeCommand_text s ?_ ?_ hdecode
    · intro hempty
      rw [hempty] at hdecode
      have hnone : utf8 text = [] := (Except.ok.inj hdecode).symm
      have htext : decodeStrict [] = .ok text.toList :=
        hnone ▸ decodeStrict_utf8Of text.toList
      exact h (String.toList_eq_nil_iff.1 (Except.ok.inj htext).symm)
    · intro c hc
      rw [String.toList_ofList, hread] at hc
      obtain ⟨b, hb, rfl⟩ := mem_map.1 hc
      rw [toNat_character]
      exact Nat.le_of_lt_succ (hsymbols b hb)

/-- Characters of one to four bytes, ten bytes in all, so that two are
missing. -/
theorem encode_decode_mixed : "aß€😀" ≠ "" ∧
    Command.run .encode [("str", .text "aß€😀")] default =
      (.ok (.text "YcOf4oKs8J+YgA=="), default) ∧
    Command.run .decode [("str", .text "YcOf4oKs8J+YgA==")] default =
      (.ok (.text "aß€😀"), default) := by
  have hne : "aß€😀" ≠ "" := by decide
  have hrun : Command.run .encode [("str", .text "aß€😀")] default =
      (.ok (.text "YcOf4oKs8J+YgA=="), default) := by
    rfl
  obtain ⟨body, code, hencode, -, -, -, hdecode⟩ :=
    encode_decode_text default hne
  have hcode : code = "YcOf4oKs8J+YgA==" :=
    Value.text.inj (Except.ok.inj (congrArg Prod.fst (hencode.symm.trans hrun)))
  rw [hcode] at hdecode
  exact ⟨hne, hrun, hdecode⟩

end Shell

end TaskShell

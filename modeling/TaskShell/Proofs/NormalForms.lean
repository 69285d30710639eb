import TaskShell.Proofs.Bundling
import TaskShell.Proofs.Symbols

/-!
# Laid out documents

A document is laid out by reading its value and writing it with a line for each
item. The layout adds blanks only, so the value is read back if it is one that
has a text: its whole numbers have no more digits than are read, and no record
has two fields of one name. Every value that was read is of this kind, because
the reader counts the digits and puts a later field of the same name in the
place of the earlier one. So laying out the result again changes nothing.

Whether a double is read back from its digits is a matter of rounding and is
asked of the doubles in the value.
-/

namespace TaskShell

open Act Text Number List

variable {n : Nat} {cs rest laid : List Sign} {fields : Fields} {v : Doc}

namespace Json

/-! ## Whole numbers -/

theorem decimal_toDigits (n : Nat) : decimal (Nat.toDigits 10 n) = n := by
  have hvalue : Nat.ofDigitChars 10 (Nat.toDigits 10 n) 0 = n :=
    Nat.ofDigitChars_toDigits (by decide) (by decide)
  rw [decimal, ofDigits, foldl_map]
  exact hvalue

private theorem foldl_digits_lt {ds : List Char}
    (h : ∀ c ∈ ds, isAsciiDigit c = true) (n : Nat) :
    ds.foldl (fun n c => 10 * n + (c.toNat - 48)) n <
      (n + 1) * Nat.pow 10 ds.length := by
  induction ds generalizing n with
  | nil => simp
  | cons c ds ih =>
    obtain ⟨hc, hds⟩ := forall_mem_cons.1 h
    have hhigh : c.toNat ≤ 57 := by
      rw [isAsciiDigit, Bool.and_eq_true, decide_eq_true_eq,
        decide_eq_true_eq] at hc
      exact UInt32.le_iff_toNat_le.1 hc.2
    calc (c :: ds).foldl (fun n c => 10 * n + (c.toNat - 48)) n
        < (10 * n + (c.toNat - 48) + 1) * Nat.pow 10 ds.length := ih hds _
      _ ≤ (10 * (n + 1)) * Nat.pow 10 ds.length :=
        Nat.mul_le_mul_right _ (by omega)
      _ = (n + 1) * Nat.pow 10 (c :: ds).length := by
          rw [length_cons, Nat.pow_eq, Nat.pow_eq, Nat.pow_succ,
            Nat.mul_comm 10, Nat.mul_assoc, Nat.mul_comm 10]

theorem decimal_lt {ds : List Char} {k : Nat}
    (h : ∀ c ∈ ds, isAsciiDigit c = true) (hk : ds.length ≤ k) :
    decimal ds < Nat.pow 10 k := by
  have hlt := foldl_digits_lt h 0
  rw [Nat.zero_add, Nat.one_mul] at hlt
  rw [decimal, ofDigits, foldl_map]
  exact Nat.lt_of_lt_of_le hlt (Nat.pow_le_pow_right (by decide) hk)

theorem length_toDigits_le {k : Nat} (hk : 0 < k) (h : n < Nat.pow 10 k) :
    (Nat.toDigits 10 n).length ≤ k :=
  (Nat.length_toDigits_le_iff (by decide) hk).2 h

theorem head?_toDigits (h : 0 < n) : (Nat.toDigits 10 n).head? ≠ some '0' := by
  induction n using Nat.strongRecOn with
  | _ n ih =>
    by_cases hsmall : n < 10
    · rw [Nat.toDigits_of_lt_base hsmall, head?_cons]
      intro hzero
      exact absurd (Nat.digitChar_eq_zero.1 (Option.some.inj hzero)) (by omega)
    · have hrest := ih (n / 10) (by omega) (by omega)
      obtain ⟨d, ds, hdigits⟩ :=
        exists_cons_of_ne_nil (Nat.toDigits_ne_nil (n := n / 10) (b := 10))
      rw [hdigits] at hrest
      rw [Nat.toDigits_of_base_le (by decide) (by omega), hdigits]
      exact hrest

theorem isAsciiDigit_of_mem_toDigits {c : Char} (h : c ∈ Nat.toDigits 10 n) :
    isAsciiDigit c = true :=
  Nat.isDigit_of_mem_toDigits (by decide) (by decide) h

private theorem wholeDigits_toDigits (n : Nat) :
    wholeDigits (Nat.toDigits 10 n) = Nat.toDigits 10 n := by
  by_cases hzero : n = 0
  · rw [hzero]
    rfl
  · have hhead := head?_toDigits (Nat.pos_of_ne_zero hzero)
    unfold wholeDigits
    split
    · next rest hdigits =>
      rw [hdigits] at hhead
      exact absurd rfl hhead
    · exact takeWhile_eq_self_iff.2 fun c hc => isAsciiDigit_of_mem_toDigits hc

theorem readUnsigned_toDigits (negative : Bool) (h : n < Nat.pow 10 maxDigits) :
    readUnsigned negative (Nat.toDigits 10 n) =
      some (.ok (.int (if negative then -n else n), [])) := by
  have hlength : ¬ maxDigits < (Nat.toDigits 10 n).length :=
    Nat.not_lt.2 (length_toDigits_le (by decide) h)
  have hsome : (Nat.toDigits 10 n).isEmpty = false := by
    simp [Nat.toDigits_ne_nil]
  unfold readUnsigned
  rw [wholeDigits_toDigits, hsome, if_neg Bool.false_ne_true, drop_length]
  show (if maxDigits < (Nat.toDigits 10 n).length then _ else _) = _
  rw [if_neg hlength, decimal_toDigits]

/-- **Whole numbers are `Legible`** if they have no more digits than are
read. -/
theorem legible_int {i : Int} (h : i.natAbs < Nat.pow 10 maxDigits) :
    Legible (.int i) := by
  have hplain : ∀ cs : List Char, (toString i).toList = cs →
    readNumber cs = some (.ok (.int i, [])) →
      readPlain (signs (toString i)) = .ok (.int i, []) := by
    intro cs htext hnumber
    rw [readPlain, signs, scalars_map, htext, readLeaf, hnumber]
    show Except.ok (Doc.int i, (cs.map Sign.scalar).drop (cs.length - 0)) = _
    rw [Nat.sub_zero, ← length_map Sign.scalar, drop_length]
  cases i with
  | ofNat n =>
    have hhead : ((Nat.toDigits 10 n).head? == some '-') = false := by
      rw [← Bool.not_eq_true, beq_iff_eq]
      intro hdash
      have hdigit := isAsciiDigit_of_mem_toDigits (mem_of_mem_head? hdash)
      revert hdigit
      decide
    refine hplain (Nat.toDigits 10 n) Nat.toList_repr ?_
    rw [readNumber_eq, hhead, if_neg Bool.false_ne_true]
    exact readUnsigned_toDigits false h
  | negSucc n =>
    have htext :
        (toString (Int.negSucc n)).toList = '-' :: Nat.toDigits 10 (n + 1) := by
      show ("-" ++ (n + 1).repr).toList = _
      rw [String.toList_append, Nat.toList_repr]
      rfl
    refine hplain ('-' :: Nat.toDigits 10 (n + 1)) htext ?_
    rw [readNumber_eq]
    exact readUnsigned_toDigits true h

/-! ## Where values come from -/

section Reading

variable {s : Settings}

theorem readFields_ok {fuel : Nat} {done : Fields}
    (h : readFields s (fuel + 1) cs done = .ok (fields, rest)) :
    ∃ name v cs' rest', readValue s fuel cs' = .ok (v, rest') ∧
      (fields = setField done name v ∨
      ∃ next, readFields s fuel next (setField done name v) =
        .ok (fields, rest)) := by
  rw [readFields.eq_def] at h
  dsimp only at h
  split at h
  · obtain ⟨⟨name, more⟩, -, h⟩ := ok_of_bind h
    dsimp only at h
    split at h
    · obtain ⟨⟨v, more⟩, hv, h⟩ := ok_of_bind h
      dsimp only at h
      refine ⟨name, v, _, more, hv, ?_⟩
      split at h
      · cases h
        exact .inl rfl
      · split at h
        · cases h
        · exact .inr ⟨_, h⟩
      · cases h
    · cases h
  · cases h

theorem readItems_ok {fuel : Nat} {done items : List Doc}
    (h : readItems s (fuel + 1) cs done = .ok (items, rest)) :
    ∃ v rest', readValue s fuel cs = .ok (v, rest') ∧
      (items = (v :: done).reverse ∨
      ∃ next, readItems s fuel next (v :: done) = .ok (items, rest)) := by
  rw [readItems.eq_def] at h
  obtain ⟨⟨v, more⟩, hv, h⟩ := ok_of_bind h
  dsimp only at h
  refine ⟨v, more, hv, ?_⟩
  split at h
  · cases h
    exact .inl rfl
  · split at h
    · cases h
    · exact .inr ⟨_, h⟩
  · cases h

/-! ## What is read -/

mutual

/-- The doubles in a value. -/
def doubles : Doc → List Float
  | .float x => [x]
  | .list items => doublesOfItems items
  | .record fields => doublesOfFields fields
  | _ => []

/-- The `doubles` in items. -/
def doublesOfItems : List Doc → List Float
  | [] => []
  | v :: rest => doubles v ++ doublesOfItems rest

/-- The `doubles` in fields. -/
def doublesOfFields : Fields → List Float
  | [] => []
  | (_, v) :: rest => doubles v ++ doublesOfFields rest

end

/-- A double that is read back from its text. -/
def Exact (x : Float) : Prop :=
  readDocument ⟨.brief, true⟩ (signs (numberFormat.write x)) = .ok (.float x)

/-- A value that is `Legible` if its doubles are `Exact`. -/
def Sound (v : Doc) : Prop := (∀ x ∈ doubles v, Exact x) → Legible v

theorem legibleItems_of_sound {items : List Doc} (h : ∀ v ∈ items, Sound v)
    (hexact : ∀ x ∈ doublesOfItems items, Exact x) :
    LegibleItems items := by
  induction items with
  | nil => trivial
  | cons v items ih =>
    obtain ⟨hv, hitems⟩ := forall_mem_cons.1 h
    obtain ⟨hfirst, hrest⟩ := forall_mem_append.1 hexact
    exact ⟨hv hfirst, ih hitems hrest⟩

theorem legibleFields_of_sound (h : ∀ field ∈ fields, Sound field.2)
    (hexact : ∀ x ∈ doublesOfFields fields, Exact x) :
    LegibleFields fields := by
  induction fields with
  | nil => trivial
  | cons field fields ih =>
    obtain ⟨hv, hfields⟩ := forall_mem_cons.1 h
    obtain ⟨hfirst, hrest⟩ := forall_mem_append.1 hexact
    exact ⟨hv hfirst, ih hfields hrest⟩

/-- Fields with different names and values that are `Sound`. -/
structure SoundFields (fields : Fields) : Prop where
  names : (fields.map Prod.fst).Nodup
  values : ∀ field ∈ fields, Sound field.2

theorem SoundFields.sound (h : SoundFields fields) : Sound (.record fields) :=
  fun hexact => ⟨h.names, legibleFields_of_sound h.values hexact⟩

theorem mem_setField {name : List Sign} {field : List Sign × Doc}
    (h : field ∈ setField fields name v) :
    field = (name, v) ∨ field ∈ fields := by
  induction fields with
  | nil => exact .inl (mem_singleton.1 h)
  | cons first fields ih =>
    rw [setField] at h
    split at h
    · exact (mem_cons.1 h).imp_right (mem_cons_of_mem first)
    · rcases mem_cons.1 h with rfl | h
      · exact .inr mem_cons_self
      · exact (ih h).imp_right (mem_cons_of_mem first)

private theorem map_fst_setField {name : List Sign}
    (h : name ∈ fields.map Prod.fst) (v : Doc) :
    (setField fields name v).map Prod.fst = fields.map Prod.fst := by
  induction fields with
  | nil => cases h
  | cons first fields ih =>
    rw [setField]
    split
    · next heq => rw [map_cons, map_cons, eq_of_beq heq]
    · next hne =>
      have hrest : name ∈ fields.map Prod.fst :=
        (mem_cons.1 h).resolve_left fun heq => hne (beq_iff_eq.2 heq.symm)
      rw [map_cons, map_cons, ih hrest]

theorem SoundFields.set (h : SoundFields fields) (name : List Sign)
    (hv : Sound v) : SoundFields (setField fields name v) where
  names := by
    by_cases hmem : name ∈ fields.map Prod.fst
    · rw [map_fst_setField hmem]
      exact h.names
    · rw [setField_of_not_mem hmem, map_append]
      refine nodup_append.2 ⟨h.names, by simp, ?_⟩
      rintro a ha b hb rfl
      have heq : a = name := mem_singleton.1 hb
      exact hmem (heq ▸ ha)
  values field hfield := by
    rcases mem_setField hfield with rfl | hfield
    · exact hv
    · exact h.values field hfield

theorem sound_float (x : Float) : Sound (.float x) :=
  fun hexact => legible_float (hexact x (mem_singleton.2 rfl))

private theorem isAsciiDigit_of_mem_wholeDigits {body : List Char} {c : Char}
    (h : c ∈ wholeDigits body) : isAsciiDigit c = true := by
  unfold wholeDigits at h
  split at h
  · rw [mem_singleton.1 h]
    rfl
  · exact all_eq_true.1 all_takeWhile c h

private theorem sound_of_readUnsigned {negative : Bool} {body rest : List Char}
    (h : readUnsigned negative body = some (.ok (v, rest))) : Sound v := by
  unfold readUnsigned at h
  split at h
  · cases h
  · dsimp only at h
    split at h
    · split at h
      · cases h
      · next hlength =>
        cases h
        have hlt : decimal (wholeDigits body) < Nat.pow 10 maxDigits :=
          decimal_lt (fun c hc => isAsciiDigit_of_mem_wholeDigits hc)
            (Nat.not_lt.1 hlength)
        refine fun _ => legible_int ?_
        cases negative with
        | true => rwa [if_pos rfl, Int.natAbs_neg, Int.natAbs_natCast]
        | false => exact hlt
    · cases h
      exact sound_float _
    · cases h
      exact sound_float _

private theorem sound_of_readLeaf {cs rest : List Char}
    (h : readLeaf cs = some (.ok (v, rest))) : Sound v := by
  unfold readLeaf at h
  split at h
  · next outcome hnumber =>
    rw [h, readNumber_eq] at hnumber
    exact sound_of_readUnsigned hnumber
  · obtain ⟨found, hword, hpair⟩ := Option.map_eq_some_iff.1 h
    cases hpair
    obtain ⟨entry, hentry, hfound⟩ := exists_of_findSome?_eq_some hword
    obtain ⟨more, -, hpair⟩ := Option.map_eq_some_iff.1 hfound
    cases hpair
    simp only [wordValues, mem_cons, not_mem_nil, or_false] at hentry
    rcases hentry with rfl | rfl | rfl | rfl | rfl | rfl
    · exact fun _ => rfl
    · exact fun _ => rfl
    · exact fun _ => rfl
    · exact sound_float _
    · exact sound_float _
    · exact sound_float _

private theorem sound_of_readPlain
    (h : readPlain cs = .ok (v, rest)) : Sound v := by
  unfold readPlain at h
  split at h
  · next hleaf =>
    cases h
    exact sound_of_readLeaf hleaf
  · cases h
  · cases h

/-- **A value that was read is `Sound`**: it has a text of its own, as far as
its doubles have one. -/
theorem sound_of_read (fuel : Nat) :
    (∀ cs v rest, readValue s fuel cs = .ok (v, rest) → Sound v) ∧
    (∀ cs done fields rest, readFields s fuel cs done = .ok (fields, rest) →
      SoundFields done → SoundFields fields) ∧
    (∀ cs done items rest, readItems s fuel cs done = .ok (items, rest) →
      (∀ v ∈ done, Sound v) → ∀ v ∈ items, Sound v) := by
  induction fuel with
  | zero =>
    refine ⟨?_, ?_, ?_⟩
    · intro cs v rest h
      cases h
    · intro cs done fields rest h
      cases h
    · intro cs done items rest h
      cases h
  | succ fuel ih =>
    obtain ⟨ihValue, ihFields, ihItems⟩ := ih
    refine ⟨?_, ?_, ?_⟩
    · intro cs v rest h
      rcases readValue_ok h with ⟨t, rfl⟩ | ⟨fields, rfl, hfields⟩ |
        ⟨items, rfl, hitems⟩ | hplain
      · exact fun _ => trivial
      · have hnone : SoundFields [] := ⟨nodup_nil, by simp⟩
        rcases hfields with rfl | ⟨cs', hread⟩
        · exact hnone.sound
        · exact (ihFields cs' [] fields rest hread hnone).sound
      · rcases hitems with rfl | ⟨cs', hread⟩
        · exact fun _ => trivial
        · exact legibleItems_of_sound
            (ihItems cs' [] items rest hread (by simp))
      · exact sound_of_readPlain hplain
    · intro cs done fields rest h hdone
      obtain ⟨name, v, cs', rest', hv, hnext⟩ := readFields_ok h
      have hset := hdone.set name (ihValue cs' v rest' hv)
      rcases hnext with rfl | ⟨next, hread⟩
      · exact hset
      · exact ihFields next _ fields rest hread hset
    · intro cs done items rest h hdone
      obtain ⟨v, rest', hv, hnext⟩ := readItems_ok h
      have hall : ∀ u ∈ v :: done, Sound u :=
        forall_mem_cons.2 ⟨ihValue cs v rest' hv, hdone⟩
      rcases hnext with rfl | ⟨next, hread⟩
      · exact fun u hu => hall u (mem_reverse.1 hu)
      · exact ihItems next _ items rest hread hall

theorem sound_of_readDocument (h : readDocument s cs = .ok v) : Sound v := by
  unfold readDocument at h
  split at h
  · cases h
  · obtain ⟨⟨found, rest⟩, hread, hfound⟩ := ok_of_bind h
    dsimp only at hfound
    split at hfound
    · cases hfound
      exact (sound_of_read _).1 _ _ _ hread
    · cases hfound

-- the later field of a name stands where the earlier one stood
example : readDocument ⟨.brief, true⟩
    (signs "\x7b\"b\":1, \"a\":[-0],\"b\":\x7b\x7d \x7d") =
    .ok (.record [(signs "b", .record []), (signs "a", .list [.int 0])]) := by
  cbv

-- two halves that do not belong together are two names
example :
    readDocument ⟨.brief, true⟩ (signs "\x7b\"\\ud800\":1,\"\\udc00\":2\x7d") =
    .ok (.record [([.half 0], .int 1), ([.half 1024], .int 2)]) := by cbv

end Reading

theorem faithful_pretty : Layout.pretty.Faithful where
  ascii := rfl
  indent unit h := by
    cases h
    rfl
  item := ⟨[], rfl, rfl⟩
  key := ⟨[.scalar ' '], rfl, rfl⟩

end Json

namespace Shell

open Json

/-! ## Laying out -/

theorem prettyDocument_eq_ok_iff : prettyDocument cs = .ok laid ↔
    ∃ v, readDocument ⟨.brief, true⟩ cs = .ok v ∧ laid = write .pretty 0 v := by
  unfold prettyDocument
  cases readDocument ⟨.brief, true⟩ cs with
  | error f => simp
  | ok v =>
    have hwrite : writeDocument .pretty v = .ok (write .pretty 0 v) := by
      simp [writeDocument, Layout.pretty]
    simp [hwrite, eq_comm]

/-- The site after a text was given out: it has strayed if the text has a half
in it. -/
def noted (laid : List Sign) (s : Site) : Site :=
  { s with strayed := s.strayed || laid.any Sign.isHalf }

theorem noted_of_whole (h : Whole laid) (s : Site) : noted laid s = s := by
  have hnone : laid.any Sign.isHalf = false :=
    any_eq_false.2 fun c hc => by rw [h c hc]; exact Bool.false_ne_true
  rw [noted, hnone, Bool.or_false]

theorem jsonCommand_text (s : Site) {text : String}
    (h : prettyDocument (signs text) = .ok laid) :
    jsonCommand [("str", .text text)] s =
      (.ok (.text (textOf laid)), noted laid s) := by
  have hne : text ≠ "" := by
    rintro rfl
    cases h
  have htruthy : (Value.text text).isTruthy = true := isTruthy_text hne
  have hlaid : (do renderSigns (← Act.ofExcept (prettyDocument (signs text))) :
      Job String) s = (.ok (textOf laid), noted laid s) := by
    rw [h]
    rfl
  rw [jsonCommand, givenOr_text hne, htruthy]
  exact bind_of_ok (orElse_of_ok hlaid)

/-- **The layout of a document is a normal form.** For every text, halves of
surrogate pairs among its code points or not, of which `prettyDocument` makes a
layout there is one `Doc` that both the text and the layout are read as; no
record in it has two fields of one name; and the layout is laid out as itself.
The command `json` gives this layout, up to its halves, and gives a layout
without halves back. It is asked that the doubles in the document are read back
from their digits. -/
theorem pretty_normal_form {text laid : List Sign}
    (h : prettyDocument text = .ok laid)
    (hexact : ∀ v, readDocument ⟨.brief, true⟩ text = .ok v →
      ∀ x ∈ doubles v, Exact x) :
    (∃ v, readDocument ⟨.brief, true⟩ text = .ok v ∧
      readDocument ⟨.brief, true⟩ laid = .ok v ∧ Legible v) ∧
      prettyDocument laid = .ok laid ∧
      ∀ (s : Site) (given : String), (signs given = text →
          Command.run .json [("str", .text given)] s =
            (.ok (.text (textOf laid)), noted laid s)) ∧
        (signs given = laid → Command.run .json [("str", .text given)] s =
          (.ok (.text given), s)) := by
  obtain ⟨v, hread, hlaid⟩ := prettyDocument_eq_ok_iff.1 h
  have hlegible : Legible v := sound_of_readDocument hread (hexact v hread)
  have hback : readDocument ⟨.brief, true⟩ laid = .ok v := by
    rw [hlaid]
    exact readDocument_write faithful_pretty hlegible
  have hagain : prettyDocument laid = .ok laid :=
    prettyDocument_eq_ok_iff.2 ⟨v, hback, hlaid⟩
  refine ⟨⟨v, hread, hback, hlegible⟩, hagain, fun s given => ⟨?_, ?_⟩⟩
  · rintro rfl
    exact jsonCommand_text s h
  · rintro rfl
    have hrun := jsonCommand_text s hagain
    have hsame : noted (signs given) s = s :=
      noted_of_whole (whole_map given.toList) s
    rw [textOf_signs, hsame] at hrun
    exact hrun

/-- A record with an empty one, a double and a text with an escape in it. -/
def nested : Value := .record [("b", .record []),
    ("a", .list [.float (Float.ofBits 0x4004000000000000), .text "é\n"])]

def nestedLine : String := "\x7b\"b\": \x7b\x7d, \"a\": [2.5, \"é\\n\"]\x7d"

def nestedLaid : String :=
  "\x7b\n  \"b\": \x7b\x7d,\n  \"a\": [\n    2.5,\n    \"é\\n\"\n  ]\n\x7d"

/-- What stands on one line is laid out on seven. -/
theorem pretty_normal_form_nested :
    prettyDocument (signs nestedLine) = .ok (signs nestedLaid) ∧
    Exact (Float.ofBits 0x4004000000000000) ∧
    Command.run .json [("str", .text nestedLaid)] default =
      (.ok (.text nestedLaid), default) := by
  have hexact : Exact (Float.ofBits 0x4004000000000000) := by rfl
  have hlegible : Legible (.ofValue nested) :=
    ⟨by decide, ⟨by decide, trivial⟩,
      ⟨legible_float hexact, trivial, trivial⟩, trivial⟩
  have hline : write { Layout.line with ascii := false } 0 (.ofValue nested) =
      signs nestedLine := by rfl
  have hread : readDocument ⟨.brief, true⟩ (signs nestedLine) =
      .ok (.ofValue nested) :=
    hline ▸ readDocument_write Bundle.faithful_line hlegible
  have hlaid : prettyDocument (signs nestedLine) = .ok (signs nestedLaid) :=
    prettyDocument_eq_ok_iff.2 ⟨.ofValue nested, hread, rfl⟩
  have hdoubles : ∀ v, readDocument ⟨.brief, true⟩ (signs nestedLine) = .ok v →
      ∀ x ∈ doubles v, Exact x := by
    intro v hv x hx
    rw [hread] at hv
    cases hv
    rw [mem_singleton.1 hx]
    exact hexact
  exact ⟨hlaid, hexact,
    ((pretty_normal_form hlaid hdoubles).2.2 default nestedLaid).2 rfl⟩

end Shell

end TaskShell

import TaskShell.Proofs.Compression

/-!
# Reading with more input

A reader that has come to the end of a stream has not looked at what follows it.
So it does the same when there is more input, and no stream goes on where a
shorter one has ended: a file that is cut off is not read.

The readers with fuel are given more of it when there is more input, so they are
compared at different amounts.
-/

namespace TaskShell.Codec

open List

variable {p data rest : List UInt8}

namespace Inflate

variable {α β : Type}

/-- Unread input with more bytes after it. -/
def Bits.more (s : Bits) (q : List UInt8) : Bits := ⟨s.bytes ++ q, s.used⟩

/-- A byte of which some bits are read is still there. -/
def Bits.Held (s : Bits) : Prop := s.used ≠ 0 → s.bytes ≠ []

def Bits.Aligned (s : Bits) : Prop := s.used = 0

/-- Where `x` succeeds, `y` does the same if the bytes `q` come after the input,
and what held before it still holds. -/
def Continues (inv : Bits → Prop) (q : List UInt8) (x y : Take α) : Prop :=
  ∀ s a t, inv s → x s = .ok (a, t) → inv t ∧ y (s.more q) = .ok (a, t.more q)

/-! ## Steps -/

section Steps

variable {inv : Bits → Prop} {q : List UInt8}

theorem continues_pure (a : α) : Continues inv q (pure a) (pure a) := by
  intro s b t hs h
  cases h
  exact ⟨hs, rfl⟩

theorem continues_throw (stop : Stop) (y : Take α) :
    Continues inv q (throw stop) y := by
  intro s b t hs h
  cases h

theorem Continues.bind {x y : Take α} {f g : α → Take β}
    (hx : Continues inv q x y) (hf : ∀ a, Continues inv q (f a) (g a)) :
    Continues inv q (x >>= f) (y >>= g) := by
  intro s b t hs h
  cases hxs : x s with
  | error stop =>
    have hbind : (x >>= f) s = .error stop := by
      show (x s >>= fun r => f r.1 r.2) = _
      rw [hxs]
      rfl
    rw [hbind] at h
    cases h
  | ok found =>
    obtain ⟨a, u⟩ := found
    rw [bind_of_ok hxs] at h
    obtain ⟨hu, hy⟩ := hx s a u hs hxs
    obtain ⟨ht, hg⟩ := hf a u b t hu h
    exact ⟨ht, (bind_of_ok hy).trans hg⟩

theorem Continues.ite {c : Prop} [Decidable c] {x y x' y' : Take α}
    (h : Continues inv q x y) (h' : Continues inv q x' y') :
    Continues inv q (if c then x else x') (if c then y else y') := by
  split
  · exact h
  · exact h'

theorem Continues.guard {c : Prop} [Decidable c] {stop : Stop}
    {f g : PUnit → Take α} (h : Continues inv q (f ⟨⟩) (g ⟨⟩)) :
    Continues inv q (if c then throw stop >>= f else f ⟨⟩) (if c then
      throw stop >>= g else g ⟨⟩) :=
  Continues.ite ((continues_throw stop _).bind fun _ => h) h

theorem continues_get_bind {f g : Bits → Take α}
    (h : ∀ s, Continues inv q (f s) (g (s.more q))) :
    Continues inv q (get >>= f) (get >>= g) :=
  fun s a t hs hf => h s s a t hs hf

theorem bit_cons (b : UInt8) (rest : List UInt8) (used : Nat) :
    bit ⟨b :: rest, used⟩ =
    .ok (b.toNat / Nat.pow 2 used % 2, if used == 7 then ⟨rest, 0⟩
      else ⟨b :: rest, used + 1⟩) := rfl

theorem continues_bit : Continues Bits.Held q bit bit := by
  intro s a t hs h
  obtain ⟨bytes, used⟩ := s
  cases bytes with
  | nil => cases h
  | cons b rest =>
    have hmore := bit_cons b (rest ++ q) used
    rw [bit_cons] at h
    cases h
    rw [Bits.more, cons_append, hmore]
    cases used == 7 with
    | true => exact ⟨fun h => absurd rfl h, rfl⟩
    | false => exact ⟨fun _ => cons_ne_nil _ _, rfl⟩

theorem continues_bits (n : Nat) : Continues Bits.Held q (bits n) (bits n) := by
  induction n with
  | zero => exact continues_pure 0
  | succ n ih =>
    exact continues_bit.bind fun low => ih.bind fun high => continues_pure _

private theorem continues_symbolFrom (code : Code)
    (word first index length fuel : Nat) :
    Continues Bits.Held q (code.symbolFrom word first index length fuel)
      (code.symbolFrom word first index length fuel) := by
  induction fuel generalizing word first index length with
  | zero => exact continues_pure none
  | succ fuel ih =>
    exact continues_bit.bind fun b => (continues_pure _).ite (ih _ _ _ _)

theorem continues_symbol? (code : Code) :
    Continues Bits.Held q code.symbol? code.symbol? :=
  continues_symbolFrom code _ _ _ _ _

theorem align_more {s : Bits} (hs : s.Held) :
    ∃ bytes, align s = .ok (⟨⟩, ⟨bytes, 0⟩) ∧
    align (s.more q) = .ok (⟨⟩, ⟨bytes ++ q, 0⟩) := by
  obtain ⟨bytes, used⟩ := s
  have halign : ∀ bytes, align ⟨bytes, used⟩ =
      .ok (⟨⟩, if used == 0 then ⟨bytes, used⟩ else ⟨bytes.tail, 0⟩) :=
    fun _ => rfl
  rw [Bits.more, halign, halign]
  by_cases hused : used = 0
  · subst hused
    exact ⟨bytes, rfl, rfl⟩
  · have hne : (used == 0) = false := beq_eq_false_iff_ne.2 hused
    rw [hne]
    cases bytes with
    | nil => exact absurd rfl (hs hused)
    | cons b rest => exact ⟨rest, rfl, rfl⟩

theorem takeBytes_eq (n used : Nat) (bytes : List UInt8) :
    takeBytes n ⟨bytes, used⟩ =
    if bytes.length < n then .error .short
      else .ok (bytes.take n, ⟨bytes.drop n, used⟩) := by
  unfold takeBytes
  by_cases h : bytes.length < n
  · have hget : (get : Take Bits) ⟨bytes, used⟩ =
        .ok (⟨bytes, used⟩, ⟨bytes, used⟩) := rfl
    rw [bind_of_ok hget, if_pos h, if_pos h]
    rfl
  · have hget : (get : Take Bits) ⟨bytes, used⟩ =
        .ok (⟨bytes, used⟩, ⟨bytes, used⟩) := rfl
    rw [bind_of_ok hget, if_neg h, if_neg h]
    rfl

theorem continues_takeBytes (n : Nat) :
    Continues Bits.Aligned q (takeBytes n) (takeBytes n) := by
  intro s data t hs h
  obtain ⟨bytes, used⟩ := s
  rw [takeBytes_eq] at h
  split at h
  · cases h
  · next hlength =>
    cases h
    have hlong : ¬ (bytes ++ q).length < n := by
      rw [length_append]
      omega
    refine ⟨hs, ?_⟩
    rw [Bits.more, takeBytes_eq, if_neg hlong, take_append_of_le_length
      (Nat.not_lt.1 hlength), drop_append_of_le_length (Nat.not_lt.1 hlength)]
    rfl

theorem continues_readStored : Continues Bits.Held q readStored readStored := by
  intro s data t hs h
  obtain ⟨bytes, halign, hmore⟩ := align_more (q := q) hs
  unfold readStored at h ⊢
  rw [bind_of_ok halign] at h
  rw [bind_of_ok hmore]
  -- from here on whole bytes are taken
  refine And.imp_left (fun ht hused => absurd ht hused)
    ((continues_takeBytes 4).bind (fun lengths => ?_) ⟨bytes, 0⟩ data t rfl h)
  split
  · exact (continues_takeBytes _).guard
  · exact continues_throw _ _

/-! ## Blocks -/

theorem continues_readSymbols (literals distances : Code) (out : Array UInt8)
    {fuel fuel' : Nat} (h : fuel ≤ fuel') :
    Continues Bits.Held q (readSymbols literals distances out fuel)
      (readSymbols literals distances out fuel') := by
  induction fuel generalizing fuel' out with
  | zero => exact continues_throw _ _
  | succ fuel ih =>
    obtain ⟨fuel', rfl⟩ : ∃ k, fuel' = k + 1 := ⟨fuel' - 1, by omega⟩
    have hrest : fuel ≤ fuel' := by omega
    refine (continues_symbol? literals).bind fun symbol => ?_
    cases symbol with
    | none => exact continues_throw _ _
    | some n =>
      refine Continues.ite (ih _ hrest) (Continues.ite (continues_pure _) ?_)
      dsimp only
      split
      · exact continues_throw _ _
      · refine (continues_bits _).bind fun extra =>
          (continues_symbol? distances).bind fun found => ?_
        split
        · exact continues_throw _ _
        · exact (continues_bits _).bind fun extra => (ih _ hrest).guard

theorem continues_readShortLengths (n : Nat) :
    Continues Bits.Held q (readShortLengths n) (readShortLengths n) := by
  induction n with
  | zero => exact continues_pure []
  | succ n ih => exact (continues_bits 3).bind fun first => ih.bind fun rest =>
      continues_pure _

private theorem continues_readLengths (code : Code) (total : Nat)
    (sofar : List Nat) (fuel : Nat) :
    Continues Bits.Held q (readLengths code total sofar fuel)
      (readLengths code total sofar fuel) := by
  induction fuel generalizing sofar with
  | zero => exact continues_pure _
  | succ fuel ih =>
    unfold readLengths
    refine Continues.ite (continues_pure _) ?_
    refine (continues_symbol? code).bind fun symbol => Continues.ite (ih _) ?_
    exact (continues_bits _).bind fun extra => (ih _).guard.guard

private theorem continues_readCodes :
    Continues Bits.Held q readCodes readCodes := by
  unfold readCodes
  refine (continues_bits 5).bind fun literals => (continues_bits 5).bind
    fun distances => (continues_bits 4).bind fun short => ?_
  refine Continues.guard ((continues_readShortLengths _).bind fun given =>
    Continues.guard ?_)
  refine (continues_readLengths _ _ _ _).bind fun all => ?_
  exact Continues.guard (Continues.guard (Continues.guard (continues_pure _)))

private theorem continues_readBlocks (out : Array UInt8) {fuel fuel' : Nat}
    (h : fuel ≤ fuel') :
    Continues Bits.Held q (readBlocks out fuel) (readBlocks out fuel') := by
  induction fuel generalizing fuel' out with
  | zero => exact continues_throw _ _
  | succ fuel ih =>
    obtain ⟨fuel', rfl⟩ : ∃ k, fuel' = k + 1 := ⟨fuel' - 1, by omega⟩
    have hrest : fuel ≤ fuel' := by omega
    unfold readBlocks
    refine continues_bit.bind fun last => (continues_bits 2).bind fun kind =>
      continues_get_bind fun s => ?_
    have hsize : 8 * s.bytes.length + 8 ≤ 8 * (s.more q).bytes.length + 8 := by
      rw [Bits.more, length_append]
      omega
    have hnext : ∀ out, Continues Bits.Held q (if last == 1 then pure out
      else readBlocks out fuel)
      (if last == 1 then pure out else readBlocks out fuel') :=
      fun out => (continues_pure out).ite (ih out hrest)
    dsimp only
    split
    · exact continues_readStored.bind fun stored =>
        (continues_pure _).bind hnext
    · exact (continues_readSymbols _ _ _ hsize).bind hnext
    · exact continues_readCodes.bind fun codes =>
        (continues_readSymbols _ _ _ hsize).bind hnext
    · exact (continues_throw _ _).bind hnext

end Steps

/-- **`inflate` reads a stream the same way with more input**, which is left
after it. -/
theorem inflate_append (h : inflate p = .ok (data, rest)) (q : List UInt8) :
    inflate (p ++ q) = .ok (data, rest ++ q) := by
  have hfuel : 8 * p.length + 1 ≤ 8 * (p ++ q).length + 1 := by
    rw [length_append]
    omega
  unfold inflate at h ⊢
  cases hread : (readBlocks #[] (8 * p.length + 1)).run ⟨p, 0⟩ with
  | error stop =>
    rw [hread] at h
    cases h
  | ok found =>
    obtain ⟨out, s⟩ := found
    obtain ⟨hs, hmore⟩ := continues_readBlocks (q := q) #[] hfuel ⟨p, 0⟩ out s
      (fun h => absurd rfl h) hread
    have hrun : (readBlocks #[] (8 * (p ++ q).length + 1)).run ⟨p ++ q, 0⟩ =
        .ok (out, s.more q) := hmore
    rw [hread] at h
    rw [hrun]
    cases h
    refine congrArg (fun left => Except.ok (out.toList, left)) ?_
    obtain ⟨bytes, used⟩ := s
    by_cases hused : used = 0
    · subst hused
      rfl
    · have hne : (used == 0) = false := beq_eq_false_iff_ne.2 hused
      show (if used == 0 then bytes ++ q else (bytes ++ q).tail) =
        (if used == 0 then bytes else bytes.tail) ++ q
      rw [hne]
      cases bytes with
      | nil => exact absurd rfl (hs hused)
      | cons b bytes => rfl

end Inflate

namespace Gzip

open Inflate

/-! ## Files -/

theorem takeExact_more {n : Nat} {first : List UInt8}
    (h : takeExact n p = .ok (first, rest)) (q : List UInt8) :
    takeExact n (p ++ q) = .ok (first, rest ++ q) := by
  unfold takeExact at h ⊢
  split at h
  · cases h
  · next hlength =>
    cases h
    have hlong : ¬ (p ++ q).length < n := by
      rw [length_append]
      omega
    rw [if_neg hlong, take_append_of_le_length (Nat.not_lt.1 hlength),
      drop_append_of_le_length (Nat.not_lt.1 hlength)]

theorem skipText_append (h : skipText p ≠ []) (q : List UInt8) :
    skipText (p ++ q) = skipText p ++ q := by
  unfold skipText at h ⊢
  induction p with
  | nil => exact absurd rfl h
  | cons b p ih =>
    rw [cons_append]
    cases hb : b != 0 with
    | true =>
      rw [dropWhile_cons_of_pos (by simpa using hb)] at h ⊢
      rw [dropWhile_cons_of_pos (by simpa using hb)]
      exact ih h
    | false =>
      rw [dropWhile_cons_of_neg (by simpa using hb),
        dropWhile_cons_of_neg (by simpa using hb)]
      rfl

/-- Where `x` leaves something, `y` leaves the same and the bytes `q` after
it. -/
def Leaves (q : List UInt8) (x y : Except GzipFault (List UInt8)) : Prop :=
  ∀ body, body ≠ [] → x = .ok body → y = .ok (body ++ q)

section Leaves

variable {q : List UInt8}

theorem leaves_pure (rest : List UInt8) :
    Leaves q (pure rest) (pure (rest ++ q)) := by
  intro body hbody h
  cases h
  rfl

theorem leaves_takeExact {n : Nat}
    {f g : List UInt8 × List UInt8 → Except GzipFault (List UInt8)}
    (h : ∀ first rest, Leaves q (f (first, rest)) (g (first, rest ++ q))) :
    Leaves q (takeExact n p >>= f) (takeExact n (p ++ q) >>= g) := by
  intro body hbody hx
  cases htake : takeExact n p with
  | error fault =>
    rw [htake] at hx
    cases hx
  | ok found =>
    obtain ⟨first, rest⟩ := found
    rw [htake] at hx
    rw [takeExact_more htake]
    exact h first rest body hbody hx

theorem Leaves.ite {c : Prop} [Decidable c]
    {x y x' y' : Except GzipFault (List UInt8)} (h : Leaves q x y)
    (h' : Leaves q x' y') :
    Leaves q (if c then x else x') (if c then y else y') := by
  split
  · exact h
  · exact h'

theorem Leaves.guard {c : Prop} [Decidable c] {fault : GzipFault}
    {f g : PUnit → Except GzipFault (List UInt8)} (h : Leaves q (f ⟨⟩) (g ⟨⟩)) :
    Leaves q (if c then throw fault >>= f else f ⟨⟩) (if c then throw fault >>=
      g else g ⟨⟩) := by
  refine Leaves.ite ?_ h
  intro body hbody hx
  cases hx

theorem leaves_skipText {c : Prop} [Decidable c]
    {f : List UInt8 → Except GzipFault (List UInt8)}
    (hnil : ∀ body, body ≠ [] → f [] ≠ .ok body)
    (h : ∀ rest, Leaves q (f rest) (f (rest ++ q))) :
    Leaves q (f (if c then skipText rest else rest))
      (f (if c then skipText (rest ++ q) else rest ++ q)) := by
  split
  · intro body hbody hx
    have hrest : skipText rest ≠ [] := by
      intro hempty
      rw [hempty] at hx
      exact hnil body hbody hx
    rw [skipText_append hrest]
    exact h _ body hbody hx
  · exact h rest

def skipTexts (flags : Nat)
    (rest : List UInt8) : Except GzipFault (List UInt8) := do
  let rest := if flags &&& 8 != 0 then skipText rest else rest
  let rest := if flags &&& 16 != 0 then skipText rest else rest
  if flags &&& 2 != 0 then
    let (_, rest) ← takeExact 2 rest
    return rest
  return rest

theorem leaves_skipTexts (flags : Nat) (rest : List UInt8) :
    Leaves q (skipTexts flags rest) (skipTexts flags (rest ++ q)) := by
  let last (rest : List UInt8) : Except GzipFault (List UInt8) :=
    if flags &&& 2 != 0 then takeExact 2 rest >>= fun found => pure found.2
      else pure rest
  have hlast : ∀ rest, Leaves q (last rest) (last (rest ++ q)) := fun rest =>
    Leaves.ite (leaves_takeExact fun _ rest => leaves_pure rest)
      (leaves_pure rest)
  have hnil : ∀ body, body ≠ [] → last [] ≠ .ok body := by
    intro body hbody h
    cases hflag : flags &&& 2 != 0 with
    | true =>
      simp only [last, hflag] at h
      cases h
    | false =>
      simp only [last, hflag] at h
      cases h
      exact hbody rfl
  let second (rest : List UInt8) : Except GzipFault (List UInt8) :=
    last (if flags &&& 16 != 0 then skipText rest else rest)
  have hsecond : ∀ rest, Leaves q (second rest) (second (rest ++ q)) :=
    fun rest => leaves_skipText hnil hlast
  refine leaves_skipText (f := second) (fun body hbody h => ?_) hsecond
  simp only [second, skipText, dropWhile_nil, drop_nil, ite_self] at h
  exact hnil body hbody h

/-- `skipHeader` skips a header after which something is left the same way with
more input. -/
theorem leaves_skipHeader (p : List UInt8) :
    Leaves q (skipHeader p) (skipHeader (p ++ q)) := by
  by_cases hlength : 2 ≤ p.length
  · unfold skipHeader
    rw [take_append_of_le_length hlength, drop_append_of_le_length hlength]
    refine Leaves.guard (leaves_takeExact fun fixed rest => Leaves.guard ?_)
    exact Leaves.ite (leaves_takeExact fun size rest => leaves_takeExact
      fun extra rest => leaves_skipTexts _ rest) (leaves_skipTexts _ rest)
  · intro body hbody h
    have hmark : (p.take 2 != [0x1F, 0x8B]) = true := by
      rw [bne_iff_ne]
      intro hmark
      have hshort := congrArg List.length hmark
      rw [length_take] at hshort
      simp at hshort
      omega
    unfold skipHeader at h
    dsimp only at h
    rw [if_pos hmark] at h
    cases h

end Leaves

/-- **`readMember` reads a member the same way with more input**, which is left
after it. -/
theorem readMember_append (h : readMember p = .ok (data, rest))
    (q : List UInt8) :
    readMember (p ++ q) = .ok (data, rest ++ q) := by
  unfold readMember at h ⊢
  cases hheader : skipHeader p with
  | error f =>
    rw [hheader] at h
    cases h
  | ok body =>
    rw [hheader] at h
    dsimp only [bind, Except.bind] at h
    cases hstream : inflate body with
    | error stop =>
      rw [hstream] at h
      cases stop with
      | short => cases h
      | bad fault => cases h
    | ok found =>
      obtain ⟨out, left⟩ := found
      have hbody : body ≠ [] := by
        rintro rfl
        cases hstream
      rw [hstream] at h
      dsimp only at h
      rw [leaves_skipHeader p body hbody hheader]
      dsimp only [bind, Except.bind]
      rw [inflate_append hstream]
      dsimp only
      cases htrailer : takeExact 8 left with
      | error f =>
        rw [htrailer] at h
        cases h
      | ok cut =>
        obtain ⟨trailer, after⟩ := cut
        rw [htrailer] at h
        rw [takeExact_more htrailer]
        dsimp only at h ⊢
        split at h
        · cases h
        · next hsum =>
          rw [if_neg hsum]
          split at h
          · cases h
          · next hlength =>
            rw [if_neg hlength]
            cases h
            rfl

/-- **A file of one member that is cut off is not read** by `decompress`, unless
nothing of it is left. -/
theorem decompress_of_cut {q : List UInt8}
    (h : readMember (p ++ q) = .ok (data, [])) (hp : p ≠ []) (hq : q ≠ []) :
    ∃ f, decompress p = .error f := by
  have hempty : p.isEmpty = false := isEmpty_eq_false_iff.2 hp
  unfold decompress readMembers
  rw [hempty, if_neg Bool.false_ne_true]
  cases hread : readMember p with
  | error f => exact ⟨f, rfl⟩
  | ok found =>
    obtain ⟨data', rest⟩ := found
    have hmore := readMember_append hread q
    rw [h] at hmore
    cases rest with
    | nil => exact absurd (Prod.mk.inj (Except.ok.inj hmore)).2.symm hq
    | cons b rest => cases hmore

end Gzip

end TaskShell.Codec

import TaskShell.Codec.Gzip

/-!
# Reading back compressed data

Data is written as stored blocks between a header and a checksum. The reader
knows blocks of all kinds, but on what was written here it sees stored blocks
only: three bits of each header say so, the rest of that byte is skipped, and
the lengths in the next four bytes tell where the block ends.
-/

namespace TaskShell.Codec

open List

variable {count : Nat} {data : List UInt8}

namespace Gzip

@[simp] theorem length_toLittleEndian (n count : Nat) :
    (toLittleEndian n count).length = count := by
  induction count generalizing n with
  | zero => rfl
  | succ count ih => rw [toLittleEndian, length_cons, ih]

theorem littleEndian_toLittleEndian_mod (n count : Nat) :
    littleEndian (toLittleEndian n count) = n % Nat.pow 256 count := by
  induction count generalizing n with
  | zero => exact (Nat.mod_one n).symm
  | succ count ih =>
    have hlow : (UInt8.ofNat n).toNat = n % 256 := UInt8.toNat_ofNat'
    rw [toLittleEndian, littleEndian, ih, hlow]
    show _ = n % 256 ^ (count + 1)
    rw [Nat.pow_succ', Nat.mod_mul]
    rfl

theorem littleEndian_toLittleEndian {n : Nat} (h : n < Nat.pow 256 count) :
    littleEndian (toLittleEndian n count) = n := by
  rw [littleEndian_toLittleEndian_mod, Nat.mod_eq_of_lt h]

end Gzip

namespace Inflate

/-! ## Stored blocks -/

section Reading

variable {α β : Type}

theorem bind_of_ok {x : Take α} {f : α → Take β} {s t : Bits} {a : α}
    (h : x s = .ok (a, t)) :
    (x >>= f) s = f a t := by
  show (x s >>= fun r => f r.1 r.2) = _
  rw [h]
  rfl

theorem takeBytes_append (block rest : List UInt8) (used : Nat) :
    takeBytes block.length ⟨block ++ rest, used⟩ =
      .ok (block, ⟨rest, used⟩) := by
  have hlength : ¬ (block ++ rest).length < block.length := by simp
  have hget : (get : Take Bits) ⟨block ++ rest, used⟩ =
      .ok (⟨block ++ rest, used⟩, ⟨block ++ rest, used⟩) := rfl
  unfold takeBytes
  rw [bind_of_ok hget, if_neg hlength]
  show Except.ok ((block ++ rest).take block.length,
    Bits.mk ((block ++ rest).drop block.length) used) = _
  rw [take_left, drop_left]

theorem bit_of_lt (b : UInt8) (rest : List UInt8) {used : Nat} (h : used < 7) :
    bit ⟨b :: rest, used⟩ =
      .ok (b.toNat / Nat.pow 2 used % 2, ⟨b :: rest, used + 1⟩) := by
  have hused : (used == 7) = false := by simp; omega
  show Except.ok (_, if used == 7 then Bits.mk rest 0
    else Bits.mk (b :: rest) (used + 1)) = _
  rw [hused]
  rfl

theorem bits_kind (b : UInt8) (rest : List UInt8) :
    bits 2 ⟨b :: rest, 1⟩ = .ok
      (b.toNat / 2 % 2 + 2 * (b.toNat / 4 % 2 + 2 * 0), ⟨b :: rest, 3⟩) := by
  unfold bits
  rw [bind_of_ok (bit_of_lt b rest (by decide))]
  unfold bits
  rw [bind_of_ok (bind_of_ok (bit_of_lt b rest (by decide)))]
  rfl

def lengthBytes (n : Nat) : List UInt8 :=
  [UInt8.ofNat n, UInt8.ofNat (n / 256), UInt8.ofNat (65535 - n),
    UInt8.ofNat ((65535 - n) / 256)]

def headByte (last : Bool) : UInt8 := if last then 1 else 0

/-- `readStored` reads a block back: the rest of its first byte is skipped, and
its length is told by the next four. -/
theorem readStored_append {block : List UInt8} (h : block.length ≤ blockSize)
    (b : UInt8) (rest : List UInt8) :
    readStored ⟨b :: (lengthBytes block.length ++ (block ++ rest)), 3⟩ =
      .ok (block, ⟨rest, 0⟩) := by
  have hsize : block.length ≤ 65535 := h
  have halign : align ⟨b :: (lengthBytes block.length ++ (block ++ rest)), 3⟩ =
      .ok (⟨⟩, ⟨lengthBytes block.length ++ (block ++ rest), 0⟩) := rfl
  have hlengths : takeBytes 4 ⟨lengthBytes block.length ++ (block ++ rest), 0⟩ =
      .ok (lengthBytes block.length, ⟨block ++ rest, 0⟩) :=
    takeBytes_append _ _ 0
  have hlow : (UInt8.ofNat block.length).toNat +
      256 * (UInt8.ofNat (block.length / 256)).toNat = block.length := by
    simp only [UInt8.toNat_ofNat']
    omega
  have hhigh : (UInt8.ofNat (65535 - block.length)).toNat +
      256 * (UInt8.ofNat ((65535 - block.length) / 256)).toNat =
        65535 - block.length := by
    simp only [UInt8.toNat_ofNat']
    omega
  have hsum : (block.length + (65535 - block.length) != 65535) =
      false := by simp; omega
  unfold readStored
  rw [bind_of_ok halign, bind_of_ok hlengths]
  simp only [lengthBytes, hlow, hhigh, hsum, Bool.false_eq_true, if_false]
  exact takeBytes_append block rest 0

/-- `readBlocks` puts a stored block to what is there; then reading ends or goes
on. -/
theorem readBlocks_stored {block : List UInt8} (h : block.length ≤ blockSize)
    (out : Array UInt8) (last : Bool) (rest : List UInt8) (fuel : Nat) :
    readBlocks out (fuel + 1) ⟨headByte last ::
      (lengthBytes block.length ++ (block ++ rest)), 0⟩ =
      (if last then pure (out ++ block.toArray) else readBlocks
        (out ++ block.toArray) fuel : Take (Array UInt8)) ⟨rest, 0⟩ := by
  have hget : ∀ s, (get : Take Bits) s = .ok (s, s) := fun _ => rfl
  have hlast : (headByte last).toNat / Nat.pow 2 0 % 2 = if last then 1
      else 0 := by cases last <;> rfl
  have hkind : (headByte last).toNat / 2 % 2 +
      2 * ((headByte last).toNat / 4 % 2 + 2 * 0) = 0 := by cases last <;> rfl
  have hends : ((if last then 1 else 0) == 1) = last := by cases last <;> rfl
  rw [readBlocks, bind_of_ok (bit_of_lt _ _ (by decide)),
    bind_of_ok (bits_kind _ _), bind_of_ok (hget _), hlast, hkind]
  refine (bind_of_ok (readStored_append h _ rest)).trans ?_
  rw [pure_bind, hends]

theorem storeBlocks_last (h : data.length ≤ blockSize) (fuel : Nat) :
    storeBlocks data (fuel + 1) =
      headByte true :: (lengthBytes data.length ++ data) := by
  have hrest : data.drop blockSize = [] := drop_eq_nil_of_le h
  have hblock : data.take blockSize = data := take_of_length_le h
  simp [storeBlocks, hrest, hblock, lengthBytes, headByte]

theorem storeBlocks_more (h : blockSize < data.length) (fuel : Nat) :
    storeBlocks data (fuel + 1) =
      headByte false :: (lengthBytes (data.take blockSize).length ++
      (data.take blockSize ++ storeBlocks (data.drop blockSize) fuel)) := by
  have hrest : (data.drop blockSize).isEmpty = false := by
    rw [isEmpty_eq_false_iff, ne_eq, drop_eq_nil_iff]
    omega
  simp [storeBlocks, hrest, lengthBytes, headByte]

/-- **`readBlocks` reads stored blocks back**, whatever follows them. There are
at most `count + 1` of them. -/
theorem readBlocks_storeBlocks (h : data.length ≤ blockSize * (count + 1))
    (out : Array UInt8) (rest : List UInt8) {fuel : Nat}
    (hfuel : count < fuel) :
    readBlocks out fuel ⟨storeBlocks data (count + 1) ++ rest, 0⟩ =
      .ok (out ++ data.toArray, ⟨rest, 0⟩) := by
  induction count generalizing data out fuel with
  | zero =>
    obtain ⟨fuel, rfl⟩ := Nat.exists_eq_add_of_lt hfuel
    rw [Nat.zero_add, Nat.mul_one] at h
    rw [storeBlocks_last h, cons_append, append_assoc, readBlocks_stored h]
    rfl
  | succ count ih =>
    obtain ⟨fuel, rfl⟩ : ∃ k, fuel = k + 1 := ⟨fuel - 1, by omega⟩
    by_cases hone : data.length ≤ blockSize
    · rw [storeBlocks_last hone, cons_append, append_assoc,
        readBlocks_stored hone]
      rfl
    · have htake : (data.take blockSize).length ≤ blockSize :=
        length_take_le _ _
      have hdrop : (data.drop blockSize).length ≤ blockSize * (count + 1) := by
        rw [length_drop]
        rw [Nat.mul_succ] at h
        omega
      have hjoin : (data.take blockSize).toArray ++
          (data.drop blockSize).toArray = data.toArray := by
        rw [append_toArray, take_append_drop]
      rw [storeBlocks_more (Nat.lt_of_not_le hone), cons_append, append_assoc,
        append_assoc, readBlocks_stored htake]
      simp only [Bool.false_eq_true, if_false]
      rw [ih hdrop _ (by omega), Array.append_assoc, hjoin]

private theorem length_le_storeBlocks
    (h : data.length ≤ blockSize * (count + 1)) :
    data.length ≤ (storeBlocks data (count + 1)).length := by
  induction count generalizing data with
  | zero =>
    rw [Nat.zero_add, Nat.mul_one] at h
    rw [storeBlocks_last h, length_cons, length_append]
    omega
  | succ count ih =>
    by_cases hone : data.length ≤ blockSize
    · rw [storeBlocks_last hone, length_cons, length_append]
      omega
    · have hdrop : (data.drop blockSize).length ≤ blockSize * (count + 1) := by
        rw [length_drop]
        rw [Nat.mul_succ] at h
        omega
      have hrest := ih hdrop
      rw [storeBlocks_more (Nat.lt_of_not_le hone)]
      simp only [length_cons, length_append, length_take,
        length_drop] at hrest ⊢
      omega

end Reading

/-- `inflate` reads a written stream back and leaves what follows it. -/
theorem inflate_deflate (data rest : List UInt8) :
    inflate (deflate data ++ rest) = .ok (data, rest) := by
  have hcount : data.length ≤ blockSize * (data.length / blockSize + 1) := by
    have := Nat.lt_mul_div_succ data.length (show 0 < blockSize by decide)
    omega
  have hfuel :
      data.length / blockSize < 8 * (deflate data ++ rest).length + 1 := by
    have hlength := length_le_storeBlocks hcount
    have hdiv := Nat.div_le_self data.length blockSize
    rw [length_append, deflate]
    omega
  have hread : readBlocks #[] (8 * (deflate data ++ rest).length + 1)
    ⟨deflate data ++ rest, 0⟩ =
      .ok (#[] ++ data.toArray, ⟨rest, 0⟩) :=
    readBlocks_storeBlocks hcount #[] rest hfuel
  rw [Array.empty_append] at hread
  show (readBlocks #[] (8 * (deflate data ++ rest).length + 1) ⟨deflate data ++
    rest, 0⟩ >>= _) = _
  rw [hread]
  rfl

end Inflate

namespace Gzip

/-! ## Files -/

theorem takeExact_append (first rest : List UInt8) :
    takeExact first.length (first ++ rest) = .ok (first, rest) := by
  have hlength : ¬ (first ++ rest).length < first.length := by simp
  rw [takeExact, if_neg hlength, take_left, drop_left]

private theorem skipHeader_header (rest : List UInt8) :
    skipHeader (header ++ rest) = .ok rest := by
  have hfixed : takeExact 8 ((header ++ rest).drop 2) =
      .ok (header.drop 2, rest) := takeExact_append (header.drop 2) rest
  show (takeExact 8 ((header ++ rest).drop 2) >>= _) = _
  rw [hfixed]
  rfl

theorem readMember_compress (data : List UInt8) :
    readMember (compress data) = .ok (data, []) := by
  let trailer :=
    toLittleEndian (crc32 data).toNat 4 ++ toLittleEndian data.length 4
  have htrailer : takeExact 8 trailer = .ok (trailer, []) := by
    have h := takeExact_append trailer []
    rw [append_nil] at h
    simpa [trailer] using h
  have hcrc : littleEndian (trailer.take 4) = (crc32 data).toNat := by
    have hlength : (toLittleEndian (crc32 data).toNat 4).length = 4 :=
      length_toLittleEndian _ _
    rw [List.take_left' hlength]
    exact littleEndian_toLittleEndian (crc32 data).toNat_lt
  have hlength :
      littleEndian (trailer.drop 4) = data.length % Nat.pow 2 32 := by
    have hlength : (toLittleEndian (crc32 data).toNat 4).length = 4 :=
      length_toLittleEndian _ _
    rw [List.drop_left' hlength]
    exact littleEndian_toLittleEndian_mod data.length 4
  have hbytes :
      compress data = header ++ (Inflate.deflate data ++ trailer) := by
    simp only [compress, trailer, append_assoc]
  rw [hbytes, readMember, skipHeader_header]
  dsimp only [bind, Except.bind]
  rw [Inflate.inflate_deflate]
  dsimp only
  rw [htrailer]
  show (if littleEndian (trailer.take 4) != (crc32 data).toNat then _ else
    if littleEndian (trailer.drop 4) != data.length % Nat.pow 2 32 then _
      else Except.ok (data, [])) = _
  rw [hcrc, hlength, bne_self_eq_false, bne_self_eq_false]
  rfl

/-- A way to compress data into one member that `readMember` reads back. -/
structure Packer where
  pack : List UInt8 → List UInt8
  undone : ∀ data, readMember (pack data) = .ok (data, [])

/-- The way in which `compress` does it, with stored blocks. -/
def Packer.stored : Packer := ⟨compress, readMember_compress⟩

instance : Inhabited Packer := ⟨.stored⟩

theorem Packer.pack_ne_nil (p : Packer) (data : List UInt8) :
    p.pack data ≠ [] := by
  intro hnil
  have hread := p.undone data
  rw [hnil] at hread
  cases hread

/-- **A compressed file is read back**, whatever `Packer` wrote it. -/
theorem Packer.decompress_pack (p : Packer) (data : List UInt8) :
    decompress (p.pack data) = .ok data := by
  have hne : (p.pack data).isEmpty = false := by simp [p.pack_ne_nil data]
  have hend : ∀ n, readMembers [] n = .ok [] := by
    intro n
    cases n <;> rfl
  rw [decompress, readMembers, hne, p.undone]
  show (readMembers [] (p.pack data).length >>=
    fun more => Except.ok (data ++ more)) = _
  rw [hend]
  exact congrArg Except.ok (append_nil data)

end Gzip

end TaskShell.Codec

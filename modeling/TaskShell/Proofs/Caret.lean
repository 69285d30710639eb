import TaskShell.Calc.Evaluate
import TaskShell.Proofs.Operations
import Mathlib.Data.Int.Bitwise
import Mathlib.Tactic.Ring

/-!
# The caret

There are two calculators for whole numbers. Plain arithmetic takes the caret
for a power, and the calculator program takes it for the exclusive or of two
integers.
-/

namespace TaskShell.Calc

open List

variable {m n : Nat} {e : Expr}

/-! ## Exclusive or -/

/-- The bit of an integer in two's complement that the program looks at. -/
def bitAt (n : Int) (i : Nat) : Bool := n.fdiv (Nat.pow 2 i) % 2 == 1

theorem bitAt_natCast (m i : Nat) : bitAt m i = m.testBit i := by
  have hdiv :
      (m : Int).fdiv (Nat.pow 2 i : Nat) = ((m / 2 ^ i : Nat) : Int) := by
    rw [Int.fdiv_eq_ediv_of_nonneg _ (Int.natCast_nonneg _)]
    rfl
  rw [bitAt, hdiv, Nat.testBit_eq_decide_div_mod_eq, Bool.eq_iff_iff,
    beq_iff_eq, decide_eq_true_iff]
  omega

theorem bitAt_negSucc (m i : Nat) : bitAt (Int.negSucc m) i = !m.testBit i := by
  have hdiv : (Int.negSucc m).fdiv (Nat.pow 2 i : Nat) =
      Int.negSucc (m / 2 ^ i) := by
    obtain ⟨k, hk⟩ : ∃ k, Nat.pow 2 i = k + 1 :=
      Nat.exists_eq_succ_of_ne_zero (Nat.two_pow_pos i).ne'
    rw [show (2 : Nat) ^ i = Nat.pow 2 i from rfl, hk]
    rfl
  rw [bitAt, hdiv, Nat.testBit_eq_decide_div_mod_eq, Bool.eq_iff_iff,
    beq_iff_eq, Bool.not_eq_true', decide_eq_false_iff_not]
  omega

/-- The sum of the powers of two at the places below `n` where a condition
holds. -/
def sumWhere (holds : Nat → Bool) (n : Nat) : Int :=
  (List.range n).foldl (fun sum i =>
    if holds i then sum + Nat.pow 2 i else sum) 0

theorem sumWhere_succ (holds : Nat → Bool) (n : Nat) :
    sumWhere holds (n + 1) = sumWhere holds n +
      if holds n then (Nat.pow 2 n : Int) else 0 := by
  unfold sumWhere
  rw [range_succ, foldl_append, foldl_cons, foldl_nil]
  split
  · rfl
  · rw [Int.add_zero]

theorem mod_pow_two_succ (k n : Nat) :
    k % 2 ^ (n + 1) = k % 2 ^ n + if k.testBit n then 2 ^ n else 0 := by
  have hbit : k / 2 ^ n % 2 = if k.testBit n then 1 else 0 := by
    rw [Nat.testBit_eq_decide_div_mod_eq]
    split
    · next hone => exact of_decide_eq_true hone
    · next hone =>
      rw [decide_eq_true_iff] at hone
      omega
  rw [Nat.mod_pow_succ, hbit]
  split
  · rw [Nat.mul_one]
  · rw [Nat.mul_zero]

theorem sumWhere_testBit (k n : Nat) :
    sumWhere k.testBit n = ((k % 2 ^ n : Nat) : Int) := by
  induction n with
  | zero => simp [sumWhere, Nat.mod_one]
  | succ n ih =>
    rw [sumWhere_succ, ih, mod_pow_two_succ]
    cases k.testBit n with
    | false => simp
    | true => simp

theorem sumWhere_not_testBit (k n : Nat) :
    sumWhere (fun i => !k.testBit i) n =
      ((2 ^ n : Nat) : Int) - 1 - ((k % 2 ^ n : Nat) : Int) := by
  induction n with
  | zero => simp [sumWhere, Nat.mod_one]
  | succ n ih =>
    rw [sumWhere_succ, ih, mod_pow_two_succ, Nat.pow_succ]
    cases k.testBit n with
    | false =>
      simp
      ring
    | true =>
      simp
      ring

theorem bitwise_eq (f : Bool → Bool → Bool) (a b : Int) :
    Quantity.bitwise f a b =
      if f (a < 0) (b < 0) then
        sumWhere (fun i => f (bitAt a i) (bitAt b i)) (max a.natAbs.log2
          b.natAbs.log2 + 2) - Nat.pow 2 (max a.natAbs.log2 b.natAbs.log2 + 2)
      else sumWhere (fun i => f (bitAt a i) (bitAt b i))
        (max a.natAbs.log2 b.natAbs.log2 + 2) := rfl

theorem lt_two_pow_size {x y : Nat} (hm : m ≤ x) (hn : n ≤ y) :
    m < 2 ^ (max x.log2 y.log2 + 2) ∧ n < 2 ^ (max x.log2 y.log2 + 2) := by
  have hx : x < 2 ^ (x.log2 + 1) := Nat.lt_log2_self
  have hy : y < 2 ^ (y.log2 + 1) := Nat.lt_log2_self
  have hleft : 2 ^ (x.log2 + 1) ≤ 2 ^ (max x.log2 y.log2 + 2) :=
    Nat.pow_le_pow_right (by decide) (by omega)
  have hright : 2 ^ (y.log2 + 1) ≤ 2 ^ (max x.log2 y.log2 + 2) :=
    Nat.pow_le_pow_right (by decide) (by omega)
  omega

/-- **The program's caret is the exclusive or**: `Quantity.bitwise` is `Int.xor`
in two's complement. -/
theorem bitwise_bne (a b : Int) :
    Quantity.bitwise (· != ·) a b = Int.xor a b := by
  have hsame : ∀ m n size : Nat, m < 2 ^ size → n < 2 ^ size →
      sumWhere (fun i => m.testBit i != n.testBit i) size =
        ((m ^^^ n : Nat) : Int) := by
    intro m n size hm hn
    have hbits : (fun i => m.testBit i != n.testBit i) = (m ^^^ n).testBit := by
      funext i
      rw [Nat.testBit_xor]
    rw [hbits, sumWhere_testBit, Nat.mod_eq_of_lt (Nat.xor_lt_two_pow hm hn)]
  have hother : ∀ m n size : Nat, m < 2 ^ size → n < 2 ^ size →
      sumWhere (fun i => !(m.testBit i != n.testBit i)) size -
        (Nat.pow 2 size : Nat) = Int.negSucc (m ^^^ n) := by
    intro m n size hm hn
    have hbits : (fun i => !(m.testBit i != n.testBit i)) =
        fun i => !(m ^^^ n).testBit i := by
      funext i
      rw [Nat.testBit_xor]
    rw [hbits, sumWhere_not_testBit,
      Nat.mod_eq_of_lt (Nat.xor_lt_two_pow hm hn), Int.negSucc_eq]
    show (2 ^ size : Nat) - 1 - ((m ^^^ n : Nat) : Int) - (2 ^ size : Nat) = _
    ring
  have hpositive : ∀ m : Nat, decide (Int.ofNat m < 0) = false :=
    fun m => decide_eq_false (Int.not_lt.2 (Int.natCast_nonneg m))
  have hnegative : ∀ m : Nat, decide (Int.negSucc m < 0) = true :=
    fun m => decide_eq_true (Int.negSucc_lt_zero m)
  rw [bitwise_eq]
  cases a with
  | ofNat m =>
    cases b with
    | ofNat n =>
      obtain ⟨hm, hn⟩ := lt_two_pow_size (Nat.le_refl m) (Nat.le_refl n)
      rw [hpositive, hpositive, if_neg (by decide)]
      simp only [Int.ofNat_eq_natCast, bitAt_natCast]
      exact hsame m n _ hm hn
    | negSucc n =>
      obtain ⟨hm, hn⟩ := lt_two_pow_size (Nat.le_refl m) (Nat.le_succ n)
      rw [hpositive, hnegative, if_pos (by decide)]
      simp only [Int.ofNat_eq_natCast, bitAt_natCast,
        bitAt_negSucc, Bool.bne_not]
      exact hother m n _ hm hn
  | negSucc m =>
    cases b with
    | ofNat n =>
      obtain ⟨hm, hn⟩ := lt_two_pow_size (Nat.le_succ m) (Nat.le_refl n)
      rw [hpositive, hnegative, if_pos (by decide)]
      simp only [Int.ofNat_eq_natCast, bitAt_natCast,
        bitAt_negSucc, Bool.not_bne]
      exact hother m n _ hm hn
    | negSucc n =>
      obtain ⟨hm, hn⟩ := lt_two_pow_size (Nat.le_succ m) (Nat.le_succ n)
      rw [hnegative, hnegative, if_neg (by decide)]
      simp only [bitAt_negSucc, Bool.not_bne, Bool.bne_not, Bool.not_not]
      exact hsame m n _ hm hn

/-! ## Where exclusive or and power agree -/

theorem xor_le_add (m n : Nat) : m ^^^ n ≤ m + n := by
  induction m using Nat.strongRecOn generalizing n with
  | _ m ih =>
    by_cases hm : m = 0
    · rw [hm, Nat.zero_xor, Nat.zero_add]
    · have hhalf := ih (m / 2) (by omega) (n / 2)
      rw [← Nat.xor_div_two] at hhalf
      have hlast : (m ^^^ n) % 2 = (m + n) % 2 := Nat.xor_mod_two_eq
      omega

private theorem add_le_pow (hm : 2 ≤ m) (hn : 2 ≤ n) :
    m + n ≤ m ^ n ∧ (m + n = m ^ n → m = 2 ∧ n = 2) := by
  have hgrow : n ≤ m ^ (n - 1) := by
    have hlt : n - 1 < m ^ (n - 1) := Nat.lt_pow_self hm
    omega
  have hpow : m * n ≤ m ^ n := by
    calc m * n ≤ m * m ^ (n - 1) := Nat.mul_le_mul_left m hgrow
      _ = m ^ n := by rw [← Nat.pow_succ', Nat.succ_eq_add_one,
        Nat.sub_one_add_one (by omega)]
  obtain ⟨k, rfl⟩ : ∃ k, m = k + 2 := ⟨m - 2, by omega⟩
  obtain ⟨l, rfl⟩ : ∃ l, n = l + 2 := ⟨n - 2, by omega⟩
  have hproduct : (k + 2) * (l + 2) = k * l + 2 * k + 2 * l + 4 := by ring
  constructor
  · omega
  · intro heq
    omega

theorem small_of_eq_pow {x : Nat} (hle : x ≤ m + n) (h : x = m ^ n) :
    m ≤ 1 ∨ n ≤ 1 ∨ m = 2 ∧ n = 2 := by
  by_cases hm : 2 ≤ m
  · by_cases hn : 2 ≤ n
    · obtain ⟨hpow, heq⟩ := add_le_pow hm hn
      exact .inr (.inr (heq (by omega)))
    · exact .inr (.inl (by omega))
  · exact .inl (by omega)

theorem eq_zero_of_xor_eq_self (h : m ^^^ n = m) : n = 0 := by
  have hcancel := Nat.xor_xor_cancel_left m n
  rw [h, Nat.xor_self] at hcancel
  exact hcancel.symm

theorem natXor_eq_pow (h : m ^^^ n = m ^ n) : m = 1 ∧ n = 0 := by
  have hzero : n = 0 := by
    rcases small_of_eq_pow (xor_le_add m n) h with hm | hn | ⟨rfl, rfl⟩
    · -- the powers of 0 and 1 are 0 and 1 again, or the exponent is 0
      by_cases hn : n = 0
      · exact hn
      · refine eq_zero_of_xor_eq_self (h.trans ?_)
        obtain rfl | rfl : m = 0 ∨ m = 1 := by omega
        · exact Nat.zero_pow (Nat.pos_of_ne_zero hn)
        · exact Nat.one_pow n
    · obtain rfl | rfl : n = 0 ∨ n = 1 := by omega
      · rfl
      · exact eq_zero_of_xor_eq_self (h.trans (Nat.pow_one m))
    · contradiction
  subst hzero
  rw [Nat.xor_zero, Nat.pow_zero] at h
  exact ⟨h, rfl⟩

private theorem natXor_succ_eq_pow (h : (m ^^^ n) + 1 = (m + 1) ^ n) :
    m = 0 ∧ n = 0 ∨ m = 1 ∧ n = 2 := by
  have hle : (m ^^^ n) + 1 ≤ m + 1 + n := by
    have := xor_le_add m n
    omega
  rcases small_of_eq_pow hle h with hm | hn | ⟨hm, hn⟩
  · obtain rfl : m = 0 := by omega
    rw [Nat.zero_xor, Nat.one_pow] at h
    exact .inl ⟨rfl, by omega⟩
  · obtain rfl | rfl : n = 0 ∨ n = 1 := by omega
    · rw [Nat.xor_zero, Nat.pow_zero] at h
      exact .inl ⟨by omega, rfl⟩
    · rw [Nat.pow_one] at h
      have hone := eq_zero_of_xor_eq_self (Nat.succ.inj h)
      contradiction
  · exact .inr ⟨by omega, hn⟩

/-- **`Int.xor` and `Int.pow` agree at one place only**, which is `1 ^ 0`. -/
theorem xor_eq_pow_iff (a : Int) (n : Nat) :
    Int.xor a n = Int.pow a n ↔ a = 1 ∧ n = 0 := by
  constructor
  · intro h
    cases a with
    | ofNat m =>
      have hpow : Int.pow (Int.ofNat m) n = ((m ^ n : Nat) : Int) :=
        (Int.natCast_pow m n).symm
      rw [hpow] at h
      obtain ⟨rfl, rfl⟩ := natXor_eq_pow (Int.ofNat.inj h)
      exact ⟨rfl, rfl⟩
    | negSucc m =>
      -- the sizes are equal only at two places, and there the signs are not
      have hsize : (m ^^^ n) + 1 = (m + 1) ^ n := by
        have habs : (Int.pow (Int.negSucc m) n).natAbs = (m + 1) ^ n :=
          Int.natAbs_pow (Int.negSucc m) n
        rw [← habs, ← h]
        rfl
      rcases natXor_succ_eq_pow hsize with ⟨rfl, rfl⟩ | ⟨rfl, rfl⟩
      · contradiction
      · contradiction
  · rintro ⟨rfl, rfl⟩
    rfl

/-! ## Expressions of whole numbers -/

def wholeOps : List BinaryOp := [.add, .sub, .mul, .bitXor]

/-- Expressions of decimal numbers with a minus before them and `+`, `-`, `*` or
`^` between them. -/
inductive IsWhole : Expr → Prop where
  | number (n : Nat) : IsWhole (.number (.int n))
  | minus {e : Expr} (h : IsWhole e) : IsWhole (.unary .minus e)
  | binary {op : BinaryOp} {left right : Expr} (hop : op ∈ wholeOps)
      (hleft : IsWhole left) (hright : IsWhole right) :
      IsWhole (.binary op left right)

/-- The value of an `IsWhole` expression, for a meaning of the caret. -/
def wholeValue (caret : Int → Int → Int) : Expr → Int
  | .number (.int n) => n
  | .unary .minus e => -wholeValue caret e
  | .binary .add left right => wholeValue caret left + wholeValue caret right
  | .binary .sub left right => wholeValue caret left - wholeValue caret right
  | .binary .mul left right => wholeValue caret left * wholeValue caret right
  | .binary .bitXor left right =>
    caret (wholeValue caret left) (wholeValue caret right)
  | _ => 0

def power (a b : Int) : Int := Int.pow a b.toNat

def hasCaret : Expr → Bool
  | .unary _ e => hasCaret e
  | .binary op left right => op == .bitXor || hasCaret left || hasCaret right
  | _ => false

theorem wholeValue_of_no_caret (h : IsWhole e) (hcaret : hasCaret e = false)
    (f g : Int → Int → Int) : wholeValue f e = wholeValue g e := by
  induction h with
  | number n => rfl
  | minus h ih =>
    rw [wholeValue, wholeValue, ih hcaret]
  | @binary op left right hop hleft hright ihleft ihright =>
    simp only [hasCaret, Bool.or_eq_false_iff] at hcaret
    obtain ⟨⟨hop', hl⟩, hr⟩ := hcaret
    simp only [wholeOps, mem_cons, not_mem_nil, or_false] at hop
    rcases hop with rfl | rfl | rfl | rfl
    · rw [wholeValue, wholeValue, ihleft hl, ihright hr]
    · rw [wholeValue, wholeValue, ihleft hl, ihright hr]
    · rw [wholeValue, wholeValue, ihleft hl, ihright hr]
    · contradiction

/-- `evaluate` takes the caret for exclusive or. -/
theorem evaluate_whole (h : IsWhole e) :
    evaluate e = .ok (.number (.int (wholeValue Int.xor e))) := by
  induction h with
  | number n => rfl
  | minus h ih =>
    rw [evaluate, ih]
    rfl
  | @binary op left right hop hleft hright ihleft ihright =>
    rw [evaluate, ihleft, ihright]
    simp only [wholeOps, mem_cons, not_mem_nil, or_false] at hop
    rcases hop with rfl | rfl | rfl | rfl
    · rfl
    · rfl
    · rfl
    · show Except.ok (Datum.number (.int (Quantity.bitwise (· != ·) _ _))) = _
      rw [bitwise_bne]
      rfl

/-! ## Plain arithmetic -/

theorem applyInt_pow {a b : Int} {q : Quantity}
    (h : Quantity.applyInt .pow a b = .ok q) :
    q = .int (power a b) ∧ 0 ≤ b ∨ q.int? = none := by
  unfold Quantity.applyInt at h
  dsimp only at h
  split at h
  · obtain ⟨x, -, h⟩ := ok_of_bind_eq_ok h
    obtain ⟨y, -, h⟩ := ok_of_bind_eq_ok h
    exact .inr ((Quantity.inexact_floatPow x y).noInt q h)
  · next hb =>
    cases h
    exact .inl ⟨rfl, by omega⟩

/-- `arithmetic` takes the caret for a `power`. What it gives is either the
value in this sense, or no whole number, after a negative exponent. -/
theorem arithmetic_whole (h : IsWhole e) : ∀ q, arithmetic e = .ok q →
    q = .int (wholeValue power e) ∨ q.int? = none := by
  induction h with
  | number n =>
    rintro q ⟨⟩
    exact .inl rfl
  | @minus e h ih =>
    intro q hq
    rw [arithmetic] at hq
    obtain ⟨inner, hinner, hminus⟩ := ok_of_bind_eq_ok hq
    rcases ih inner hinner with rfl | hnone
    · cases hminus
      exact .inl rfl
    · cases inner with
      | bool b => cases hnone
      | int i => cases hnone
      | float x =>
        cases hminus
        exact .inr rfl
      | complex re im =>
        cases hminus
        exact .inr rfl
  | @binary op left right hop hleft hright ihleft ihright =>
    intro q hq
    obtain ⟨known, a, b, hknown, ha, hb, -, happly⟩ :=
      arithmetic_binary_eq_ok hq
    have hmem := mem_arithmeticOps hknown
    -- operands that are not both whole are out of the way first
    rcases ihleft a ha with rfl | hnone
    · rcases ihright b hb with rfl | hnone
      · simp only [wholeOps, mem_cons, not_mem_nil, or_false] at hop
        rcases hop with rfl | rfl | rfl | rfl
        · cases hknown
          cases happly
          exact .inl rfl
        · cases hknown
          cases happly
          exact .inl rfl
        · cases hknown
          cases happly
          exact .inl rfl
        · cases hknown
          rcases applyInt_pow happly with ⟨hpow, -⟩ | hnone
          · exact .inl hpow
          · exact .inr hnone
      · exact .inr ((inexact_apply hmem (.inr hnone)).noInt q happly)
    · exact .inr ((inexact_apply hmem (.inl hnone)).noInt q happly)

private theorem exponent_nonneg {left right : Expr} (hleft : IsWhole left)
    (hright : IsWhole right) {r : Int}
    (h : arithmetic (.binary .bitXor left right) = .ok (.int r)) :
    0 ≤ wholeValue power right := by
  obtain ⟨known, a, b, hknown, ha, hb, -, happly⟩ := arithmetic_binary_eq_ok h
  have hmem := mem_arithmeticOps hknown
  cases hknown
  rcases arithmetic_whole hleft a ha with rfl | hnone
  · rcases arithmetic_whole hright b hb with rfl | hnone
    · rcases applyInt_pow happly with ⟨-, hb⟩ | hnone
      · exact hb
      · cases hnone
    · have hfound := (inexact_apply hmem (.inr hnone)).noInt _ happly
      cases hfound
  · have hfound := (inexact_apply hmem (.inl hnone)).noInt _ happly
    cases hfound

/-- The two meanings of a caret agree, on operands without one, only for
`1 ^ 0`. -/
theorem caret_agrees_iff {left right : Expr} (hleft : IsWhole left)
    (hright : IsWhole right)
    (hfree : hasCaret left = false ∧ hasCaret right = false) {r : Int}
    (h : arithmetic (.binary .bitXor left right) = .ok (.int r)) :
    wholeValue Int.xor (.binary .bitXor left right) = r ↔
      wholeValue power left = 1 ∧ wholeValue power right = 0 := by
  obtain ⟨n, hn⟩ := Int.eq_ofNat_of_zero_le (exponent_nonneg hleft hright h)
  have hr : r = power (wholeValue power left) (wholeValue power right) := by
    rcases arithmetic_whole (.binary (by decide) hleft hright) _ h
      with hvalue | hnone
    · exact Quantity.int.inj hvalue
    · cases hnone
  rw [wholeValue, hr, wholeValue_of_no_caret hleft hfree.1 Int.xor power,
    wholeValue_of_no_caret hright hfree.2 Int.xor power, hn, power,
    Int.toNat_natCast, xor_eq_pow_iff]
  simp only [Int.natCast_eq_zero]

end TaskShell.Calc

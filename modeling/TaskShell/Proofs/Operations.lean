import TaskShell.Calc.Arithmetic

/-!
# What operations on numbers give

An operation of plain arithmetic has a value, or it fails for its operands: a
division by zero, a result out of range, or operands of a kind that it does not
take. The value is whole only if both operands are.
-/

namespace TaskShell.Calc

open List

/-- The faults that lie in the operands of an operation. -/
inductive OfOperands : CalcFault → Prop where
  | zeroDivision (message : String) : OfOperands (.zeroDivision message)
  | overflow (message : String) : OfOperands (.overflow message)
  | kind (message : String) : OfOperands (.kind message)

def FailsOnly {α : Type} (P : CalcFault → Prop) (x : Except CalcFault α) :
    Prop := ∀ f, x = .error f → P f

/-- A computation that gives no whole number and fails for its operands only
(`OfOperands`). -/
structure Inexact (x : Except CalcFault Quantity) : Prop where
  noInt : ∀ q, x = .ok q → q.int? = none
  faults : FailsOnly OfOperands x

/-! ## Computations -/

section Failing

variable {α β : Type} {P : CalcFault → Prop}

theorem failsOnly_ok (a : α) : FailsOnly P (.ok a) := by
  intro f hf
  cases hf

theorem failsOnly_error {f : CalcFault} (h : P f) :
    FailsOnly P (.error f : Except _ α) := by
  rintro _ ⟨⟩
  exact h

theorem failsOnly_ite {c : Prop} [Decidable c] {x y : Except CalcFault α}
    (hx : FailsOnly P x) (hy : FailsOnly P y) :
    FailsOnly P (if c then x else y) := by
  by_cases hc : c
  · rwa [if_pos hc]
  · rwa [if_neg hc]

theorem failsOnly_bind {x : Except CalcFault α} (hx : FailsOnly P x)
    {f : α → Except CalcFault β} (hf : ∀ a, FailsOnly P (f a)) :
    FailsOnly P (x >>= f) := by
  cases x with
  | error e => exact failsOnly_error (hx e rfl)
  | ok a => exact hf a

theorem failsOnly_map {x : Except CalcFault α} (hx : FailsOnly P x)
    (f : α → β) : FailsOnly P (x.map f) := by
  cases x with
  | error e => exact failsOnly_error (hx e rfl)
  | ok a => exact failsOnly_ok (f a)

end Failing

theorem inexact_error {f : CalcFault} (h : OfOperands f) :
    Inexact (.error f) := by
  refine ⟨?_, failsOnly_error h⟩
  intro q hq
  cases hq

theorem inexact_float (x : Float) : Inexact (.ok (.float x)) := by
  refine ⟨?_, failsOnly_ok _⟩
  rintro _ ⟨⟩
  rfl

theorem inexact_complex (re im : Float) : Inexact (.ok (.complex re im)) := by
  refine ⟨?_, failsOnly_ok _⟩
  rintro _ ⟨⟩
  rfl

theorem inexact_ite {c : Prop} [Decidable c] {x y : Except CalcFault Quantity}
    (hx : Inexact x) (hy : Inexact y) :
    Inexact (if c then x else y) := by
  by_cases hc : c
  · rwa [if_pos hc]
  · rwa [if_neg hc]

theorem inexact_bind {α : Type} {x : Except CalcFault α}
    (hx : FailsOnly OfOperands x)
    {f : α → Except CalcFault Quantity} (hf : ∀ a, Inexact (f a)) :
    Inexact (x >>= f) := by
  cases x with
  | error e => exact inexact_error (hx e rfl)
  | ok a => exact hf a

theorem inexact_map {α : Type} {x : Except CalcFault α}
    (hx : FailsOnly OfOperands x) {f : α → Quantity}
    (hf : ∀ a, Inexact (.ok (f a))) : Inexact (x.map f) := by
  cases x with
  | error e => exact inexact_error (hx e rfl)
  | ok a => exact hf a

/-! ## Doubles and complex numbers -/

namespace Quantity

theorem failsOnly_floatOfInt (i : Int) : FailsOnly OfOperands (floatOfInt i) :=
  failsOnly_ite (failsOnly_error (.overflow _)) (failsOnly_ok _)

theorem failsOnly_toFloat (q : Quantity) : FailsOnly OfOperands q.toFloat := by
  cases q with
  | int i => exact failsOnly_floatOfInt i
  | _ => exact failsOnly_ok _

theorem failsOnly_toComplex (q : Quantity) :
    FailsOnly OfOperands q.toComplex := by
  cases q with
  | int i => exact failsOnly_map (failsOnly_floatOfInt i) _
  | _ => exact failsOnly_ok _

theorem failsOnly_complexDiv (a b : Float × Float) :
    FailsOnly OfOperands (complexDiv a b) :=
  failsOnly_ite (failsOnly_ite (failsOnly_error (.zeroDivision _))
    (failsOnly_ok _)) (failsOnly_ite (failsOnly_ok _) (failsOnly_ok _))

theorem failsOnly_floatMod (x y : Float) :
    FailsOnly OfOperands (floatMod x y) :=
  failsOnly_ite (failsOnly_error (.zeroDivision _))
    (failsOnly_ite (failsOnly_ok _)
      (failsOnly_ite (failsOnly_ok _) (failsOnly_ok _)))

theorem failsOnly_floatFloorDiv (x y : Float) :
    FailsOnly OfOperands (floatFloorDiv x y) :=
  failsOnly_ite (failsOnly_error (.zeroDivision _))
    (failsOnly_ite (failsOnly_ok _) (failsOnly_ok _))

private theorem inexact_complexPow (a b : Float × Float) :
    Inexact (complexPow a b) := by
  have hend : ∀ {parts : Except CalcFault (Float × Float)},
      FailsOnly OfOperands parts → Inexact (parts >>= fun r =>
      if (Number.isInfinite r.1 || Number.isInfinite r.2) = true then
        (do throw (.overflow "complex exponentiation"); pure (.complex r.1 r.2))
      else pure (.complex r.1 r.2)) :=
    fun hparts => inexact_bind hparts fun r =>
      inexact_ite (inexact_error (.overflow _)) (inexact_complex r.1 r.2)
  unfold complexPow
  dsimp only
  refine inexact_ite (inexact_ite (hend (failsOnly_ok _)) ?_)
    (inexact_ite (inexact_ite ?_ ?_) ?_)
  · split
    · exact hend (failsOnly_ok _)
    · exact hend (failsOnly_error (.zeroDivision _))
  · exact hend (failsOnly_error (.zeroDivision _))
  · exact hend (failsOnly_ok _)
  · exact hend (failsOnly_ok _)

theorem inexact_floatPow (x y : Float) : Inexact (floatPow x y) := by
  have hsize : ∀ size : Float, Inexact
      (if Number.isInfinite size =
        true then .error (.overflow "(34, 'Numerical result out of range')")
      else .ok (.float (if (decide (x < 0) && isOddFloat y) = true then -size
          else size))) :=
    fun size => inexact_ite (inexact_error (.overflow _)) (inexact_float _)
  unfold floatPow
  dsimp only
  refine inexact_ite (inexact_float _)
    (inexact_ite (inexact_float _) (inexact_ite (inexact_float _) ?_))
  refine inexact_ite (inexact_ite (inexact_float _) (inexact_float _)) ?_
  refine inexact_ite (inexact_ite (inexact_float _) (inexact_float _)) ?_
  refine inexact_ite
    (inexact_ite (inexact_error (.zeroDivision _)) (inexact_float _)) ?_
  exact inexact_ite (inexact_complexPow _ _) (hsize _)

end Quantity

def arithmeticOps : List BinaryOp :=
  [.add, .sub, .mul, .div, .mod, .floorDiv, .pow]

section Operations

variable {op : BinaryOp} (hop : op ∈ arithmeticOps)
include hop

theorem inexact_applyFloat (a b : Quantity) (x y : Float) :
    Inexact (Quantity.applyFloat op a b x y) := by
  simp only [arithmeticOps, mem_cons, not_mem_nil, or_false] at hop
  rcases hop with rfl | rfl | rfl | rfl | rfl | rfl | rfl
  · exact inexact_float _
  · exact inexact_float _
  · exact inexact_float _
  · exact inexact_ite (inexact_error (.zeroDivision _)) (inexact_float _)
  · exact inexact_map (Quantity.failsOnly_floatMod x y) inexact_float
  · exact inexact_map (Quantity.failsOnly_floatFloorDiv x y) inexact_float
  · exact Quantity.inexact_floatPow x y

theorem inexact_applyComplex (a b : Quantity) (x y : Float × Float) :
    Inexact (Quantity.applyComplex op a b x y) := by
  simp only [arithmeticOps, mem_cons, not_mem_nil, or_false] at hop
  rcases hop with rfl | rfl | rfl | rfl | rfl | rfl | rfl
  · exact inexact_complex _ _
  · exact inexact_complex _ _
  · exact inexact_complex _ _
  · exact inexact_map (Quantity.failsOnly_complexDiv x y) fun _ =>
      inexact_complex _ _
  · exact inexact_error (.kind _)
  · exact inexact_error (.kind _)
  · exact Quantity.inexact_complexPow x y

private theorem apply_of_int?_none {a b : Quantity}
    (hab : a.int? = none ∨ b.int? = none) :
    a.apply op b =
      if (a.isComplex || b.isComplex) = true then
        a.toComplex >>= fun x => b.toComplex >>=
          fun y => Quantity.applyComplex op a b x y
      else a.toFloat >>= fun x => b.toFloat >>=
          fun y => Quantity.applyFloat op a b x y := by
  simp only [arithmeticOps, mem_cons, not_mem_nil, or_false] at hop
  rcases hop with rfl | rfl | rfl | rfl | rfl | rfl | rfl
  all_goals
    unfold Quantity.apply
    dsimp only
    split
    · next i j ha hb =>
      rw [ha, hb] at hab
      simp at hab
    · rfl

theorem inexact_apply {a b : Quantity} (hab : a.int? = none ∨ b.int? = none) :
    Inexact (a.apply op b) := by
  rw [apply_of_int?_none hop hab]
  apply inexact_ite
  · exact inexact_bind (Quantity.failsOnly_toComplex a) fun x =>
      inexact_bind (Quantity.failsOnly_toComplex b) fun y =>
        inexact_applyComplex hop a b x y
  · exact inexact_bind (Quantity.failsOnly_toFloat a) fun x =>
      inexact_bind (Quantity.failsOnly_toFloat b) fun y =>
        inexact_applyFloat hop a b x y

theorem apply_of_int? {a b : Quantity} {i j : Int} (ha : a.int? = some i)
    (hb : b.int? = some j) :
    a.apply op b = Quantity.applyInt op i j := by
  simp only [arithmeticOps, mem_cons, not_mem_nil, or_false] at hop
  rcases hop with rfl | rfl | rfl | rfl | rfl | rfl | rfl
  all_goals
    unfold Quantity.apply
    dsimp only
    rw [ha, hb]
    rfl

private theorem failsOnly_applyInt (i j : Int) :
    FailsOnly OfOperands (Quantity.applyInt op i j) := by
  simp only [arithmeticOps, mem_cons, not_mem_nil, or_false] at hop
  rcases hop with rfl | rfl | rfl | rfl | rfl | rfl | rfl
  · exact failsOnly_ok _
  · exact failsOnly_ok _
  · exact failsOnly_ok _
  · exact failsOnly_ite (failsOnly_error (.zeroDivision _))
      (failsOnly_ite (failsOnly_error (.overflow _)) (failsOnly_ok _))
  · exact failsOnly_ite (failsOnly_error (.zeroDivision _)) (failsOnly_ok _)
  · exact failsOnly_ite (failsOnly_error (.zeroDivision _)) (failsOnly_ok _)
  · refine failsOnly_ite ?_ (failsOnly_ok _)
    exact failsOnly_bind (Quantity.failsOnly_floatOfInt i) fun x =>
      failsOnly_bind (Quantity.failsOnly_floatOfInt j) fun y =>
        (Quantity.inexact_floatPow x y).faults

/-- **An operation of plain arithmetic fails for its operands only**
(`OfOperands`). -/
theorem failsOnly_apply (a b : Quantity) :
    FailsOnly OfOperands (a.apply op b) := by
  cases ha : a.int? with
  | none => exact (inexact_apply hop (.inl ha)).faults
  | some i =>
    cases hb : b.int? with
    | none => exact (inexact_apply hop (.inr hb)).faults
    | some j =>
      rw [apply_of_int? hop ha hb]
      exact failsOnly_applyInt hop i j

end Operations

/-! ## Expressions -/

theorem mem_arithmeticOps {op known : BinaryOp}
    (h : arithmeticOp? op = some known) : known ∈ arithmeticOps := by
  cases op with
  | matMul => cases h
  | shiftLeft => cases h
  | shiftRight => cases h
  | bitOr => cases h
  | bitAnd => cases h
  | _ =>
    cases h
    decide

theorem ok_of_bind_eq_ok {α β : Type} {x : Except CalcFault α}
    {f : α → Except CalcFault β} {b : β} (h : (x >>= f) = .ok b) :
    ∃ a, x = .ok a ∧ f a = .ok b := by
  cases x with
  | error e => cases h
  | ok a => exact ⟨a, rfl, h⟩

/-- `arithmetic` operates on what the operands give, unless that is an exponent
beyond the limit. -/
theorem arithmetic_binary_eq_ok {op : BinaryOp} {left right : Expr}
    {q : Quantity} (h : arithmetic (.binary op left right) = .ok q) :
    ∃ known a b, arithmeticOp? op = some known ∧ arithmetic left = .ok a ∧
      arithmetic right = .ok b ∧
      (isPower op && isLargeExponent b) = false ∧ a.apply known b = .ok q := by
  rw [arithmetic] at h
  obtain ⟨a, ha, h⟩ := ok_of_bind_eq_ok h
  obtain ⟨b, hb, h⟩ := ok_of_bind_eq_ok h
  dsimp only at h
  split at h
  · cases h
  · next hsmall =>
    split at h
    · next known hknown =>
      exact ⟨known, a, b, hknown, ha, hb, Bool.eq_false_iff.2 hsmall, h⟩
    · cases h

end TaskShell.Calc

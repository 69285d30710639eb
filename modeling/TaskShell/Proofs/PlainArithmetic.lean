import TaskShell.Proofs.Operations

/-!
# The language of plain arithmetic

Plain arithmetic reads signs and eight operators between whole numbers and
doubles. A value shows that nothing else stands in the expression, and an
expression of nothing else is not refused for its form.
-/

namespace TaskShell.Calc

open List

variable {e : Expr} {q : Quantity}

/-! ## Nodes -/

def Expr.children : Expr → List Expr
  | number _ | constant _ | name _ | unevaluated => []
  | unary _ e | member e _ => [e]
  | binary _ left right | both left right | either left right |
      item left right => [left, right]
  | comparison first rest => first :: rest.map (·.2)
  | choice test yes no => [test, yes, no]
  | tuple items | list items | set items => items
  | record fields => fields.flatMap fun field => [field.1, field.2]
  | call function args named => function :: args ++ named.map (·.2)

/-- The nodes of an expression: itself and those of its `Expr.children`. -/
inductive IsNode (n : Expr) : Expr → Prop where
  | root : IsNode n n
  | child {c e : Expr} (hc : c ∈ e.children) (h : IsNode n c) : IsNode n e

theorem forall_isNode_iff {P : Expr → Prop} :
    (∀ n, IsNode n e → P n) ↔ P e ∧
    ∀ c ∈ e.children, ∀ n, IsNode n c → P n := by
  constructor
  · intro h
    exact ⟨h e .root, fun c hc n hn => h n (.child hc hn)⟩
  · rintro ⟨hroot, hchildren⟩ n hn
    cases hn with
    | root => exact hroot
    | child hc hn => exact hchildren _ hc n hn

def plainOps : List BinaryOp :=
  [.add, .sub, .mul, .div, .mod, .pow, .floorDiv, .bitXor]

/-- The nodes of plain arithmetic. -/
inductive IsPlain : Expr → Prop where
  | bool (b : Bool) : IsPlain (.number (.bool b))
  | int (i : Int) : IsPlain (.number (.int i))
  | float (x : Float) : IsPlain (.number (.float x))
  | unary {op : UnaryOp} (hop : op = .plus ∨ op = .minus) (e : Expr) :
      IsPlain (.unary op e)
  | binary {op : BinaryOp} (hop : op ∈ plainOps) (left right : Expr) :
      IsPlain (.binary op left right)

/-! ## Expressions with a value -/

theorem mem_plainOps_iff {op : BinaryOp} :
    op ∈ plainOps ↔ ∃ known, arithmeticOp? op = some known := by
  cases op <;> simp [plainOps, arithmeticOp?]

theorem arithmetic_unary_eq_ok {op : UnaryOp}
    (h : arithmetic (.unary op e) = .ok q) :
    (op = .plus ∨ op = .minus) ∧ ∃ a, arithmetic e = .ok a := by
  cases op with
  | plus =>
    obtain ⟨a, ha, -⟩ := ok_of_bind_eq_ok h
    exact ⟨.inl rfl, a, ha⟩
  | minus =>
    obtain ⟨a, ha, -⟩ := ok_of_bind_eq_ok h
    exact ⟨.inr rfl, a, ha⟩
  | invert => cases h
  | not => cases h

theorem isPlain_of_ok (h : arithmetic e = .ok q) : IsPlain e := by
  cases e with
  | number literal =>
    cases literal with
    | bool b => exact .bool b
    | int i => exact .int i
    | float x => exact .float x
    | complex re im => cases h
  | unary op e => exact .unary (arithmetic_unary_eq_ok h).1 e
  | binary op left right =>
    obtain ⟨known, _, _, hknown, -⟩ := arithmetic_binary_eq_ok h
    exact .binary (mem_plainOps_iff.2 ⟨known, hknown⟩) left right
  | _ => cases h

private theorem ok_of_mem_children {c : Expr} (h : arithmetic e = .ok q)
    (hc : c ∈ e.children) : ∃ a, arithmetic c = .ok a := by
  cases isPlain_of_ok h with
  | bool b => cases hc
  | int i => cases hc
  | float x => cases hc
  | unary hop e =>
    rw [mem_singleton.1 hc]
    exact (arithmetic_unary_eq_ok h).2
  | binary hop left right =>
    obtain ⟨_, a, b, -, ha, hb, -⟩ := arithmetic_binary_eq_ok h
    simp only [Expr.children, mem_cons, not_mem_nil, or_false] at hc
    rcases hc with rfl | rfl
    · exact ⟨a, ha⟩
    · exact ⟨b, hb⟩

/-- **Every node of an expression that `arithmetic` has a value for has a
value.** -/
theorem ok_of_isNode {n : Expr} (hn : IsNode n e) :
    ∀ q, arithmetic e = .ok q → ∃ a, arithmetic n = .ok a := by
  induction hn with
  | root =>
    intro q hq
    exact ⟨q, hq⟩
  | child hc hn ih =>
    intro q hq
    obtain ⟨a, ha⟩ := ok_of_mem_children hq hc
    exact ih a ha

theorem exponent_within {op : BinaryOp} {left right : Expr} {b : Quantity}
    {i : Int} (h : arithmetic (.binary op left right) = .ok q)
    (hop : op = .pow ∨ op = .bitXor) (hb : arithmetic right = .ok b)
    (hi : b.int? = some i) : -10000 ≤ i ∧ i ≤ 10000 := by
  obtain ⟨_, _, b', -, -, hb', hsmall, -⟩ := arithmetic_binary_eq_ok h
  obtain rfl : b = b' := Except.ok.inj (hb.symm.trans hb')
  have hpower : isPower op = true := by
    rcases hop with rfl | rfl
    · rfl
    · rfl
  rw [hpower, Bool.true_and, isLargeExponent, hi] at hsmall
  have hle : ¬i.natAbs > 10000 := of_decide_eq_false hsmall
  omega

/-! ## Faults -/

/-- The ways to refuse an expression for its form. -/
def refusals : List CalcFault :=
  [.value "unsupported operator", .value "unsupported unary operator",
    .value "only numbers allowed", .value "unsupported expression element"]

def OfValues (f : CalcFault) : Prop :=
  f = .value "exponent too large" ∨ OfOperands f

theorem OfValues.not_refusal {f : CalcFault} (h : OfValues f) :
    f ∉ refusals := by
  rcases h with rfl | h
  · decide
  · cases h with
    | zeroDivision message => simp [refusals]
    | overflow message => simp [refusals]
    | kind message => simp [refusals]

theorem failsOnly_sign {op : UnaryOp} (hop : op = .plus ∨ op = .minus)
    (q : Quantity) :
    FailsOnly OfValues (q.applyUnary op) := by
  rcases hop with rfl | rfl
  all_goals cases q <;> exact failsOnly_ok _

/-- **An expression of `IsPlain` nodes fails only for the values in it**: an
exponent beyond the limit, or operands that an operation does not take. -/
theorem failsOnly_arithmetic (h : ∀ n, IsNode n e → IsPlain n) :
    FailsOnly OfValues (arithmetic e) := by
  fun_induction arithmetic e with
  | case1 op left right ihleft ihright =>
    obtain ⟨hroot, hchildren⟩ := forall_isNode_iff.1 h
    cases hroot with
    | binary hop left right =>
      obtain ⟨known, hknown⟩ := mem_plainOps_iff.1 hop
      refine failsOnly_bind
        (ihleft (hchildren left (by simp [Expr.children]))) fun a => ?_
      refine failsOnly_bind
        (ihright (hchildren right (by simp [Expr.children]))) fun b => ?_
      refine failsOnly_ite (failsOnly_error (.inl rfl)) ?_
      rw [hknown]
      intro f hf
      exact .inr (failsOnly_apply (mem_arithmeticOps hknown) a b f hf)
  | case2 e ih =>
    obtain ⟨-, hchildren⟩ := forall_isNode_iff.1 h
    exact failsOnly_bind (ih (hchildren e mem_cons_self))
      (failsOnly_sign (.inl rfl))
  | case3 e ih =>
    obtain ⟨-, hchildren⟩ := forall_isNode_iff.1 h
    exact failsOnly_bind (ih (hchildren e mem_cons_self))
      (failsOnly_sign (.inr rfl))
  -- the forms that are refused are no plain nodes
  | case4 op e hplus hminus =>
    cases h _ .root with
    | unary hop e =>
      rcases hop with hop | hop
      · cases hplus hop
      · cases hminus hop
  | case5 q hcomplex =>
    cases h _ .root with
    | bool b => cases hcomplex
    | int i => cases hcomplex
    | float x => cases hcomplex
  | case6 q hreal => exact failsOnly_ok q
  | case7 c => cases h _ .root
  | case8 e hbinary hplus hminus hunary hnumber hconstant =>
    cases h _ .root with
    | bool b => cases hnumber _ rfl
    | int i => cases hnumber _ rfl
    | float x => cases hnumber _ rfl
    | unary hop e => cases hunary _ _ rfl
    | binary hop left right => cases hbinary _ _ _ rfl

/-! ## Powers for carets -/

mutual

/-- An expression with a power in place of the caret at the chosen nodes. The
place of a node lists the steps that lead to it from the whole expression, the
last one first. -/
def powersAt (chosen : List Nat → Bool) (place : List Nat) : Expr → Expr
  | .binary op left right =>
    .binary (if op == .bitXor && chosen place then .pow else op)
      (powersAt chosen (0 :: place) left) (powersAt chosen (1 :: place) right)
  | .unary op e => .unary op (powersAt chosen (0 :: place) e)
  | .comparison first rest =>
    .comparison (powersAt chosen (0 :: place) first)
      (powersAtCompared chosen place 1 rest)
  | .both left right =>
    .both (powersAt chosen (0 :: place) left)
      (powersAt chosen (1 :: place) right)
  | .either left right =>
    .either (powersAt chosen (0 :: place) left)
      (powersAt chosen (1 :: place) right)
  | .choice test yes no =>
    .choice (powersAt chosen (0 :: place) test)
      (powersAt chosen (1 :: place) yes) (powersAt chosen (2 :: place) no)
  | .tuple items => .tuple (powersAtItems chosen place 0 items)
  | .list items => .list (powersAtItems chosen place 0 items)
  | .set items => .set (powersAtItems chosen place 0 items)
  | .record fields => .record (powersAtFields chosen place 0 fields)
  | .call function args named =>
    .call (powersAt chosen (0 :: place) function)
      (powersAtItems chosen place 1 args)
      (powersAtNamed chosen place (args.length + 1) named)
  | .member e name => .member (powersAt chosen (0 :: place) e) name
  | .item e index =>
    .item (powersAt chosen (0 :: place) e) (powersAt chosen (1 :: place) index)
  | .number q => .number q
  | .constant c => .constant c
  | .name s => .name s
  | .unevaluated => .unevaluated

def powersAtItems (chosen : List Nat → Bool) (place : List Nat)
    (i : Nat) : List Expr → List Expr
  | [] => []
  | e :: es =>
    powersAt chosen (i :: place) e :: powersAtItems chosen place (i + 1) es

def powersAtCompared (chosen : List Nat → Bool) (place : List Nat) (i : Nat) :
    List (CompareOp × Expr) → List (CompareOp × Expr)
  | [] => []
  | (op, e) :: rest =>
    (op, powersAt chosen (i :: place) e) ::
      powersAtCompared chosen place (i + 1) rest

def powersAtFields (chosen : List Nat → Bool) (place : List Nat) (i : Nat) :
    List (Expr × Expr) → List (Expr × Expr)
  | [] => []
  | (key, value) :: rest =>
    (powersAt chosen (i :: place) key,
      powersAt chosen ((i + 1) :: place) value) ::
      powersAtFields chosen place (i + 2) rest

def powersAtNamed (chosen : List Nat → Bool) (place : List Nat) (i : Nat) :
    List (String × Expr) → List (String × Expr)
  | [] => []
  | (name, e) :: rest =>
    (name, powersAt chosen (i :: place) e) ::
      powersAtNamed chosen place (i + 1) rest

end

private theorem arithmetic_powersAt (chosen : List Nat → Bool)
    (place : List Nat) (e : Expr) :
    arithmetic (powersAt chosen place e) = arithmetic e := by
  fun_induction arithmetic e generalizing place with
  | case1 op left right ihleft ihright =>
    rw [powersAt, arithmetic, ihleft, ihright]
    cases hchosen : op == .bitXor && chosen place with
    | false => rfl
    | true =>
      obtain rfl : op = .bitXor := eq_of_beq (Bool.and_eq_true_iff.1 hchosen).1
      rfl
  | case2 e ih => rw [powersAt, arithmetic, ih]
  | case3 e ih => rw [powersAt, arithmetic, ih]
  | case4 op e hplus hminus =>
    cases op with
    | plus => cases hplus rfl
    | minus => cases hminus rfl
    | invert => rfl
    | not => rfl
  | case5 q hcomplex => rw [powersAt, arithmetic, if_pos hcomplex]
  | case6 q hreal => rw [powersAt, arithmetic, if_neg hreal]
  | case7 c => rfl
  | case8 e hbinary hplus hminus hunary hnumber hconstant =>
    cases e with
    | number q => cases hnumber q rfl
    | constant c => cases hconstant c rfl
    | unary op e => cases hunary op e rfl
    | binary op left right => cases hbinary op left right rfl
    | _ => rfl

/-! ## The language -/

/-- **Plain arithmetic has the language of signs and eight operators between
real numbers.** In an expression with a value all nodes are of that language,
and the whole exponents are within the bounds. An expression of such nodes is
not refused for its form. Carets at any nodes may be written as powers. -/
theorem arithmetic_language (e : Expr) :
    (∀ q, arithmetic e = .ok q →
      (∀ n, IsNode n e → IsPlain n) ∧
        ∀ op left right, IsNode (.binary op left right) e → op = .pow ∨
          op = .bitXor →
          ∀ b i, arithmetic right = .ok b → b.int? = some i →
            -10000 ≤ i ∧ i ≤ 10000) ∧
      ((∀ n, IsNode n e → IsPlain n) → ∀ f, arithmetic e = .error f →
        f ∉ refusals) ∧
        ∀ chosen, arithmetic (powersAt chosen [] e) = arithmetic e := by
  refine ⟨fun q hq => ⟨?_, ?_⟩, ?_, ?_⟩
  · intro n hn
    obtain ⟨a, ha⟩ := ok_of_isNode hn q hq
    exact isPlain_of_ok ha
  · intro op left right hn hop b i hb hi
    obtain ⟨a, ha⟩ := ok_of_isNode hn q hq
    exact exponent_within ha hop hb hi
  · intro h f hf
    exact (failsOnly_arithmetic h f hf).not_refusal
  · intro chosen
    exact arithmetic_powersAt chosen [] e

/-- `2 ^ 3 + True` has a value, also with its caret written as a power, and
`2 ^ 10001` has none, though it is of the language. -/
theorem arithmetic_language_caret :
    arithmetic (.binary .add (.binary .bitXor (.number (.int 2))
      (.number (.int 3))) (.number (.bool true))) = .ok (.int 9) ∧
      IsPlain (.number (.bool true)) ∧
      ((-10000 : Int) ≤ 3 ∧ (3 : Int) ≤ 10000) ∧
      arithmetic (.binary .add (.binary .pow (.number (.int 2))
        (.number (.int 3))) (.number (.bool true))) = .ok (.int 9) ∧
      arithmetic (.binary .bitXor (.number (.int 2)) (.number (.int 10001))) =
        .error (.value "exponent too large") ∧
      CalcFault.value "exponent too large" ∉ refusals := by
  have hvalue :
      arithmetic (.binary .add (.binary .bitXor (.number (.int 2))
        (.number (.int 3))) (.number (.bool true))) = .ok (.int 9) := rfl
  have hfault :
    arithmetic (.binary .bitXor (.number (.int 2)) (.number (.int 10001))) =
      .error (.value "exponent too large") := rfl
  obtain ⟨hok, -, hpowers⟩ :=
    arithmetic_language (.binary .add (.binary .bitXor (.number (.int 2))
      (.number (.int 3))) (.number (.bool true)))
  obtain ⟨hplain, hbounds⟩ := hok _ hvalue
  have hnodes : ∀ n,
      IsNode n (.binary .bitXor (.number (.int 2)) (.number (.int 10001))) →
      IsPlain n := by
    refine forall_isNode_iff.2 ⟨.binary (by decide) _ _,
      fun c hc => forall_isNode_iff.2 ?_⟩
    simp only [Expr.children, mem_cons, not_mem_nil, or_false] at hc
    rcases hc with rfl | rfl
    · exact ⟨.int 2, fun _ hc => nomatch hc⟩
    · exact ⟨.int 10001, fun _ hc => nomatch hc⟩
  refine ⟨hvalue, ?_, ?_, ?_, hfault,
    (arithmetic_language _).2.1 hnodes _ hfault⟩
  · exact hplain _ (.child (.tail _ (.head _)) .root)
  · exact hbounds .bitXor (.number (.int 2)) (.number (.int 3))
      (.child (.head _) .root) (.inr rfl) (.int 3) 3 rfl rfl
  · exact (hpowers fun _ => true).trans hvalue

end TaskShell.Calc

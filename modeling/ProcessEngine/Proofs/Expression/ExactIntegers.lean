import Mathlib.Tactic.SplitIfs
import ProcessEngine.Expression.Evaluation

/-!
# Exact integers

Arithmetic over integers of 64 signed bits.  `Computes` says which integer an expression stands for
as long as every intermediate result fits: it is said with the operations on all integers, and knows
nothing of how an expression is evaluated.  Evaluation gives an integer only where the expression
computes it (`integers_exact`), and it gives it always but for one case: the remainder of the
lowest integer by minus one is zero, but its quotient does not fit, and so it comes out as a double.
A divisor that is zero is an error wherever it is met.
-/

namespace ProcessEngine

/-- The five operators of arithmetic. -/
def BinaryOp.isArithmetic : BinaryOp → Bool
  | .add | .sub | .mul | .div | .mod => true
  | _ => false

/-- A literal or a path. -/
def Expr.isLeaf : Expr → Bool
  | .literal _ | .path _ => true
  | _ => false

/-- An integer as the value of an expression. -/
abbrev Value.ofInt (i : Int) : Value := .number (.int i)

namespace Expression

variable {vars : Variables} {e arg left right part : Expr} {op : BinaryOp} {x y z i : Int}
  {a b n : Number} {v : Option Value}

/-! ## What an expression computes -/

/-- The lowest integer of 64 signed bits. -/
def lowest : Int := -9223372036854775808

/-- A tree of arithmetic operators whose leaves have integers of 64 bits as their values. -/
inductive IntegerTree (vars : Variables) : Expr → Prop
  | leaf {e : Expr} {i : Int} (hleaf : e.isLeaf = true)
      (h : evaluate vars e = .ok (some (.ofInt i))) (hfits : fitsInt64 i = true) : IntegerTree vars e
  | neg {arg : Expr} (h : IntegerTree vars arg) : IntegerTree vars (.unary .neg arg)
  | binary {op : BinaryOp} {left right : Expr} (hop : op.isArithmetic = true)
      (hleft : IntegerTree vars left) (hright : IntegerTree vars right) :
      IntegerTree vars (.binary op left right)

/-- The result of an operator among all integers.  A quotient is one without remainder; a remainder
has the sign of the dividend. -/
def IsResult : BinaryOp → Int → Int → Int → Prop
  | .add, x, y, z => z = x + y
  | .sub, x, y, z => z = x - y
  | .mul, x, y, z => z = x * y
  | .div, x, y, z => y ≠ 0 ∧ x = z * y
  | .mod, x, y, z => y ≠ 0 ∧ z = x.tmod y
  | _, _, _, _ => False

/-- The integer that a tree stands for, if no divisor in it is zero, no quotient leaves a remainder
and all results fit in 64 bits. -/
inductive Computes (vars : Variables) : Expr → Int → Prop
  | leaf {e : Expr} {i : Int} (hleaf : e.isLeaf = true)
      (h : evaluate vars e = .ok (some (.ofInt i))) (hfits : fitsInt64 i = true) : Computes vars e i
  | neg {arg : Expr} {x : Int} (h : Computes vars arg x) (hfits : fitsInt64 (-x) = true) :
      Computes vars (.unary .neg arg) (-x)
  | binary {op : BinaryOp} {left right : Expr} {x y z : Int} (hleft : Computes vars left x)
      (hright : Computes vars right y) (hresult : IsResult op x y z)
      (hfits : fitsInt64 z = true) : Computes vars (.binary op left right) z

/-- What is evaluated of a tree in the course of its evaluation: a right operand only behind a left
one that has a value. -/
inductive Evaluated (vars : Variables) : Expr → Expr → Prop
  | whole (e : Expr) : Evaluated vars e e
  | arg {op : UnaryOp} {arg part : Expr} (h : Evaluated vars arg part) :
      Evaluated vars (.unary op arg) part
  | left {op : BinaryOp} {left right part : Expr} (h : Evaluated vars left part) :
      Evaluated vars (.binary op left right) part
  | right {op : BinaryOp} {left right part : Expr} {v : Option Value}
      (hop : op.isArithmetic = true) (hleft : evaluate vars left = .ok v)
      (h : Evaluated vars right part) : Evaluated vars (.binary op left right) part

/-- The remainder of the lowest integer by minus one is taken somewhere in a tree. -/
def ReducesLowest (vars : Variables) (e : Expr) : Prop :=
  ∃ left right, Evaluated vars e (.binary .mod left right) ∧ Computes vars left lowest ∧
    Computes vars right (-1)

/-- An operator that divides is met in a tree, and its right operand is the integer zero. -/
def DividesByZero (vars : Variables) (e : Expr) : Prop :=
  ∃ op left right v, Evaluated vars e (.binary op left right) ∧ divides op = true ∧
    evaluate vars left = .ok v ∧ evaluate vars right = .ok (some (.ofInt 0))

/-! ## Single operators -/

lemma fitsInt64_iff : fitsInt64 i = true ↔ lowest ≤ i ∧ i < 9223372036854775808 := by
  simp [fitsInt64, lowest]

lemma checked_eq_some : checked i = some z ↔ fitsInt64 i = true ∧ i = z := by
  rw [checked]
  split_ifs with h <;> simp [h]

/-- The quotient of integers of 64 bits fits, but for that of the lowest one by minus one. -/
lemma fitsInt64_tdiv (hx : fitsInt64 x = true) (hy : y ≠ 0) :
    fitsInt64 (x.tdiv y) = true ↔ ¬(x = lowest ∧ y = -1) := by
  rw [fitsInt64_iff] at hx ⊢
  obtain ⟨hlow, hhigh⟩ := hx
  rw [lowest] at *
  constructor
  · rintro ⟨-, hquotient⟩ ⟨rfl, rfl⟩
    exact absurd hquotient (by decide)
  · intro hother
    have habs : (x.tdiv y).natAbs = x.natAbs / y.natAbs := Int.natAbs_tdiv x y
    have hle : x.natAbs / y.natAbs ≤ x.natAbs := Nat.div_le_self _ _
    by_cases hlowest : x = -9223372036854775808
    · by_cases hone : y = 1
      · subst hone
        rw [Int.tdiv_one]
        exact ⟨hlow, hhigh⟩
      · have htwo : 2 ≤ y.natAbs := by omega
        have hhalf : x.natAbs / y.natAbs ≤ x.natAbs / 2 := Nat.div_le_div_left htwo (by decide)
        omega
    · omega

lemma fitsInt64_tmod (hx : fitsInt64 x = true) : fitsInt64 (x.tmod y) = true := by
  rw [fitsInt64_iff] at hx ⊢
  rw [lowest] at *
  have habs : (x.tmod y).natAbs = x.natAbs % y.natAbs := Int.natAbs_tmod x y
  have hle : x.natAbs % y.natAbs ≤ x.natAbs := Nat.mod_le _ _
  rcases Int.le_total 0 x with hsign | hsign
  · have := Int.tmod_nonneg y hsign
    omega
  · have := Int.tmod_nonneg y (Int.neg_nonneg_of_nonpos hsign)
    rw [Int.neg_tmod] at this
    omega

/-- Doubles do not become integers. -/
lemma floatArithmetic_ne (op : BinaryOp) (s t : Float) :
    floatArithmetic op s t ≠ .ok (.ofInt i) := by
  have hresult (u : Float) : floatResult u ≠ .ok (.ofInt i) := by
    rw [floatResult]
    split_ifs <;> simp
  unfold floatArithmetic
  split
  case h_4 | h_5 =>
    split_ifs
    · simp
    · exact hresult _
  all_goals exact hresult _

lemma toInt?_int (hfits : fitsInt64 x = true) : (Number.int x).toInt? = some x := if_pos hfits

/-- What becomes an integer comes of integers. -/
lemma toInt?_of_arithmetic (h : arithmetic op a b = .ok (.ofInt z)) :
    ∃ x y, a.toInt? = some x ∧ b.toInt? = some y := by
  rw [arithmetic] at h
  split at h
  · next x y hx hy => exact ⟨x, y, hx, hy⟩
  · exact absurd h (floatArithmetic_ne _ _ _)

/-- For a divisor other than zero the exact result is the result among all integers, if it fits; of
remainders, that of the lowest integer by minus one is left out. -/
lemma exactResult_eq_some (hop : op.isArithmetic = true) (hx : fitsInt64 x = true)
    (hy : divides op = true → y ≠ 0) :
    exactResult op x y = some z ↔ IsResult op x y z ∧ fitsInt64 z = true ∧
      ¬(op = .mod ∧ x = lowest ∧ y = -1) := by
  cases op <;> try cases hop
  case add | sub | mul =>
    rw [exactResult, checked_eq_some, IsResult]
    constructor
    · rintro ⟨hfits, rfl⟩
      exact ⟨rfl, hfits, by simp⟩
    · rintro ⟨rfl, hfits, -⟩
      exact ⟨hfits, rfl⟩
  case div =>
    have hzero : y ≠ 0 := hy rfl
    rw [exactResult, IsResult]
    constructor
    · intro h
      split_ifs at h with hrest
      obtain ⟨hfits, rfl⟩ := checked_eq_some.1 h
      exact ⟨⟨hzero, (Int.tdiv_mul_cancel_of_tmod_eq_zero hrest).symm⟩, hfits, by simp⟩
    · rintro ⟨⟨-, rfl⟩, hfits, -⟩
      rw [if_pos (Int.mul_tmod_left z y), Int.mul_tdiv_cancel z hzero, checked_eq_some]
      exact ⟨hfits, rfl⟩
  case mod =>
    have hzero : y ≠ 0 := hy rfl
    have hquotient := fitsInt64_tdiv hx hzero
    rw [exactResult, IsResult, Option.map_eq_some_iff]
    simp only [checked_eq_some, true_and]
    constructor
    · rintro ⟨q, ⟨hfits, -⟩, rfl⟩
      exact ⟨⟨hzero, rfl⟩, fitsInt64_tmod hx, hquotient.1 hfits⟩
    · rintro ⟨⟨-, rfl⟩, -, hother⟩
      exact ⟨_, ⟨hquotient.2 hother, rfl⟩, rfl⟩

lemma toInt?_eq_some : n.toInt? = some x ↔ n = .int x ∧ fitsInt64 x = true := by
  cases n with
  | int y =>
    rw [Number.toInt?]
    split_ifs with hfits <;> simp <;> grind
  | float => simp [Number.toInt?]

lemma ne_zero_of_isResult (h : IsResult op x y z) (hdivides : divides op = true) : y ≠ 0 := by
  cases op
  case div | mod => exact h.1
  all_goals cases hdivides

/-- Arithmetic on integers of 64 bits. -/
lemma arithmetic_eq_ofInt (hop : op.isArithmetic = true) (hx : fitsInt64 x = true)
    (hy : fitsInt64 y = true) :
    arithmetic op (.int x) (.int y) = .ok (.ofInt z) ↔ IsResult op x y z ∧ fitsInt64 z = true ∧
      ¬(op = .mod ∧ x = lowest ∧ y = -1) := by
  rw [arithmetic, toInt?_int hx, toInt?_int hy]
  simp only
  split_ifs with hzero
  · rw [Bool.and_eq_true, beq_iff_eq] at hzero
    refine ⟨nofun, fun h => ?_⟩
    exact absurd hzero.2 (ne_zero_of_isResult h.1 hzero.1)
  · have hdivisor : divides op = true → y ≠ 0 := by
      rintro hdivides rfl
      exact hzero (by simp [hdivides])
    rw [← exactResult_eq_some hop hx hdivisor]
    cases exactResult op x y with
    | none => simp [floatArithmetic_ne]
    | some z' => simp

/-- Nothing is divided by the integer zero. -/
lemma arithmetic_zero (hop : divides op = true) (a : Number) :
    arithmetic op a (.int 0) = .error .divisionByZero := by
  rw [arithmetic]
  split
  · next hy =>
    obtain rfl : (0 : Int) = _ := Option.some.inj hy
    simp [hop]
  · have hzero : ((Number.int 0).toFloat == 0.0) = true := by decide
    cases op
    case div | mod => simp only [floatArithmetic, hzero, if_true]
    all_goals cases hop

/-- The opposite of an integer. -/
lemma negate_eq_ofInt : negate n = .ok (.ofInt z) ↔
    ∃ x, n.toInt? = some x ∧ fitsInt64 (-x) = true ∧ z = -x := by
  have hfloat (u : Float) : floatResult u ≠ .ok (.ofInt z) := by
    rw [floatResult]
    split_ifs <;> simp
  rw [negate]
  cases hn : n.toInt? with
  | none => simp [hfloat]
  | some x =>
    simp only [Option.bind_some, Option.some.injEq, exists_eq_left']
    rw [checked]
    split_ifs with hfits
    · simp [hfits, eq_comm]
    · simp [hfits, hfloat]

/-! ## Evaluation -/

lemma evaluate_neg (vars : Variables) (arg : Expr) : evaluate vars (.unary .neg arg) =
    (evaluate vars arg).bind fun v => ((numberOperand "-" v).bind negate).bind fun r =>
      .ok (some r) := rfl

/-- An operator of arithmetic has both its operands evaluated, the left one first. -/
lemma evaluate_arithmetic (vars : Variables) (hop : op.isArithmetic = true) (left right : Expr) :
    evaluate vars (.binary op left right) = (evaluate vars left).bind fun l =>
      (evaluate vars right).bind fun r => (applyBinary op l r).bind fun v => .ok (some v) := by
  cases op
  case add | sub | mul | div | mod => rfl
  all_goals cases hop

lemma applyBinary_numbers (hop : op.isArithmetic = true) (a b : Number) :
    applyBinary op (some (.number a)) (some (.number b)) = arithmetic op a b := by
  cases op
  case add | sub | mul | div | mod => rfl
  all_goals cases hop

lemma evaluate_numbers (hop : op.isArithmetic = true)
    (hleft : evaluate vars left = .ok (some (.number a)))
    (hright : evaluate vars right = .ok (some (.number b))) {r : Value}
    (hresult : arithmetic op a b = .ok r) : evaluate vars (.binary op left right) = .ok (some r) := by
  rw [evaluate_arithmetic vars hop, hleft, hright]
  simp only [Except.bind, applyBinary_numbers hop, hresult]

/-! ## Results are numbers -/

lemma number_of_floatResult {u : Float} {r : Value} (h : floatResult u = .ok r) :
    ∃ n, r = .number n := by
  rw [floatResult] at h
  split_ifs at h
  cases h
  exact ⟨_, rfl⟩

lemma number_of_floatArithmetic {s t : Float} {r : Value} (h : floatArithmetic op s t = .ok r) :
    ∃ n, r = .number n := by
  unfold floatArithmetic at h
  split at h
  case h_4 | h_5 =>
    split_ifs at h
    exact number_of_floatResult h
  all_goals exact number_of_floatResult h

lemma number_of_arithmetic {r : Value} (h : arithmetic op a b = .ok r) : ∃ n, r = .number n := by
  rw [arithmetic] at h
  split at h
  · split_ifs at h
    split at h
    · cases h
      exact ⟨_, rfl⟩
    · exact number_of_floatArithmetic h
  · exact number_of_floatArithmetic h

lemma number_of_negate {r : Value} (h : negate n = .ok r) : ∃ n, r = .number n := by
  rw [negate] at h
  split at h
  · cases h
    exact ⟨_, rfl⟩
  · exact number_of_floatResult h

/-! ## Trees -/

lemma bind_eq_ok {ε α β : Type} {m : Except ε α} {f : α → Except ε β} {s : β} :
    m.bind f = .ok s ↔ ∃ r, m = .ok r ∧ f r = .ok s := by
  cases m <;> simp [Except.bind]

/-- The value of a tree is a number. -/
lemma IntegerTree.exists_number (h : IntegerTree vars e) (hv : evaluate vars e = .ok v) :
    ∃ n, v = some (.number n) := by
  induction h generalizing v with
  | leaf hleaf h hfits =>
    rw [h] at hv
    cases hv
    exact ⟨_, rfl⟩
  | neg h ih =>
    rw [evaluate_neg] at hv
    obtain ⟨_, harg, hv⟩ := bind_eq_ok.1 hv
    obtain ⟨n, rfl⟩ := ih harg
    obtain ⟨r, hr, hv⟩ := bind_eq_ok.1 hv
    cases hv
    obtain ⟨m, rfl⟩ := number_of_negate hr
    exact ⟨m, rfl⟩
  | binary hop hleft hright ihleft ihright =>
    rw [evaluate_arithmetic vars hop] at hv
    obtain ⟨_, hl, hv⟩ := bind_eq_ok.1 hv
    obtain ⟨_, hr, hv⟩ := bind_eq_ok.1 hv
    obtain ⟨a, rfl⟩ := ihleft hl
    obtain ⟨b, rfl⟩ := ihright hr
    rw [applyBinary_numbers hop] at hv
    obtain ⟨r, hresult, hv⟩ := bind_eq_ok.1 hv
    cases hv
    obtain ⟨m, rfl⟩ := number_of_arithmetic hresult
    exact ⟨m, rfl⟩

/-- A negation gives an integer just if its operand does and the opposite fits. -/
lemma IntegerTree.evaluate_neg_eq (h : IntegerTree vars arg) :
    evaluate vars (.unary .neg arg) = .ok (some (.ofInt z)) ↔
      ∃ x, evaluate vars arg = .ok (some (.ofInt x)) ∧ fitsInt64 x = true ∧
        fitsInt64 (-x) = true ∧ z = -x := by
  rw [evaluate_neg]
  constructor
  · intro hv
    obtain ⟨_, harg, hv⟩ := bind_eq_ok.1 hv
    obtain ⟨n, rfl⟩ := h.exists_number harg
    obtain ⟨r, hr, hv⟩ := bind_eq_ok.1 hv
    cases hv
    obtain ⟨x, hx, hfits, rfl⟩ := negate_eq_ofInt.1 hr
    obtain ⟨rfl, hfits'⟩ := toInt?_eq_some.1 hx
    exact ⟨x, harg, hfits', hfits, rfl⟩
  · rintro ⟨x, harg, hfits', hfits, rfl⟩
    have hnegate : negate (.int x) = .ok (.ofInt (-x)) :=
      negate_eq_ofInt.2 ⟨x, toInt?_int hfits', hfits, rfl⟩
    rw [harg]
    simp only [Except.bind, numberOperand, hnegate]

/-- An operator gives an integer just if both operands do and the result is exact and fits; the
remainder of the lowest integer by minus one is left out. -/
lemma IntegerTree.evaluate_binary_eq (hop : op.isArithmetic = true) (hleft : IntegerTree vars left)
    (hright : IntegerTree vars right) :
    evaluate vars (.binary op left right) = .ok (some (.ofInt z)) ↔
      ∃ x y, evaluate vars left = .ok (some (.ofInt x)) ∧
        evaluate vars right = .ok (some (.ofInt y)) ∧ fitsInt64 x = true ∧ fitsInt64 y = true ∧
        IsResult op x y z ∧ fitsInt64 z = true ∧ ¬(op = .mod ∧ x = lowest ∧ y = -1) := by
  constructor
  · intro hv
    rw [evaluate_arithmetic vars hop] at hv
    obtain ⟨_, hl, hv⟩ := bind_eq_ok.1 hv
    obtain ⟨_, hr, hv⟩ := bind_eq_ok.1 hv
    obtain ⟨a, rfl⟩ := hleft.exists_number hl
    obtain ⟨b, rfl⟩ := hright.exists_number hr
    rw [applyBinary_numbers hop] at hv
    obtain ⟨r, hresult, hv⟩ := bind_eq_ok.1 hv
    cases hv
    obtain ⟨x, y, hx, hy⟩ := toInt?_of_arithmetic hresult
    obtain ⟨rfl, hfitsx⟩ := toInt?_eq_some.1 hx
    obtain ⟨rfl, hfitsy⟩ := toInt?_eq_some.1 hy
    exact ⟨x, y, hl, hr, hfitsx, hfitsy, (arithmetic_eq_ofInt hop hfitsx hfitsy).1 hresult⟩
  · rintro ⟨x, y, hl, hr, hfitsx, hfitsy, hexact⟩
    exact evaluate_numbers hop hl hr ((arithmetic_eq_ofInt hop hfitsx hfitsy).2 hexact)

/-! ## Parts of trees -/

lemma IntegerTree.of_neg {op : UnaryOp} (h : IntegerTree vars (.unary op arg)) :
    IntegerTree vars arg := by
  cases h with
  | leaf hleaf => cases hleaf
  | neg h => exact h

lemma IntegerTree.operands (h : IntegerTree vars (.binary op left right)) :
    op.isArithmetic = true ∧ IntegerTree vars left ∧ IntegerTree vars right := by
  cases h with
  | leaf hleaf => cases hleaf
  | binary hop hleft hright => exact ⟨hop, hleft, hright⟩

/-- Where a divisor is zero the evaluation of the whole fails, by induction on how the division is
reached. -/
lemma IntegerTree.evaluate_divided (h : IntegerTree vars e) (hpart : Evaluated vars e part)
    (herror : evaluate vars part = .error .divisionByZero) :
    evaluate vars e = .error .divisionByZero := by
  induction hpart with
  | whole => exact herror
  | @arg op arg part _ ih =>
    cases h with
    | leaf hleaf => cases hleaf
    | neg h => rw [evaluate_neg, ih h herror]; rfl
  | left _ ih =>
    obtain ⟨hop, hleft, -⟩ := h.operands
    rw [evaluate_arithmetic vars hop, ih hleft herror]
    rfl
  | right hop hl _ ih =>
    obtain ⟨-, -, hright⟩ := h.operands
    rw [evaluate_arithmetic vars hop, hl, ih hright herror]
    rfl

lemma IntegerTree.of_evaluated (h : IntegerTree vars e) (hpart : Evaluated vars e part) :
    IntegerTree vars part := by
  induction hpart with
  | whole => exact h
  | arg _ ih => exact ih h.of_neg
  | left _ ih => exact ih h.operands.2.1
  | right _ _ _ ih => exact ih h.operands.2.2

lemma IntegerTree.evaluate_zero (h : IntegerTree vars e) (hzero : DividesByZero vars e) :
    evaluate vars e = .error .divisionByZero := by
  obtain ⟨op, left, right, v, hpart, hdivides, hl, hr⟩ := hzero
  obtain ⟨hop, hleft, -⟩ := (h.of_evaluated hpart).operands
  obtain ⟨a, rfl⟩ := hleft.exists_number hl
  refine h.evaluate_divided hpart ?_
  rw [evaluate_arithmetic vars hop, hl, hr]
  simp only [Except.bind, applyBinary_numbers hop, arithmetic_zero hdivides]

lemma Computes.fits (h : Computes vars e i) : fitsInt64 i = true := by
  cases h with
  | leaf _ _ hfits | neg _ hfits | binary _ _ _ hfits => exact hfits

lemma Computes.of_leaf (hleaf : e.isLeaf = true) (h : Computes vars e i) :
    evaluate vars e = .ok (some (.ofInt i)) := by
  cases h with
  | leaf _ h => exact h
  | neg | binary => cases hleaf

lemma not_reducesLowest_of_leaf (hleaf : e.isLeaf = true) : ¬ReducesLowest vars e := by
  rintro ⟨left, right, hpart, -⟩
  cases hpart <;> cases hleaf

lemma reducesLowest_neg : ReducesLowest vars (.unary .neg arg) ↔ ReducesLowest vars arg := by
  constructor
  · rintro ⟨left, right, hpart, hlowest⟩
    cases hpart with
    | arg h => exact ⟨left, right, h, hlowest⟩
  · rintro ⟨left, right, hpart, hlowest⟩
    exact ⟨left, right, .arg hpart, hlowest⟩

/-- Evaluation gives just the integers that are computed, but for trees that take the remainder of
the lowest integer by minus one. -/
lemma IntegerTree.integer_iff (h : IntegerTree vars e) :
    evaluate vars e = .ok (some (.ofInt i)) ↔ Computes vars e i ∧ ¬ReducesLowest vars e := by
  induction h generalizing i with
  | leaf hleaf h hfits =>
    constructor
    · intro hi
      obtain rfl : _ = i := by simpa [h] using hi
      exact ⟨.leaf hleaf h hfits, not_reducesLowest_of_leaf hleaf⟩
    · rintro ⟨hcomputes, -⟩
      exact hcomputes.of_leaf hleaf
  | neg h ih =>
    rw [h.evaluate_neg_eq, reducesLowest_neg]
    constructor
    · rintro ⟨x, harg, -, hfits, rfl⟩
      obtain ⟨hcomputes, hlowest⟩ := ih.1 harg
      exact ⟨.neg hcomputes hfits, hlowest⟩
    · rintro ⟨hcomputes, hlowest⟩
      cases hcomputes with
      | leaf hleaf => cases hleaf
      | @neg _ x hx hfits =>
        exact ⟨x, ih.2 ⟨hx, hlowest⟩, hx.fits, hfits, rfl⟩
  | binary hop hleft hright ihleft ihright =>
    rw [hleft.evaluate_binary_eq hop hright]
    constructor
    · rintro ⟨x, y, hl, hr, -, -, hresult, hfits, hother⟩
      obtain ⟨hx, hlowestl⟩ := ihleft.1 hl
      obtain ⟨hy, hlowestr⟩ := ihright.1 hr
      refine ⟨.binary hx hy hresult hfits, ?_⟩
      rintro ⟨_, _, hpart, hlow, hone⟩
      cases hpart with
      | whole =>
        -- The operands evaluate to what they compute, so these are the forbidden ones.
        have hxlow : x = lowest := by simpa [hl] using ihleft.2 ⟨hlow, hlowestl⟩
        have hyone : y = -1 := by simpa [hr] using ihright.2 ⟨hone, hlowestr⟩
        exact hother ⟨rfl, hxlow, hyone⟩
      | left h => exact hlowestl ⟨_, _, h, hlow, hone⟩
      | right _ _ h => exact hlowestr ⟨_, _, h, hlow, hone⟩
    · rintro ⟨hcomputes, hlowest⟩
      cases hcomputes with
      | leaf hleaf => cases hleaf
      | @binary _ _ _ x y _ hx hy hresult hfits =>
        have hl := ihleft.2 ⟨hx, fun ⟨l, r, h, hlow⟩ => hlowest ⟨l, r, .left h, hlow⟩⟩
        have hr := ihright.2 ⟨hy, fun ⟨l, r, h, hlow⟩ => hlowest ⟨l, r, .right hop hl h, hlow⟩⟩
        refine ⟨x, y, hl, hr, hx.fits, hy.fits, hresult, hfits, ?_⟩
        rintro ⟨rfl, rfl, rfl⟩
        exact hlowest ⟨_, _, .whole _, hx, hy⟩

/-- Integer arithmetic is exact: an integer comes out of a tree just if it is what the tree computes
with all intermediate results in 64 bits, and the tree does not take the remainder of the lowest
integer by minus one.  A divisor that is zero is an error. -/
theorem integers_exact (h : IntegerTree vars e) :
    (∀ i, evaluate vars e = .ok (some (.ofInt i)) ↔
      Computes vars e i ∧ ¬ReducesLowest vars e) ∧
    (DividesByZero vars e → evaluate vars e = .error .divisionByZero) :=
  ⟨fun _ => h.integer_iff, h.evaluate_zero⟩

/-! ### The lowest integer -/

/-- The variable `m` holds the lowest integer. -/
def atLowest : Variables := [("m", .ofInt lowest)]

/-- The opposite of one. -/
def minusOne : Expr := .unary .neg (.literal (.ofInt 1))

/-- The lowest integer, divided by two and by minus one, less one. -/
def halved : Expr :=
  .binary .sub (.binary .div (.binary .div (.path ["m"]) (.literal (.ofInt 2))) minusOne)
    (.literal (.ofInt 1))

/-- The square of the lowest integer, divided by nothing. -/
def overdrawn : Expr :=
  .binary .div (.binary .mul (.path ["m"]) (.path ["m"]))
    (.binary .sub (.path ["m"]) (.path ["m"]))

lemma computes_m : Computes atLowest (.path ["m"]) lowest := .leaf rfl rfl (by decide)

lemma computes_literal (hfits : fitsInt64 i = true) : Computes vars (.literal (.ofInt i)) i :=
  .leaf rfl rfl hfits

lemma computes_minusOne : Computes vars minusOne (-1) :=
  .neg (computes_literal (by decide)) (by decide)

lemma Computes.integerTree (h : Computes vars e i) : IntegerTree vars e := by
  induction h with
  | leaf hleaf h hfits => exact .leaf hleaf h hfits
  | neg _ _ ih => exact .neg ih
  | @binary op _ _ _ _ _ _ _ hresult _ ihleft ihright =>
    refine .binary ?_ ihleft ihright
    cases op
    case add | sub | mul | div | mod => rfl
    all_goals cases hresult

/-- A product that does not fit is a double. -/
lemma evaluate_square :
    ∃ v, evaluate atLowest (.binary .mul (.path ["m"]) (.path ["m"])) = .ok v := by
  have hint : (Number.int lowest).toInt? = some lowest := by decide
  have hnone : exactResult .mul lowest lowest = none := by decide
  have hfinite : Binary64.isFinite
      ((Number.int lowest).toFloat * (Number.int lowest).toFloat) = true := by decide +kernel
  have hdouble : arithmetic .mul (.int lowest) (.int lowest) =
      .ok (.number (.float ((Number.int lowest).toFloat * (Number.int lowest).toFloat))) := by
    rw [arithmetic, hint]
    simp [divides, hnone, floatArithmetic, floatResult, hfinite]
  exact ⟨_, evaluate_numbers rfl (computes_m.of_leaf rfl) (computes_m.of_leaf rfl) hdouble⟩

/-- Up to the bounds of 64 bits integers come out exactly, and a divisor of zero is an error behind a
product that does not fit. -/
theorem integers_exact_halved :
    IntegerTree atLowest halved ∧
    evaluate atLowest halved = .ok (some (.ofInt 4611686018427387903)) ∧
    Computes atLowest halved 4611686018427387903 ∧ ¬ReducesLowest atLowest halved ∧
    IntegerTree atLowest overdrawn ∧ DividesByZero atLowest overdrawn ∧
    evaluate atLowest overdrawn = .error .divisionByZero := by
  have hm : IntegerTree atLowest (.path ["m"]) := computes_m.integerTree
  have hone : IntegerTree atLowest minusOne := computes_minusOne.integerTree
  have hliteral {i : Int} (hfits : fitsInt64 i = true) : IntegerTree atLowest (.literal (.ofInt i)) :=
    (computes_literal hfits).integerTree
  have htree : IntegerTree atLowest halved :=
    .binary rfl (.binary rfl (.binary rfl hm (hliteral (by decide))) hone) (hliteral (by decide))
  have hvalue : evaluate atLowest halved = .ok (some (.ofInt 4611686018427387903)) := by cbv
  have hover : IntegerTree atLowest overdrawn := .binary rfl (.binary rfl hm hm) (.binary rfl hm hm)
  have hzero : DividesByZero atLowest overdrawn := by
    obtain ⟨v, hsquare⟩ := evaluate_square
    exact ⟨_, _, _, v, .whole _, rfl, hsquare, by cbv⟩
  obtain ⟨hcomputes, hother⟩ := ((integers_exact htree).1 _).1 hvalue
  exact ⟨htree, hvalue, hcomputes, hother, hover, hzero, (integers_exact hover).2 hzero⟩

/-- The remainder of the lowest integer by minus one is zero, but it comes out as a double. -/
theorem lowest_remainder_lost :
    Computes atLowest (.binary .mod (.path ["m"]) minusOne) 0 ∧
    evaluate atLowest (.binary .mod (.path ["m"]) minusOne) =
      .ok (some (.number (.float (-0.0)))) := by
  refine ⟨.binary computes_m computes_minusOne ⟨by decide, by decide⟩ (by decide), ?_⟩
  have hlow : (Number.int lowest).toInt? = some lowest := by decide
  have hone : (Number.int (-1)).toInt? = some (-1) := by decide
  have hnone : exactResult .mod lowest (-1) = none := by decide
  have hdivisor : ((Number.int (-1)).toFloat == 0.0) = false := by decide +kernel
  have hremainder : Binary64.remainder (Number.int lowest).toFloat (Number.int (-1)).toFloat =
      -0.0 := by decide +kernel
  have hfinite : Binary64.isFinite (-0.0) = true := by decide +kernel
  have hdouble : arithmetic .mod (.int lowest) (.int (-1)) = .ok (.number (.float (-0.0))) := by
    rw [arithmetic, hlow, hone]
    simp [hnone, floatArithmetic, hdivisor, hremainder, floatResult, hfinite]
  exact evaluate_numbers rfl (computes_m.of_leaf rfl) (by cbv) hdouble

end Expression

end ProcessEngine

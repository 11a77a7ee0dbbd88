import Mathlib
import ProcessEngine.Binary64.Parts

/-!
# The number that a double stands for

`value` is the rational number of a finite double, read off its parts.  The parts are those of the
logical model of doubles (`parts?_eq_unpackedParts`), so what the model says of an operation can be
said of values: finite doubles are ordered as their values are (`le_iff_value_le`), the value after
one is `1 + 2 ^ -52` (`next_after_one`), and a double becomes an integer of 64 bits by truncation
(`toUInt64_toNat`).
-/

namespace ProcessEngine.Binary64

open Float.Model Float.Model.UnpackedFloat

variable {x y : Float} {p q : Parts}

/-- The distance from zero of the number that parts stand for. -/
def Parts.magnitude (p : Parts) : ℚ := p.significand * 2 ^ p.exponent

/-- The number that parts stand for. -/
def Parts.value (p : Parts) : ℚ := if p.negative then -p.magnitude else p.magnitude

/-- The number that a finite double stands for; the doubles that are not finite count as zero. -/
def value (x : Float) : ℚ := (parts? x).elim 0 Parts.value

/-! ## Bits and parts -/

/-- The parts of an unpacked double.  A zero has the least exponent. -/
def unpackedParts : UnpackedFloat → Option Parts
  | .finite s m e _ => some ⟨s == .negative, m, e⟩
  | .zero s => some ⟨s == .negative, 0, -1074⟩
  | _ => none

lemma toNat_unpackMantissa (b : BitVec 64) :
    (@unpackMantissa .binary64 b).toNat = b.toNat % 2 ^ 52 := by
  simp [unpackMantissa]

lemma toNat_unpackExponent (b : BitVec 64) :
    (@unpackExponent .binary64 b).toNat = b.toNat / 2 ^ 52 % 2 ^ 11 := by
  simp [unpackExponent, Nat.shiftRight_eq_div_pow]

lemma toNat_unpackSign (b : BitVec 64) :
    (@unpackSign .binary64 b).toNat = b.toNat / 2 ^ 63 := by
  have hb : b.toNat < 2 ^ 64 := b.isLt
  simp only [unpackSign, BitVec.cast_eq, BitVec.extractLsb_toNat, Nat.shiftRight_eq_div_pow]
  exact Nat.mod_eq_of_lt (show b.toNat / 2 ^ 63 < 2 by omega)

/-- The implicit leading bit in front of a fraction. -/
lemma toNat_one_append (v : BitVec 52) : (1#1 ++ v).toNat = v.toNat + 2 ^ 52 := by
  rw [BitVec.toNat_append, ← Nat.shiftLeft_add_eq_or_of_lt v.isLt, Nat.add_comm]
  rfl

lemma isNegative_unpackSign (b : BitVec 64) :
    (Sign.ofBitVec (@unpackSign .binary64 b) == .negative) = (b.toNat / 2 ^ 63 == 1) := by
  have hsign := toNat_unpackSign b
  have hb : b.toNat < 2 ^ 64 := b.isLt
  have hbit : b.toNat / 2 ^ 63 = 0 ∨ b.toNat / 2 ^ 63 = 1 := by omega
  rcases hbit with hbit | hbit
  · rw [hbit] at hsign ⊢
    rw [show @unpackSign .binary64 b = 0#1 from BitVec.eq_of_toNat_eq hsign]
    rfl
  · rw [hbit] at hsign ⊢
    rw [show @unpackSign .binary64 b = 1#1 from BitVec.eq_of_toNat_eq hsign]
    rfl

/-- A double is taken apart as its logical model unpacks it. -/
lemma parts?_eq_unpackedParts (x : Float) : parts? x = unpackedParts x.toModel.unpack := by
  have hbits : bits x = x.toModel.toBits.toBitVec.toNat := rfl
  rw [parts?, hbits, Float.Model.unpack, UnpackedFloat.unpack]
  generalize x.toModel.toBits.toBitVec = b
  have hm := toNat_unpackMantissa b
  have he := toNat_unpackExponent b
  have hones : @unpackExponent .binary64 b = -1#_ ↔ b.toNat / 2 ^ 52 % 2 ^ 11 = 2047 := by
    rw [← he, ← BitVec.toNat_inj]
    rfl
  have hzeros : @unpackExponent .binary64 b = 0#_ ↔ b.toNat / 2 ^ 52 % 2 ^ 11 = 0 := by
    rw [← he, ← BitVec.toNat_inj]
    rfl
  have hfraction : @unpackMantissa .binary64 b = 0#_ ↔ b.toNat % 2 ^ 52 = 0 := by
    rw [← hm, ← BitVec.toNat_inj]
    rfl
  simp only [hones, hzeros, hfraction, Nat.pow_eq]
  split_ifs with hspecial hinfinite hsubnormal hzero
  · rfl
  · rfl
  · simp only [unpackedParts, isNegative_unpackSign, hzero]
  · simp only [unpackedParts, isNegative_unpackSign, hm, he, hsubnormal]
    rfl
  · simp only [unpackedParts, isNegative_unpackSign, he, toNat_one_append, hm]
    rfl

/-- The form in which a double is taken apart: at most 53 digits, and all 53 of them unless the
exponent is the least one. -/
structure Parts.Canonical (p : Parts) : Prop where
  significand_lt : p.significand < 2 ^ 53
  least_le_exponent : -1074 ≤ p.exponent
  le_significand : -1074 < p.exponent → 2 ^ 52 ≤ p.significand

lemma canonical_of_parts? (h : parts? x = some p) : p.Canonical := by
  rw [parts?] at h
  simp only [Nat.pow_eq] at h
  split_ifs at h
  · cases h
    constructor <;> simp only <;> omega
  · cases h
    constructor <;> simp only <;> omega

lemma Parts.magnitude_nonneg (p : Parts) : 0 ≤ p.magnitude := by
  rw [magnitude]
  positivity

lemma Parts.magnitude_pos (h : 0 < p.significand) : 0 < p.magnitude := by
  rw [magnitude]
  positivity

lemma Parts.value_zero (h : p.significand = 0) : p.value = 0 := by
  simp [value, magnitude, h]

lemma Parts.value_pos (hsign : p.negative = false) (h : 0 < p.significand) : 0 < p.value := by
  rw [value, hsign, if_neg Bool.false_ne_true]
  exact magnitude_pos h

lemma Parts.value_neg (hsign : p.negative = true) (h : 0 < p.significand) : p.value < 0 := by
  rw [value, if_pos hsign]
  exact neg_neg_of_pos (magnitude_pos h)

lemma exists_parts (h : isFinite x = true) :
    ∃ p, unpackedParts x.toModel.unpack = some p ∧ p.Canonical ∧ value x = p.value := by
  obtain ⟨p, hp⟩ := Option.isSome_iff_exists.1 h
  refine ⟨p, parts?_eq_unpackedParts x ▸ hp, canonical_of_parts? hp, ?_⟩
  rw [value, hp, Option.elim_some]

/-! ## Order

Sign, exponent and significand are compared in this order, which compares the values only because
the parts are canonical. -/

lemma Parts.Canonical.magnitude_lt (hp : p.Canonical) (hq : q.Canonical)
    (h : p.exponent < q.exponent) : p.magnitude < q.magnitude := by
  have hsignificand : (p.significand : ℚ) < 2 ^ 53 := mod_cast hp.significand_lt
  have hleading : (2 : ℚ) ^ 52 ≤ q.significand :=
    mod_cast hq.le_significand (hp.least_le_exponent.trans_lt h)
  have hpower : (2 : ℚ) ^ (p.exponent + 1) ≤ 2 ^ q.exponent :=
    zpow_le_zpow_right₀ one_le_two (by omega)
  calc p.magnitude < 2 ^ 53 * 2 ^ p.exponent := by rw [magnitude]; gcongr
    _ = 2 ^ 52 * 2 ^ (p.exponent + 1) := by rw [zpow_add_one₀ two_ne_zero]; ring
    _ ≤ q.magnitude := by rw [magnitude]; gcongr

lemma Parts.Canonical.compare_magnitude (hp : p.Canonical) (hq : q.Canonical) :
    (compare p.exponent q.exponent).then (compare p.significand q.significand) =
      compare p.magnitude q.magnitude := by
  rcases lt_trichotomy p.exponent q.exponent with h | h | h
  · rw [compare_lt_iff_lt.2 h, compare_lt_iff_lt.2 (hp.magnitude_lt hq h), Ordering.lt_then]
  · rw [compare_eq_iff_eq.2 h, Ordering.eq_then, Parts.magnitude, Parts.magnitude, h]
    have hpower : (0 : ℚ) < 2 ^ q.exponent := by positivity
    rcases lt_trichotomy p.significand q.significand with hs | hs | hs
    · rw [compare_lt_iff_lt.2 hs, eq_comm, compare_lt_iff_lt]
      gcongr
    · rw [hs, compare_eq_iff_eq.2 rfl, compare_eq_iff_eq.2 rfl]
    · rw [compare_gt_iff_gt.2 hs, eq_comm, compare_gt_iff_gt]
      gcongr
  · rw [compare_gt_iff_gt.2 h, compare_gt_iff_gt.2 (hq.magnitude_lt hp h), Ordering.gt_then]

lemma compare_neg_neg (a b : ℚ) : compare (-a) (-b) = (compare a b).swap := by
  rcases lt_trichotomy a b with h | h | h
  · rw [compare_lt_iff_lt.2 h, compare_gt_iff_gt.2 (neg_lt_neg h), Ordering.swap_lt]
  · rw [h, compare_eq_iff_eq.2 rfl, compare_eq_iff_eq.2 rfl, Ordering.swap_eq]
  · rw [compare_gt_iff_gt.2 h, compare_lt_iff_lt.2 (neg_lt_neg h), Ordering.swap_gt]

/-- Doubles other than zero are compared by sign first; among negative ones the order is reversed. -/
lemma compare_finite {s t : Sign} {m n : Nat} {d e : Int} (hm : 0 < m) (hn : 0 < n)
    (hp : Parts.Canonical ⟨s == .negative, m, d⟩) (hq : Parts.Canonical ⟨t == .negative, n, e⟩) :
    (finite s m d hm).compare (finite t n e hn) =
      some (compare (Parts.value ⟨s == .negative, m, d⟩) (Parts.value ⟨t == .negative, n, e⟩)) := by
  have hmagnitude := hp.compare_magnitude hq
  cases s with
  | negative =>
    cases t with
    | negative =>
      simpa [UnpackedFloat.compare, Parts.value, compare_neg_neg] using
        congrArg Ordering.swap hmagnitude
    | positive =>
      rw [compare_lt_iff_lt.2 ((Parts.value_neg rfl hm).trans (Parts.value_pos rfl hn))]
      rfl
  | positive =>
    cases t with
    | negative =>
      rw [compare_gt_iff_gt.2 ((Parts.value_neg rfl hn).trans (Parts.value_pos rfl hm))]
      rfl
    | positive => simpa [UnpackedFloat.compare, Parts.value] using hmagnitude

lemma compare_eq_compare_value {a b : UnpackedFloat} (ha : unpackedParts a = some p)
    (hb : unpackedParts b = some q) (hp : p.Canonical) (hq : q.Canonical) :
    a.compare b = some (compare p.value q.value) := by
  cases a with
  | infinity | notANumber => cases ha
  | zero s =>
    cases ha
    cases b with
    | infinity | notANumber => cases hb
    | zero t =>
      cases hb
      rw [Parts.value_zero rfl, Parts.value_zero rfl, compare_eq_iff_eq.2 rfl]
      rfl
    | finite t n e hn =>
      cases hb
      rw [Parts.value_zero rfl]
      cases t with
      | negative => rw [compare_gt_iff_gt.2 (Parts.value_neg rfl hn)]; rfl
      | positive => rw [compare_lt_iff_lt.2 (Parts.value_pos rfl hn)]; rfl
  | finite s m d hm =>
    cases ha
    cases b with
    | infinity | notANumber => cases hb
    | zero t =>
      cases hb
      rw [Parts.value_zero (p := ⟨t == .negative, 0, -1074⟩) rfl]
      cases s with
      | negative => rw [compare_lt_iff_lt.2 (Parts.value_neg rfl hm)]; rfl
      | positive => rw [compare_gt_iff_gt.2 (Parts.value_pos rfl hm)]; rfl
    | finite t n e hn =>
      cases hb
      exact compare_finite hm hn hp hq

lemma compare_unpack (hx : isFinite x = true) (hy : isFinite y = true) :
    x.toModel.unpack.compare y.toModel.unpack = some (compare (value x) (value y)) := by
  obtain ⟨p, hp, hpcanonical, hpx⟩ := exists_parts hx
  obtain ⟨q, hq, hqcanonical, hqy⟩ := exists_parts hy
  rw [hpx, hqy]
  exact compare_eq_compare_value hp hq hpcanonical hqcanonical

/-- Finite doubles are ordered as the numbers they stand for. -/
lemma le_iff_value_le (hx : isFinite x = true) (hy : isFinite y = true) :
    x ≤ y ↔ value x ≤ value y := by
  have hle : x ≤ y ↔ x.toModel.unpack.le y.toModel.unpack = true := decide_eq_true_iff
  rw [hle, UnpackedFloat.le, compare_unpack hx hy, Option.any_some]
  exact Ordering.ne_gt_iff_isLE.symm.trans compare_le_iff_le

lemma lt_iff_value_lt (hx : isFinite x = true) (hy : isFinite y = true) :
    x < y ↔ value x < value y := by
  have hlt : x < y ↔ x.toModel.unpack.lt y.toModel.unpack = true := decide_eq_true_iff
  rw [hlt, UnpackedFloat.lt, compare_unpack hx hy, beq_iff_eq, Option.some_inj, compare_lt_iff_lt]

/-! ## Doubles from one on -/

lemma isFinite_one : isFinite 1.0 = true := by decide +kernel

lemma value_one : value 1.0 = 1 := by decide +kernel

/-- A significand of 53 digits is too small for one below this exponent. -/
lemma le_exponent_of_one_le {m : Nat} {e : Int} (hm : m < 2 ^ 53) (h : (1 : ℚ) ≤ m * 2 ^ e) :
    -52 ≤ e := by
  by_contra hexp
  have hsignificand : (m : ℚ) < 2 ^ 53 := mod_cast hm
  have hpower : (2 : ℚ) ^ e ≤ 2 ^ (-53 : Int) := zpow_le_zpow_right₀ one_le_two (by omega)
  have hsmall : (m : ℚ) * 2 ^ e < 2 ^ 53 * 2 ^ (-53 : Int) :=
    mul_lt_mul hsignificand hpower (by positivity) (by norm_num)
  norm_num at hsmall
  linarith

lemma Parts.Canonical.next_after_one (hp : p.Canonical) (h : 1 < p.magnitude) :
    1 + 1 / 2 ^ 52 ≤ p.magnitude := by
  have hexp := le_exponent_of_one_le hp.significand_lt h.le
  -- In steps of `2 ^ -52` the value is an integer above `2 ^ 52`.
  obtain ⟨k, hk⟩ := Int.eq_ofNat_of_zero_le (by omega : 0 ≤ p.exponent + 52)
  have hsteps : p.magnitude = (p.significand * 2 ^ k : Nat) / 2 ^ 52 := by
    rw [magnitude, show p.exponent = (k : Int) - 52 by omega, zpow_sub₀ two_ne_zero, zpow_natCast]
    push_cast
    rw [mul_div_assoc]
    norm_num
  rw [hsteps, lt_div_iff₀ (by norm_num), one_mul] at h
  rw [hsteps, le_div_iff₀ (by norm_num), add_mul, one_mul, div_mul_cancel₀ _ (by norm_num)]
  exact_mod_cast (show 2 ^ 52 < p.significand * 2 ^ k from mod_cast h)

/-- No double stands between one and the next double. -/
lemma next_after_one (h : 1 < value x) : 1 + 1 / 2 ^ 52 ≤ value x := by
  rw [value] at h ⊢
  cases hx : parts? x with
  | none =>
    rw [hx, Option.elim_none] at h
    exact absurd h (by norm_num)
  | some p =>
    rw [hx, Option.elim_some, Parts.value] at h
    rw [Option.elim_some, Parts.value]
    split_ifs at h ⊢
    · linarith [p.magnitude_nonneg]
    · exact (canonical_of_parts? hx).next_after_one h

/-! ## Truncation -/

lemma mantissa_shiftRight (em : ExtendedMantissa) (k : Nat) :
    (em >>> k).mantissa = em.mantissa / 2 ^ k := by
  change (Nat.repeat ExtendedMantissa.shiftRightOne k em).mantissa = _
  induction k with
  | zero => simp [Nat.repeat]
  | succ k ih =>
    rw [Nat.repeat, ExtendedMantissa.shiftRightOne, ih, Nat.div_div_eq_div_mul, Nat.pow_succ]

lemma toNat_roundToInt_positive (m : Nat) (e : Int) :
    (roundToInt .positive m e).toNat = ⌊(m : ℚ) * 2 ^ e⌋₊ := by
  have hround : (roundToInt .positive m e).toNat =
      m * 2 ^ e.toNat / 2 ^ (0 - (e - e.toNat)).toNat := by
    simp only [roundToInt, decreaseExponent, shiftToExponent, Sign.apply, Int.sub_zero,
      Int.toNat_natCast, mantissa_shiftRight, Nat.shiftLeft_eq]
    rfl
  rw [hround]
  rcases le_total 0 e with h | h
  · obtain ⟨k, rfl⟩ := Int.eq_ofNat_of_zero_le h
    have hinteger : (m : ℚ) * 2 ^ (k : Int) = (m * 2 ^ k : Nat) := by
      rw [zpow_natCast]
      push_cast
      rfl
    rw [hinteger, Nat.floor_natCast]
    simp
  · obtain ⟨k, hk⟩ := Int.eq_ofNat_of_zero_le (by omega : 0 ≤ -e)
    obtain rfl : e = -k := by omega
    have hquotient : (m : ℚ) * 2 ^ (-k : Int) = m / (2 ^ k : Nat) := by
      rw [zpow_neg, zpow_natCast, div_eq_mul_inv]
      push_cast
      rfl
    have hup : (-(k : Int)).toNat = 0 := by omega
    have hdown : (0 - (-(k : Int) - (-(k : Int)).toNat)).toNat = k := by omega
    rw [hquotient, Nat.floor_div_natCast, Nat.floor_natCast, hdown, hup, pow_zero, mul_one]

lemma toNat_roundToInt_negative (m : Nat) (e : Int) : (roundToInt .negative m e).toNat = 0 := by
  simp [roundToInt, Sign.apply]

lemma toNat_ofNatClamp (n : Nat) : (UInt64.ofNatClamp n).toNat = min n (UInt64.size - 1) := by
  rw [UInt64.ofNatClamp]
  split_ifs with h <;> rw [UInt64.toNat_ofNatLT] <;> omega

/-- A finite double is truncated; a negative one becomes zero, and one beyond 64 bits the greatest
integer of 64 bits. -/
lemma toUInt64_toNat (hfinite : isFinite x = true) :
    x.toUInt64.toNat = min ⌊value x⌋₊ (UInt64.size - 1) := by
  change (UInt64.ofNatClamp (x.toModel.unpack.toInt 0 (UInt64.size - 1)).toNat).toNat = _
  rw [toNat_ofNatClamp]
  congr 1
  obtain ⟨p, hp, -, hvalue⟩ := exists_parts hfinite
  rw [hvalue]
  cases hx : x.toModel.unpack with
  | infinity | notANumber => simp [hx, unpackedParts] at hp
  | zero s =>
    rw [hx] at hp
    cases hp
    simp [UnpackedFloat.toInt, Parts.value, Parts.magnitude]
  | finite s m e hm =>
    rw [hx] at hp
    cases hp
    rw [UnpackedFloat.toInt, Parts.value]
    cases s with
    | positive =>
      rw [toNat_roundToInt_positive, if_neg (by simp), Parts.magnitude]
    | negative =>
      rw [toNat_roundToInt_negative, if_pos (by simp), eq_comm, Nat.floor_eq_zero]
      linarith [Parts.magnitude_nonneg ⟨Sign.negative == Sign.negative, m, e⟩]

end ProcessEngine.Binary64

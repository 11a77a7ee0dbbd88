import Mathlib
import ProcessEngine.Binary64.Reading
import ProcessEngine.Proofs.Binary64.Value

/-!
# The double nearest to a natural number

A double keeps 53 binary digits.  `nearest n` is the natural number with at most 53 digits that is
nearest to `n`, ties to the even neighbour, and it is the value of the double that an integer of 64
bits becomes (`value_ofInt`).  Up to 53 digits nothing is lost (`nearest_of_lt`); beyond, an integer
may be rounded up, by one part in `2 ^ 53` at most (`nearest_le_add`).
-/

namespace ProcessEngine.Binary64

open Float.Model Float.Model.UnpackedFloat

variable {n k u : Nat}

/-- The quotient rounded to the nearest integer, a half to the even neighbour. -/
def roundedQuotient (n u : Nat) : Nat :=
  if 2 * (n % u) < u then n / u
  else if 2 * (n % u) = u then n / u + n / u % 2
  else n / u + 1

/-- The place value of the last of the 53 binary digits that a double keeps of a number. -/
def lastPlace (n : Nat) : Nat := 2 ^ (n.log2 - 52)

/-- The multiple of the last place that is nearest to a number. -/
def nearest (n : Nat) : Nat := roundedQuotient n (lastPlace n) * lastPlace n

/-! ## Rounding a quotient -/

lemma le_roundedQuotient (n u : Nat) : n / u ≤ roundedQuotient n u := by
  rw [roundedQuotient]
  split_ifs <;> omega

lemma roundedQuotient_le (n u : Nat) : roundedQuotient n u ≤ n / u + 1 := by
  rw [roundedQuotient]
  split_ifs <;> omega

/-- Rounding a quotient moves the number by half a unit at most. -/
lemma roundedQuotient_mul_le (n u : Nat) : 2 * (roundedQuotient n u * u) ≤ 2 * n + u := by
  have hn : u * (n / u) + n % u = n := Nat.div_add_mod n u
  have hdown : n / u * u = u * (n / u) := Nat.mul_comm _ _
  have hup : (n / u + 1) * u = u * (n / u) + u := by rw [Nat.succ_mul, hdown]
  rw [roundedQuotient]
  split_ifs with hbelow htie
  · omega
  · rcases Nat.mod_two_eq_zero_or_one (n / u) with hbit | hbit
    · rw [hbit, Nat.add_zero]
      omega
    · rw [hbit]
      omega
  · omega

lemma roundedQuotient_mul_mul (n u : Nat) {c : Nat} (hc : 0 < c) :
    roundedQuotient (n * c) (u * c) = roundedQuotient n u := by
  have hbelow : 2 * (n % u * c) < u * c ↔ 2 * (n % u) < u := by
    rw [← mul_assoc]
    exact Nat.mul_lt_mul_right hc
  have htie : 2 * (n % u * c) = u * c ↔ 2 * (n % u) = u := by
    rw [← mul_assoc]
    exact Nat.mul_left_inj hc.ne'
  simp only [roundedQuotient, Nat.mul_div_mul_right _ _ hc, Nat.mul_mod_mul_right, hbelow, htie]

/-! ## The nearest number of 53 digits -/

lemma lastPlace_pos : 0 < lastPlace n := by
  rw [lastPlace]
  positivity

lemma lastPlace_of_lt (h : n < 2 ^ 53) : lastPlace n = 1 := by
  have hlog : n.log2 - 52 = 0 := by
    rcases Nat.eq_zero_or_pos n with rfl | hn
    · simp
    · have hlt := (Nat.log2_lt hn.ne').2 h
      omega
  rw [lastPlace, hlog, pow_zero]

/-- Divided by the last place, a number has 53 binary digits. -/
lemma div_lastPlace_bounds (h : 2 ^ 52 ≤ n) :
    2 ^ 52 ≤ n / lastPlace n ∧ n / lastPlace n < 2 ^ 53 := by
  have hn : n ≠ 0 := by omega
  have hlog : 52 ≤ n.log2 := (Nat.le_log2 hn).2 h
  have hpow : 2 ^ n.log2 = 2 ^ 52 * lastPlace n := by
    rw [lastPlace, ← pow_add]
    congr 1
    omega
  constructor
  · rw [Nat.le_div_iff_mul_le lastPlace_pos, ← hpow]
    exact Nat.log2_self_le hn
  · rw [Nat.div_lt_iff_lt_mul lastPlace_pos]
    calc n < 2 ^ (n.log2 + 1) := Nat.lt_log2_self
      _ = 2 ^ 53 * lastPlace n := by rw [pow_succ, hpow]; ring

/-- Rounding up to 54 digits gives `2 ^ 53`, which ends in zeros. -/
lemma lastPlace_dvd_roundedQuotient (h : 2 ^ 52 ≤ n) :
    lastPlace (roundedQuotient n (lastPlace n)) ∣ roundedQuotient n (lastPlace n) := by
  have hle : roundedQuotient n (lastPlace n) ≤ 2 ^ 53 :=
    (roundedQuotient_le _ _).trans (div_lastPlace_bounds h).2
  rcases hle.lt_or_eq with hlt | heq
  · rw [lastPlace_of_lt hlt]
    exact one_dvd _
  · rw [heq]
    decide +kernel

lemma nearest_of_dvd (h : lastPlace n ∣ n) : nearest n = n := by
  have hexact : n % lastPlace n = 0 := Nat.mod_eq_zero_of_dvd h
  have hpos : 0 < lastPlace n := lastPlace_pos
  rw [nearest, roundedQuotient, hexact, if_pos (by omega), Nat.div_mul_cancel h]

/-- A number of at most 53 digits is kept as it is. -/
lemma nearest_of_lt (h : n < 2 ^ 53) : nearest n = n :=
  nearest_of_dvd (by rw [lastPlace_of_lt h]; exact one_dvd n)

lemma nearest_pos (h : 0 < n) : 0 < nearest n := by
  rcases lt_or_ge n (2 ^ 53) with hlt | hge
  · rwa [nearest_of_lt hlt]
  · have hquotient := (div_lastPlace_bounds (by omega : 2 ^ 52 ≤ n)).1
    have hle := le_roundedQuotient n (lastPlace n)
    exact Nat.mul_pos (by omega) lastPlace_pos

/-- Rounding adds one part in `2 ^ 53` at most. -/
lemma nearest_le_add (n : Nat) : nearest n ≤ n + n / 2 ^ 53 := by
  rcases lt_or_ge n (2 ^ 53) with hlt | hge
  · rw [nearest_of_lt hlt]
    omega
  · have hn : n ≠ 0 := by omega
    have hlog : 53 ≤ n.log2 := (Nat.le_log2 hn).2 hge
    have heven : lastPlace n = 2 * 2 ^ (n.log2 - 53) := by
      rw [lastPlace, ← pow_succ']
      congr 1
      omega
    have hhalf : 2 ^ (n.log2 - 53) ≤ n / 2 ^ 53 := by
      rw [Nat.le_div_iff_mul_le (by positivity), ← pow_add, Nat.sub_add_cancel hlog]
      exact Nat.log2_self_le hn
    have hround : 2 * nearest n ≤ 2 * n + lastPlace n := roundedQuotient_mul_le n (lastPlace n)
    omega

lemma nearest_le_size (h : n < UInt64.size) : nearest n ≤ UInt64.size := by
  change n < 2 ^ 64 at h
  rcases lt_or_ge n (2 ^ 53) with hlt | hge
  · rw [nearest_of_lt hlt]
    exact h.le
  · have hlog : n.log2 < 64 := (Nat.log2_lt (by omega)).2 h
    have hquotient := (div_lastPlace_bounds (by omega : 2 ^ 52 ≤ n)).2
    have hle := roundedQuotient_le n (lastPlace n)
    calc nearest n ≤ 2 ^ 53 * 2 ^ 11 :=
          Nat.mul_le_mul (by omega) (Nat.pow_le_pow_right (by omega) (by omega))
      _ = UInt64.size := by decide

lemma log2_mul_two_pow (hn : n ≠ 0) (k : Nat) : (n * 2 ^ k).log2 = n.log2 + k := by
  have hlow := Nat.log2_self_le hn
  have hhigh := Nat.lt_log2_self (n := n)
  refine (Nat.log2_eq_iff (by positivity)).2 ⟨?_, ?_⟩
  · rw [pow_add]
    gcongr
  · rw [Nat.add_right_comm, pow_add]
    gcongr

/-- Rounding keeps as many digits of a number whatever zeros follow them. -/
lemma nearest_mul_two_pow (n k : Nat) : nearest (n * 2 ^ k) = nearest n * 2 ^ k := by
  rcases lt_or_ge n (2 ^ 52) with h | h
  · have hdvd : lastPlace (n * 2 ^ k) ∣ 2 ^ k := by
      rcases eq_or_ne n 0 with rfl | hn
      · simp [lastPlace]
      · have hlog := (Nat.log2_lt hn).2 h
        rw [lastPlace, log2_mul_two_pow hn]
        exact Nat.pow_dvd_pow 2 (by omega)
    rw [nearest_of_dvd (hdvd.mul_left n), nearest_of_lt (by omega)]
  · have hn : n ≠ 0 := by omega
    have hlog : 52 ≤ n.log2 := (Nat.le_log2 hn).2 h
    have hplace : lastPlace (n * 2 ^ k) = lastPlace n * 2 ^ k := by
      rw [lastPlace, log2_mul_two_pow hn, lastPlace, ← pow_add, Nat.sub_add_comm hlog]
    rw [nearest, hplace, roundedQuotient_mul_mul _ _ (by positivity), nearest, mul_assoc]

/-! ## Rounding in the logical model

The model rounds with two more bits behind the digits: the next digit, and whether any digit after
it is set. -/

/-- What a number shifted right keeps: its leading digits, the digit behind them, and whether more
follow. -/
structure ShiftedBy (n k : Nat) (em : ExtendedMantissa) : Prop where
  mantissa : em.mantissa = n / 2 ^ k
  roundBit : em.roundBit = true ↔ 2 ^ k ≤ 2 * (n % 2 ^ k)
  stickyBit : em.stickyBit = true ↔ n % 2 ^ k ≠ 0 ∧ 2 * (n % 2 ^ k) ≠ 2 ^ k

lemma ShiftedBy.zero (n : Nat) : ShiftedBy n 0 (.ofMantissaAndAccuracy n .exact) := by
  constructor <;> simp [ExtendedMantissa.ofMantissaAndAccuracy, Nat.mod_one]

lemma ShiftedBy.succ {em : ExtendedMantissa} (h : ShiftedBy n k em) :
    ShiftedBy n (k + 1) em.shiftRightOne := by
  obtain ⟨hm, hr, hs⟩ := h
  have hlt : n % 2 ^ k < 2 ^ k := Nat.mod_lt _ (by positivity)
  have hmod : n % 2 ^ (k + 1) = n % 2 ^ k + 2 ^ k * (n / 2 ^ k % 2) := by
    rw [Nat.pow_succ, Nat.mod_mul]
  constructor
  · rw [ExtendedMantissa.shiftRightOne, hm, Nat.div_div_eq_div_mul, Nat.pow_succ]
  · rw [hmod, pow_succ, ExtendedMantissa.shiftRightOne, hm]
    rcases Nat.mod_two_eq_zero_or_one (n / 2 ^ k) with hbit | hbit <;> simp [hbit] <;> omega
  · rw [hmod, pow_succ, ExtendedMantissa.shiftRightOne, Bool.or_eq_true, hr, hs]
    rcases Nat.mod_two_eq_zero_or_one (n / 2 ^ k) with hbit | hbit <;> rw [hbit] <;> omega

lemma shiftedBy_shiftRight (n k : Nat) :
    ShiftedBy n k (ExtendedMantissa.ofMantissaAndAccuracy n .exact >>> k) := by
  change ShiftedBy n k (Nat.repeat ExtendedMantissa.shiftRightOne k _)
  induction k with
  | zero => exact .zero n
  | succ k ih => exact ih.succ

/-- The two bits tell below a half, a half and above a half apart. -/
lemma ShiftedBy.roundedMantissa {em : ExtendedMantissa} (h : ShiftedBy n k em) :
    em.roundedMantissa = roundedQuotient n (2 ^ k) := by
  obtain ⟨m, r, s⟩ := em
  obtain ⟨hm, hr, hs⟩ := h
  simp only at hm hr hs
  subst hm
  have hpos : 0 < 2 ^ k := by positivity
  -- Nothing behind the digits, less than a half, exactly a half, more than a half.
  cases r <;> cases s <;>
    simp [ExtendedMantissa.roundedMantissa, ExtendedMantissa.accuracy,
      Accuracy.roundToNearestEven, roundedQuotient] at hr hs ⊢ <;>
    split_ifs <;> omega

/-- The positive doubles of full precision from one to `2 ^ 64`, with the numbers they stand for. -/
inductive StandsFor : UnpackedFloat → ℚ → Prop where
  | intro {m : Nat} {e : Int} (hm : 0 < m) (hlow : 2 ^ 52 ≤ m) (hhigh : m < 2 ^ 53)
      (hleast : -52 ≤ e) (hgreatest : e ≤ 12) : StandsFor (.finite .positive m e hm) (m * 2 ^ e)

variable {f : UnpackedFloat} {q : ℚ}

lemma exponent_le_of_le {m : Nat} {e : Int} (hm : 2 ^ 52 ≤ m) (h : (m : ℚ) * 2 ^ e ≤ 2 ^ 64) :
    e ≤ 12 := by
  by_contra hexp
  have hpower : (2 : ℚ) ^ (13 : Int) ≤ 2 ^ e := zpow_le_zpow_right₀ one_le_two (by omega)
  have hlarge : (2 : ℚ) ^ 52 * 2 ^ (13 : Int) ≤ m * 2 ^ e :=
    mul_le_mul (mod_cast hm) hpower (by positivity) (by positivity)
  norm_num at hlarge h
  linarith

lemma targetExponent_eq {m : Nat} {e : Int} (h : -1074 ≤ m.log2 - 52 + e) :
    Format.binary64.targetExponent (totalExponent m e) = m.log2 - 52 + e := by
  rw [Format.targetExponent, totalExponent]
  change max ((m.log2 : Int) + 1 + e - 53) (-1074) = _
  omega

lemma shiftToTargetExponent_eq {m : Nat} {e : Int} (hm : 2 ^ 52 ≤ m) (he : -1074 ≤ e) :
    shiftToTargetExponent .binary64 m e .exact =
      (ExtendedMantissa.ofMantissaAndAccuracy m .exact >>> (m.log2 - 52),
        e + (m.log2 - 52 : Nat)) := by
  have hlog : 52 ≤ m.log2 := (Nat.le_log2 (by omega)).2 hm
  have hshift : (m.log2 - 52 + e - e : Int).toNat = m.log2 - 52 := by omega
  rw [shiftToTargetExponent, targetExponent_eq (by omega), shiftToExponent, hshift]

/-- The model rounds `m · 2 ^ e` to the nearest 53 digits, and shifts once more where rounding up
made it 54 digits: the last one is zero then. -/
lemma standsFor_roundWithAccuracy {m : Nat} {e : Int} (hm : 2 ^ 52 ≤ m) (he : -1074 ≤ e)
    (hvalue : nearest m * 2 ^ e = q) (hone : 1 ≤ q) (hmax : q ≤ 2 ^ 64) :
    StandsFor (roundWithAccuracy .binary64 .positive m e .exact) q := by
  set r := roundedQuotient m (lastPlace m) with hr
  have hrlow : 2 ^ 52 ≤ r := (div_lastPlace_bounds hm).1.trans (le_roundedQuotient _ _)
  have hrounded := (shiftedBy_shiftRight m (m.log2 - 52)).roundedMantissa
  rw [← lastPlace, ← hr] at hrounded
  obtain ⟨hfirst, hlast⟩ := div_lastPlace_bounds hrlow
  have hsecond := shiftToTargetExponent_eq (e := e + (m.log2 - 52 : Nat)) hrlow (by omega)
  have hshifted : (nearest m : ℚ) = (r / lastPlace r : Nat) * lastPlace r * lastPlace m := by
    rw [nearest, ← hr, ← Nat.cast_mul, Nat.div_mul_cancel (lastPlace_dvd_roundedQuotient hm),
      Nat.cast_mul]
  have hq : q = (r / lastPlace r : Nat) *
      2 ^ (e + (m.log2 - 52 : Nat) + (r.log2 - 52 : Nat) : Int) := by
    rw [← hvalue, hshifted, zpow_add₀ two_ne_zero, zpow_add₀ two_ne_zero, zpow_natCast,
      zpow_natCast, lastPlace, lastPlace]
    push_cast
    ring
  have hpos : 0 < r / lastPlace r := by omega
  have hdigits : (ExtendedMantissa.ofMantissaAndAccuracy r .exact).mantissa = r := rfl
  rw [roundWithAccuracy, shiftToTargetExponent_eq hm he]
  simp only [hrounded, hsecond, mantissa_shiftRight, hdigits]
  rw [dif_neg (show ¬ r / 2 ^ (r.log2 - 52) = 0 from hpos.ne'), hq]
  exact .intro hpos hfirst hlast (le_exponent_of_one_le hlast (hq ▸ hone))
    (exponent_le_of_le hfirst (hq ▸ hmax))

lemma pack_finite {m : Nat} {e : Int} (hm : 0 < m) (hlow : 2 ^ 52 ≤ m) (hhigh : m < 2 ^ 53)
    (hgreatest : e ≤ 12) :
    UnpackedFloat.pack .binary64 (.finite .positive m e hm) =
      packComponents .binary64 .positive (BitVec.ofNat 11 (e + 1075).toNat) (BitVec.ofNat 52 m) := by
  have hlog : m.log2 = 52 := (Nat.log2_eq_iff hm.ne').2 ⟨hlow, hhigh⟩
  have hbias : (e + Format.binary64.exponentBias +
      Format.binary64.mantissaBitsWithoutImplicit).toNat = (e + 1075).toNat := by
    change (e + (1023 : Nat) + (52 : Nat)).toNat = _
    omega
  simp only [UnpackedFloat.pack, hlog, hbias]
  rw [if_neg (by change ¬ 2048 ≤ _; omega),
    if_pos (show 52 + 1 = Format.binary64.mantissaBits from rfl)]

/-- Packing into 64 bits loses nothing. -/
lemma StandsFor.unpack_pack (h : StandsFor f q) : (Float.Model.pack f).unpack = f := by
  obtain @⟨m, e, hm, hlow, hhigh, hleast, hgreatest⟩ := h
  have hexponent : (BitVec.ofNat 11 (e + 1075).toNat).toNat = (e + 1075).toNat := by
    rw [BitVec.toNat_ofNat]
    omega
  have hmantissa : (1#1 ++ BitVec.ofNat 52 m).toNat = m := by
    rw [toNat_one_append, BitVec.toNat_ofNat]
    omega
  have hnotzero : BitVec.ofNat 11 (e + 1075).toNat ≠ 0#11 := by
    rw [Ne, ← BitVec.toNat_inj, hexponent]
    change ¬ _ = 0
    omega
  have hnotones : BitVec.ofNat 11 (e + 1075).toNat ≠ -1#11 := by
    rw [Ne, ← BitVec.toNat_inj, hexponent]
    change ¬ _ = 2047
    omega
  change UnpackedFloat.unpack .binary64 (UnpackedFloat.pack .binary64 _) = _
  rw [pack_finite hm hlow hhigh hgreatest, UnpackedFloat.unpack]
  simp only [unpackMantissa_packComponents, unpackExponent_packComponents,
    unpackSign_packComponents, Sign.ofBitVec_toBitVec]
  rw [if_neg hnotones, if_neg hnotzero]
  simp only [hmantissa, hexponent]
  congr 1
  change ((e + 1075).toNat : Int) - ((1023 : Nat) + (52 : Nat)) = e
  omega

lemma StandsFor.value_pack (h : StandsFor f q) : value (.ofModel (.pack f)) = q := by
  have hparts : parts? (.ofModel (.pack f)) = unpackedParts f := by
    rw [parts?_eq_unpackedParts]
    exact congrArg unpackedParts h.unpack_pack
  obtain @⟨m, e, hm, -, -, -, -⟩ := h
  simp [value, hparts, unpackedParts, Parts.value, Parts.magnitude]

/-! ## Doubles of integers -/

lemma standsFor_ofNat (hpos : 0 < n) (hlt : n < 2 ^ 53) :
    StandsFor (UnpackedFloat.ofNat .binary64 n) n := by
  have hlog : n.log2 ≤ 52 := by
    have := (Nat.log2_lt hpos.ne').2 hlt
    omega
  have hcompare : compare (n : Int) 0 = .gt := compare_gt_iff_gt.2 (by omega)
  have htarget := targetExponent_eq (m := n) (e := 0) (by omega)
  have hshift : (0 - ((n.log2 : Int) - 52 + 0)).toNat = 52 - n.log2 := by omega
  have hfull : 2 ^ 52 ≤ n * 2 ^ (52 - n.log2) := by
    calc 2 ^ 52 = 2 ^ n.log2 * 2 ^ (52 - n.log2) := by rw [← pow_add]; congr 1; omega
      _ ≤ n * 2 ^ (52 - n.log2) := by gcongr; exact Nat.log2_self_le hpos.ne'
  have hvalue : (nearest (n * 2 ^ (52 - n.log2)) : ℚ) * 2 ^ (0 - (52 - n.log2 : Nat) : Int) = n := by
    rw [nearest_mul_two_pow, nearest_of_lt hlt, zero_sub, zpow_neg, zpow_natCast]
    push_cast
    field_simp
  have hrounded := standsFor_roundWithAccuracy hfull (by omega) hvalue (mod_cast hpos)
    (mod_cast (by omega))
  simpa only [UnpackedFloat.ofNat, UnpackedFloat.ofInt, UnpackedFloat.normalize, hcompare,
    Int.toNat_natCast, UnpackedFloat.round, htarget, decreaseExponent, hshift,
    Nat.shiftLeft_eq] using hrounded

lemma StandsFor.mul_one (h : StandsFor f q) (hone : 1 ≤ q) (hmax : q ≤ 2 ^ 64) :
    StandsFor (UnpackedFloat.mul .binary64 f (.finite .positive (2 ^ 52) (-52) (by decide))) q := by
  obtain @⟨m, e, hm, hlow, hhigh, hleast, -⟩ := h
  refine standsFor_roundWithAccuracy (m := m * 2 ^ 52) (e := e + -52) (by omega) (by omega) ?_
    hone hmax
  rw [nearest_mul_two_pow, nearest_of_lt hhigh, zpow_add₀ two_ne_zero]
  push_cast
  norm_num
  ring

/-- An integer of more than 53 digits is read as a decimal, through a division by one. -/
lemma standsFor_ofScientific (hlow : 2 ^ 53 ≤ n) (hhigh : n < UInt64.size) :
    StandsFor (UnpackedFloat.ofScientific .binary64 n 0) (nearest n) := by
  have hvalue : (nearest (n * 2 ^ 53) : ℚ) * 2 ^ (-53 : Int) = nearest n := by
    rw [nearest_mul_two_pow, zpow_neg, Nat.cast_mul, Nat.cast_pow, Nat.cast_ofNat]
    exact mul_inv_cancel_right₀ (by norm_num) _
  have hrounded := standsFor_roundWithAccuracy (m := n * 2 ^ 53) (by omega) (by omega) hvalue
    (mod_cast nearest_pos (by omega)) (mod_cast nearest_le_size hhigh)
  rw [UnpackedFloat.ofScientific, dif_neg (by omega), if_neg (by decide),
    if_neg (by change ¬ (0 : Int) < -(2048 + (n.log2 : Int)); omega), if_pos le_rfl]
  have hbits : Format.binary64.mantissaBits = 53 := rfl
  have hten : 10 ^ Int.toNat 0 = 1 := rfl
  have hsign : Sign.positive * Sign.positive = .positive := rfl
  simp only [UnpackedFloat.mul, Nat.shiftLeft_eq, hbits, hten, hsign, Nat.mul_one, Int.add_zero]
  exact hrounded

lemma value_ofScientific (hpos : 0 < n) (hlt : n < UInt64.size) :
    value (.ofScientific n false 0) = nearest n := by
  rcases lt_or_ge n (2 ^ 53) with h | h
  · have hword : n.toUInt64.toNat = n := by
      rw [Nat.toUInt64, UInt64.toNat_ofNat']
      exact Nat.mod_eq_of_lt hlt
    have hn : StandsFor (UnpackedFloat.ofNat .binary64 n) n := standsFor_ofNat hpos h
    have hone : Float.exactlyRepresentablePowersOfTen[0].toModel.unpack =
        .finite .positive (2 ^ 52) (-52) (by decide) := rfl
    have hproduct := hn.mul_one (mod_cast hpos) (mod_cast hlt.le)
    rw [Float.ofScientific, dif_pos ⟨h, by decide⟩, nearest_of_lt h]
    change value (.ofModel (.pack (UnpackedFloat.mul .binary64
      (Float.Model.pack (.ofNat .binary64 n.toUInt64.toNat)).unpack _))) = _
    rw [hword, hn.unpack_pack, hone]
    exact hproduct.value_pack
  · rw [Float.ofScientific, dif_neg (by omega)]
    exact (standsFor_ofScientific h hlt).value_pack

/-- An integer of 64 bits becomes the nearest double. -/
lemma value_ofInt (h : n < UInt64.size) : value (ofInt n) = nearest n := by
  rcases Nat.eq_zero_or_pos n with rfl | hpos
  · rw [nearest_of_lt (by decide)]
    decide +kernel
  · have hlength : (Nat.toDigits 10 n).length ≤ 20 :=
      (Nat.length_toDigits_le_iff (by decide) (by decide)).2 (h.trans (by decide))
    rw [ofInt, if_neg (by omega), Int.natAbs_natCast, ofDecimal, if_neg hpos.ne']
    dsimp only
    rw [if_neg (by omega), if_neg (by omega), if_neg (by decide)]
    exact value_ofScientific hpos h

end ProcessEngine.Binary64

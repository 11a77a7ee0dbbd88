import ProcessEngine.Config.Basic
import ProcessEngine.Proofs.Binary64.Nearest

/-!
# The growth of delays

The delay before a retry, with products and powers taken as exact.  It grows with the number of the
retry up to the last one whose exponent is not negative in 32 signed bits; from there on the exponent
counts up from `-2 ^ 31` again, so that a later retry may wait less than an earlier one.  A delay
exceeds the cap only where the cap itself is rounded up.  `Config.backoff_grows_iff` says exactly
when either happens.
-/

namespace ProcessEngine

open Binary64 (value nearest)

/-- Back-off with exact products and powers.  Integers are still rounded on their way in, and results
are truncated to 64 bits on their way out. -/
def exactArithmetic : BackoffArithmetic ℚ where
  ofNat n := value (Binary64.ofInt n)
  mul := (· * ·)
  inverse := (·)⁻¹
  min := min
  atLeastOne := max 1
  floor x := min ⌊x⌋₊ (UInt64.size - 1)

namespace BackoffArithmetic

/-! ## What exact back-off shares with doubles

Only products and inverses differ: the other operations are those of doubles, on values. -/

section Doubles

variable {x y : Float}

lemma value_min (hx : Binary64.isFinite x = true) (hy : Binary64.isFinite y = true) :
    value (doubleArithmetic.min x y) = exactArithmetic.min (value x) (value y) := by
  have hlt := Binary64.lt_iff_value_lt hy hx
  change value (if y < x then y else x) = Min.min (value x) (value y)
  split_ifs with h
  · rw [min_eq_right (hlt.1 h).le]
  · rw [min_eq_left (not_lt.1 (mt hlt.2 h))]

lemma value_atLeastOne (hx : Binary64.isFinite x = true) :
    value (doubleArithmetic.atLeastOne x) = exactArithmetic.atLeastOne (value x) := by
  have hlt := Binary64.lt_iff_value_lt Binary64.isFinite_one hx
  rw [Binary64.value_one] at hlt
  change value (if 1.0 < x then x else 1.0) = max 1 (value x)
  split_ifs with h
  · rw [max_eq_right (hlt.1 h).le]
  · rw [max_eq_left (not_lt.1 (mt hlt.2 h)), Binary64.value_one]

lemma floor_eq (hx : Binary64.isFinite x = true) :
    doubleArithmetic.floor x = exactArithmetic.floor (value x) :=
  Binary64.toUInt64_toNat hx

end Doubles

/-! ## Powers -/

/-- What the loop has multiplied up and what is left of the exponent make up the power. -/
lemma powerLoop_exact {fuel k : Nat} (acc base : ℚ) (h : k < fuel) :
    powerLoop exactArithmetic fuel acc base k = acc * base ^ k := by
  induction fuel generalizing acc base k with
  | zero => omega
  | succ fuel ih =>
    have hacc : (if k % 2 = 1 then exactArithmetic.mul acc base else acc) =
        acc * base ^ (k % 2) := by
      rcases Nat.mod_two_eq_zero_or_one k with hbit | hbit <;> simp [hbit, exactArithmetic]
    have hsplit : base ^ k = base ^ (k % 2) * (base * base) ^ (k / 2) := by
      rw [← sq, ← pow_mul, ← pow_add, Nat.mod_add_div]
    rw [powerLoop, hacc]
    split_ifs with hlast
    · rw [hsplit, hlast, pow_zero, mul_one]
    · rw [ih _ _ (by omega), hsplit, ← mul_assoc]
      rfl

lemma power_exact (base : ℚ) (e : Int) : exactArithmetic.power base e = base ^ e := by
  have hone : exactArithmetic.ofNat 1 = 1 := by
    change value (Binary64.ofInt (1 : Nat)) = 1
    rw [Binary64.value_ofInt (by decide), Binary64.nearest_of_lt (by decide), Nat.cast_one]
  rw [power, powerLoop_exact _ _ (by omega), hone, one_mul]
  split_ifs with hneg
  · rw [show e = -(e.natAbs : Int) by omega, zpow_neg, zpow_natCast, Int.natAbs_neg,
      Int.natAbs_natCast]
    rfl
  · rw [show e = (e.natAbs : Int) by omega, zpow_natCast, Int.natAbs_natCast]

lemma floor_mono : Monotone exactArithmetic.floor :=
  fun _ _ h => min_le_min_right _ (Nat.floor_mono h)

end BackoffArithmetic

/-! ## The exponent -/

/-- The last retry whose exponent is not negative. -/
def lastGrowing : Nat := 2 ^ 31

/-- The exponent before a retry: one less than the retry, in 32 signed bits. -/
def backoffExponent (retry : Nat) : Int := Int.bmod (retry - 1 : Nat) UInt32.size

section Exponent

variable {r s : Nat}

lemma backoffExponent_of_le (h : r ≤ lastGrowing) : backoffExponent r = (r - 1 : Nat) := by
  rw [lastGrowing] at h
  change Int.bmod (r - 1 : Nat) 4294967296 = _
  rw [Int.bmod_def]
  split_ifs <;> omega

lemma backoffExponent_of_gt (h : lastGrowing < r) (hlt : r < UInt32.size) :
    backoffExponent r = (r : Int) - 1 - UInt32.size := by
  rw [lastGrowing] at h
  change r < 4294967296 at hlt
  change Int.bmod (r - 1 : Nat) 4294967296 = _ - (4294967296 : Nat)
  rw [Int.bmod_def]
  split_ifs <;> omega

lemma backoffExponent_nonneg (h : r ≤ lastGrowing) : 0 ≤ backoffExponent r := by
  rw [backoffExponent_of_le h]
  omega

lemma backoffExponent_neg (h : lastGrowing < r) (hlt : r < UInt32.size) :
    backoffExponent r < 0 := by
  rw [backoffExponent_of_gt h hlt]
  omega

/-- The exponent grows on either side of the last growing retry. -/
lemma backoffExponent_mono (hrs : r ≤ s) (hs : s < UInt32.size)
    (hside : s ≤ lastGrowing ∨ lastGrowing < r) : backoffExponent r ≤ backoffExponent s := by
  rcases hside with h | h
  · rw [backoffExponent_of_le h, backoffExponent_of_le (hrs.trans h)]
    omega
  · rw [backoffExponent_of_gt h (hrs.trans_lt hs), backoffExponent_of_gt (h.trans_le hrs) hs]
    omega

end Exponent

/-! ## The delay -/

namespace RetryPolicy

/-- The factor from one retry to the next. -/
def factor (p : RetryPolicy) : ℚ := value p.multiplier

/-- The delay before a retry, with exact products and powers. -/
def exactDelay (p : RetryPolicy) (retry : Nat) : Nat :=
  exactArithmetic.delay p.initialBackoff p.factor p.maxBackoff retry

/-- What the delay is before it is capped and truncated. -/
def growth (p : RetryPolicy) (retry : Nat) : ℚ :=
  nearest p.initialBackoff * p.factor ^ backoffExponent retry

/-- A policy with a factor not below one and times that fit into 64 bits. -/
structure Admissible (p : RetryPolicy) : Prop where
  one_le_factor : 1 ≤ p.factor
  initial_lt : p.initialBackoff < UInt64.size
  cap_lt : p.maxBackoff < UInt64.size

variable {p : RetryPolicy} {r s : Nat}

lemma exactDelay_of_zero (h : p.initialBackoff = 0) : p.exactDelay r = 0 := if_pos h

lemma exactDelay_eq (hp : p.Admissible) (h : p.initialBackoff ≠ 0) :
    p.exactDelay r = exactArithmetic.floor (min (p.growth r) (nearest p.maxBackoff)) := by
  have hfactor : exactArithmetic.atLeastOne p.factor = p.factor := max_eq_right hp.one_le_factor
  have hinitial : exactArithmetic.ofNat p.initialBackoff = nearest p.initialBackoff :=
    Binary64.value_ofInt hp.initial_lt
  have hcap : exactArithmetic.ofNat p.maxBackoff = nearest p.maxBackoff :=
    Binary64.value_ofInt hp.cap_lt
  rw [exactDelay, BackoffArithmetic.delay, if_neg h]
  simp only [hfactor, BackoffArithmetic.power_exact, hinitial, hcap]
  rfl

lemma Admissible.growth_nonneg (hp : p.Admissible) : 0 ≤ p.growth r := by
  have hfactor := hp.one_le_factor
  rw [growth]
  positivity

lemma Admissible.growth_mono (hp : p.Admissible) (h : backoffExponent r ≤ backoffExponent s) :
    p.growth r ≤ p.growth s :=
  mul_le_mul_of_nonneg_left (zpow_le_zpow_right₀ hp.one_le_factor h) (Nat.cast_nonneg _)

lemma Admissible.le_growth (hp : p.Admissible) (h : r ≤ lastGrowing) :
    nearest p.initialBackoff ≤ p.growth r :=
  le_mul_of_one_le_right (Nat.cast_nonneg _)
    (one_le_zpow₀ hp.one_le_factor (backoffExponent_nonneg h))

lemma growth_lt (hfactor : 1 < p.factor) (hinitial : p.initialBackoff ≠ 0)
    (hs : backoffExponent s < 0) : p.growth s < nearest p.initialBackoff :=
  mul_lt_of_lt_one_right (mod_cast Binary64.nearest_pos (Nat.pos_of_ne_zero hinitial))
    (zpow_lt_one_of_neg₀ hfactor hs)

/-- A factor above one is at least the next double, which is enough to bring `2 ^ 64` down below the
greatest integer of 64 bits. -/
lemma Admissible.growth_lt_size (hp : p.Admissible) (hfactor : 1 < p.factor)
    (hs : backoffExponent s < 0) : p.growth s < (UInt64.size - 1 : Nat) := by
  have hnext : 1 + 1 / 2 ^ 52 ≤ p.factor := Binary64.next_after_one hfactor
  have hinitial : (nearest p.initialBackoff : ℚ) ≤ UInt64.size :=
    mod_cast Binary64.nearest_le_size hp.initial_lt
  have hpower : p.factor ^ backoffExponent s ≤ (1 + 1 / 2 ^ 52)⁻¹ := by
    calc p.factor ^ backoffExponent s ≤ p.factor ^ (-1 : Int) :=
          zpow_le_zpow_right₀ hfactor.le (by omega)
      _ ≤ (1 + 1 / 2 ^ 52)⁻¹ := by
          rw [zpow_neg_one]
          exact inv_anti₀ (by norm_num) hnext
  calc p.growth s ≤ UInt64.size * (1 + 1 / 2 ^ 52)⁻¹ :=
        mul_le_mul hinitial hpower (by positivity) (by positivity)
    _ < (UInt64.size - 1 : Nat) := by norm_num [UInt64.size]

/-! ## When delays grow -/

/-- On either side of the last growing retry, delays grow. -/
lemma Admissible.exactDelay_mono (hp : p.Admissible) (hrs : r ≤ s) (hs : s < UInt32.size)
    (hside : s ≤ lastGrowing ∨ lastGrowing < r) : p.exactDelay r ≤ p.exactDelay s := by
  by_cases h : p.initialBackoff = 0
  · rw [exactDelay_of_zero h, exactDelay_of_zero h]
  · rw [exactDelay_eq hp h, exactDelay_eq hp h]
    exact BackoffArithmetic.floor_mono
      (min_le_min_right _ (hp.growth_mono (backoffExponent_mono hrs hs hside)))

lemma Admissible.exactDelay_of_factor_one (hp : p.Admissible) (h : p.factor = 1) :
    p.exactDelay r = p.exactDelay s := by
  by_cases hinitial : p.initialBackoff = 0
  · rw [exactDelay_of_zero hinitial, exactDelay_of_zero hinitial]
  · rw [exactDelay_eq hp hinitial, exactDelay_eq hp hinitial, growth, growth, h, one_zpow, one_zpow]

/-- A delay that has reached the cap is the longest one. -/
lemma Admissible.exactDelay_le_of_capped (hp : p.Admissible)
    (hcapped : nearest p.maxBackoff ≤ p.growth s) : p.exactDelay r ≤ p.exactDelay s := by
  by_cases h : p.initialBackoff = 0
  · rw [exactDelay_of_zero h, exactDelay_of_zero h]
  · rw [exactDelay_eq hp h, exactDelay_eq hp h, min_eq_right hcapped]
    exact BackoffArithmetic.floor_mono (min_le_right _ _)

/-- Behind the last growing retry the delay falls below every one before it, unless it is capped
there as well. -/
lemma Admissible.exactDelay_lt (hp : p.Admissible) (hfactor : 1 < p.factor)
    (hinitial : p.initialBackoff ≠ 0) (hr : r ≤ lastGrowing) (hs : lastGrowing < s)
    (hlt : s < UInt32.size) (hopen : p.growth s < nearest p.maxBackoff) :
    p.exactDelay s < p.exactDelay r := by
  have hneg := backoffExponent_neg hs hlt
  have hnonneg : 0 ≤ p.growth s := hp.growth_nonneg
  have hbelow : ⌊p.growth s⌋₊ < min (nearest p.initialBackoff) (nearest p.maxBackoff) :=
    lt_min ((Nat.floor_lt hnonneg).2 (growth_lt hfactor hinitial hneg))
      ((Nat.floor_lt hnonneg).2 hopen)
  have habove : min (nearest p.initialBackoff) (nearest p.maxBackoff) ≤
      ⌊min (p.growth r) (nearest p.maxBackoff)⌋₊ := by
    refine Nat.le_floor ?_
    rw [Nat.cast_min]
    exact min_le_min_right _ (hp.le_growth hr)
  have hsize : ⌊p.growth s⌋₊ < UInt64.size - 1 :=
    (Nat.floor_lt hnonneg).2 (hp.growth_lt_size hfactor hneg)
  rw [exactDelay_eq hp hinitial, exactDelay_eq hp hinitial, min_eq_left hopen.le]
  exact (min_le_left _ _).trans_lt (lt_min (hbelow.trans_le habove) hsize)

lemma Admissible.exactDelay_le_iff (hp : p.Admissible) (hrs : r ≤ s) (hs : s < UInt32.size) :
    p.exactDelay r ≤ p.exactDelay s ↔
      s ≤ lastGrowing ∨ lastGrowing < r ∨ p.initialBackoff = 0 ∨ p.factor = 1 ∨
        nearest p.maxBackoff ≤ p.growth s := by
  constructor
  · intro hle
    by_contra! ⟨hafter, hbefore, hinitial, hfactor, hopen⟩
    have hlt : p.exactDelay s < p.exactDelay r :=
      hp.exactDelay_lt (hp.one_le_factor.lt_of_ne' hfactor) hinitial hbefore hafter hs hopen
    omega
  · rintro (hbefore | hafter | hinitial | hfactor | hcapped)
    · exact hp.exactDelay_mono hrs hs (.inl hbefore)
    · exact hp.exactDelay_mono hrs hs (.inr hafter)
    · rw [exactDelay_of_zero hinitial, exactDelay_of_zero hinitial]
    · rw [hp.exactDelay_of_factor_one hfactor]
    · exact hp.exactDelay_le_of_capped hcapped

/-! ## How long delays become -/

lemma Admissible.exactDelay_le_nearest (hp : p.Admissible) :
    p.exactDelay s ≤ nearest p.maxBackoff := by
  by_cases h : p.initialBackoff = 0
  · rw [exactDelay_of_zero h]
    omega
  · rw [exactDelay_eq hp h]
    calc exactArithmetic.floor (min (p.growth s) (nearest p.maxBackoff))
        ≤ ⌊(nearest p.maxBackoff : ℚ)⌋₊ :=
          (min_le_left _ _).trans (Nat.floor_mono (min_le_right _ _))
      _ = nearest p.maxBackoff := Nat.floor_natCast _

lemma Admissible.exactDelay_le_cap_iff (hp : p.Admissible) :
    p.exactDelay s ≤ p.maxBackoff ↔
      nearest p.maxBackoff ≤ p.maxBackoff ∨ p.maxBackoff = UInt64.size - 1 ∨
        p.initialBackoff = 0 ∨ p.growth s < p.maxBackoff + 1 := by
  by_cases h : p.initialBackoff = 0
  · simp [exactDelay_of_zero h, h]
  · have hlimit : UInt64.size - 1 ≤ p.maxBackoff ↔ p.maxBackoff = UInt64.size - 1 := by
      have hcap := hp.cap_lt
      omega
    have hfloor : ⌊min (p.growth s) (nearest p.maxBackoff)⌋₊ ≤ p.maxBackoff ↔
        p.growth s < p.maxBackoff + 1 ∨ nearest p.maxBackoff ≤ p.maxBackoff := by
      rw [← Nat.lt_succ_iff, Nat.floor_lt (le_min hp.growth_nonneg (Nat.cast_nonneg _)), min_lt_iff,
        Nat.cast_lt, Nat.cast_succ, Nat.lt_succ_iff]
    rw [exactDelay_eq hp h, exactArithmetic, min_le_iff, hfloor, hlimit]
    constructor
    · rintro ((hgrowth | hrounded) | hgreatest)
      · exact .inr (.inr (.inr hgrowth))
      · exact .inl hrounded
      · exact .inr (.inl hgreatest)
    · rintro (hrounded | hgreatest | hzero | hgrowth)
      · exact .inl (.inr hrounded)
      · exact .inr hgreatest
      · exact absurd hzero h
      · exact .inl (.inl hgrowth)

end RetryPolicy

/-! ## Checked settings -/

namespace Config

variable {c c' : Config} {r s : Nat}

lemma check_eq_ok (h : c.check = .ok c') :
    c' = c ∧ Binary64.isFinite c.retry.multiplier = true ∧ 1.0 ≤ c.retry.multiplier := by
  rw [check] at h
  split_ifs at h with _ _ _ hmultiplier
  cases h
  rw [Bool.and_eq_true, decide_eq_true_eq] at hmultiplier
  exact ⟨rfl, hmultiplier⟩

lemma admissible_of_check (h : c.check = .ok c') (hinitial : c'.retry.initialBackoff < UInt64.size)
    (hcap : c'.retry.maxBackoff < UInt64.size) : c'.retry.Admissible := by
  obtain ⟨rfl, hfinite, hone⟩ := check_eq_ok h
  refine ⟨?_, hinitial, hcap⟩
  rw [RetryPolicy.factor, ← Binary64.value_one]
  exact (Binary64.le_iff_value_le Binary64.isFinite_one hfinite).1 hone

/-- Under checked settings a later retry waits at least as long as an earlier one, unless the last
growing retry lies between them; then it does so only where there is nothing to grow or the later
delay is capped again.  No delay exceeds the cap by more than one part in `2 ^ 53`, and it exceeds
the cap only if the nearest double does and the delay has grown that far. -/
theorem backoff_grows_iff (hcheck : c.check = .ok c')
    (hinitial : c'.retry.initialBackoff < UInt64.size)
    (hcap : c'.retry.maxBackoff < UInt64.size) (hrs : r ≤ s) (hs : s < UInt32.size) :
    (c'.retry.exactDelay r ≤ c'.retry.exactDelay s ↔
      s ≤ lastGrowing ∨ lastGrowing < r ∨ c'.retry.initialBackoff = 0 ∨ c'.retry.factor = 1 ∨
        nearest c'.retry.maxBackoff ≤ c'.retry.growth s) ∧
    c'.retry.exactDelay s ≤ c'.retry.maxBackoff + c'.retry.maxBackoff / 2 ^ 53 ∧
    (c'.retry.exactDelay s ≤ c'.retry.maxBackoff ↔
      nearest c'.retry.maxBackoff ≤ c'.retry.maxBackoff ∨
        c'.retry.maxBackoff = UInt64.size - 1 ∨ c'.retry.initialBackoff = 0 ∨
        c'.retry.growth s < c'.retry.maxBackoff + 1) := by
  have hp := admissible_of_check hcheck hinitial hcap
  exact ⟨hp.exactDelay_le_iff hrs hs, hp.exactDelay_le_nearest.trans (Binary64.nearest_le_add _),
    hp.exactDelay_le_cap_iff⟩

/-- Attempts without limit, with delays that double from 100 up to 350 milliseconds. -/
def doubling : Config := { standard with retry := ⟨none, 100, 2.0, 350⟩ }

theorem backoff_grows_iff_doubling :
    doubling.check = .ok doubling ∧
      doubling.retry.exactDelay 2 ≤ doubling.retry.exactDelay 3 ∧
      doubling.retry.exactDelay 2147483649 ≤ doubling.retry.exactDelay 4294967295 ∧
      doubling.retry.exactDelay 4294967295 ≤ 350 := by
  have hcheck : doubling.check = .ok doubling := rfl
  have hbefore := backoff_grows_iff (r := 2) (s := 3) hcheck (by decide) (by decide) (by decide)
    (by decide)
  have hafter := backoff_grows_iff (r := 2147483649) (s := 4294967295) hcheck (by decide)
    (by decide) (by decide) (by decide)
  exact ⟨hcheck, hbefore.1.2 (.inl (by decide)), hafter.1.2 (.inr (.inl (by decide))),
    hafter.2.2.2 (.inl (by decide +kernel))⟩

lemma admissible_doubling : doubling.retry.Admissible :=
  admissible_of_check (c := doubling) rfl (by decide) (by decide)

/-- Attempts without limit, all after a delay that no double is equal to. -/
def steady : Config := { standard with retry := ⟨none, 2 ^ 53 + 3, 1.0, 2 ^ 53 + 3⟩ }

/-- Behind the last growing retry a delay may fall below the earlier ones, and a cap between two
doubles may be exceeded; doubles show both as well. -/
theorem backoff_collapses :
    (doubling.check = .ok doubling ∧
      doubling.retry.exactDelay 2147483649 < doubling.retry.exactDelay 2 ∧
      doubling.retry.delayFor 2 = 200 ∧ doubling.retry.delayFor 2147483649 = 0) ∧
    steady.check = .ok steady ∧
      steady.retry.maxBackoff < steady.retry.exactDelay 1 ∧
      steady.retry.maxBackoff < steady.retry.delayFor 1 := by
  have hfactor : doubling.retry.factor = 2 := by decide +kernel
  have hgrows : 1 < doubling.retry.factor := by rw [hfactor]; exact one_lt_two
  have hopen : doubling.retry.growth 2147483649 < nearest doubling.retry.maxBackoff := by
    calc doubling.retry.growth 2147483649 < nearest doubling.retry.initialBackoff :=
          RetryPolicy.growth_lt hgrows (by decide) (by decide)
      _ ≤ nearest doubling.retry.maxBackoff := by decide +kernel
  have hshrinks : doubling.retry.exactDelay 2147483649 < doubling.retry.exactDelay 2 :=
    admissible_doubling.exactDelay_lt hgrows (by decide) (by decide) (by decide) (by decide) hopen
  exact ⟨⟨rfl, hshrinks, by decide +kernel, by decide +kernel⟩, rfl, by decide +kernel,
    by decide +kernel⟩

end Config

end ProcessEngine

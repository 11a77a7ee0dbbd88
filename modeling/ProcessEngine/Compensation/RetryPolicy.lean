import ProcessEngine.Binary64.Reading

/-!
# Retry policies

How often a failing compensation is tried again, and how long is waited before.  The delay grows by
a factor per retry up to a cap.  It is computed in doubles; the computation itself is written over
any arithmetic, so that its law can be stated where products are exact.
-/

namespace ProcessEngine

/-- How often and how fast a failing compensation is repeated.  No number of attempts means no
limit; the back-off times are in milliseconds. -/
structure RetryPolicy where
  maxAttempts : Option Nat
  initialBackoff : Nat
  multiplier : Float
  maxBackoff : Nat
deriving DecidableEq, Inhabited

namespace RetryPolicy

/-- Three attempts, one right after the other. -/
def standard : RetryPolicy := ⟨some 3, 0, 2.0, 5000⟩

/-- Attempts without limit, one right after the other. -/
def unbounded : RetryPolicy := ⟨none, 0, 1.0, 0⟩

/-- Whether another attempt may follow the given number of attempts. -/
def allowsAnother (p : RetryPolicy) (attempts : Nat) : Bool :=
  match p.maxAttempts with
  | some limit => decide (attempts < limit)
  | none => true

end RetryPolicy

/-! ## Back-off -/

/-- The operations that a back-off is computed with. -/
structure BackoffArithmetic (α : Type) where
  ofNat : Nat → α
  mul : α → α → α
  inverse : α → α
  min : α → α → α
  atLeastOne : α → α
  floor : α → Nat

namespace BackoffArithmetic

variable {α : Type} (A : BackoffArithmetic α)

/-- Multiplies `acc` by a power of `base`, one squaring per binary digit of the exponent. -/
def powerLoop : Nat → α → α → Nat → α
  | 0, acc, _, _ => acc
  | fuel + 1, acc, base, exponent =>
    let acc := if exponent % 2 = 1 then A.mul acc base else acc
    if exponent / 2 = 0 then acc else powerLoop fuel acc (A.mul base base) (exponent / 2)

/-- A power with an integer exponent. -/
def power (base : α) (exponent : Int) : α :=
  let magnitude := powerLoop A (exponent.natAbs + 1) (A.ofNat 1) base exponent.natAbs
  if exponent < 0 then A.inverse magnitude else magnitude

/-- The delay before a retry, counted from one.  The exponent is one less than the retry, kept in 32
signed bits; a factor below one counts as one. -/
def delay (initial : Nat) (multiplier : α) (cap retry : Nat) : Nat :=
  if initial = 0 then 0
  else
    let exponent := Int.bmod (retry - 1 : Nat) UInt32.size
    let factor := A.power (A.atLeastOne multiplier) exponent
    A.floor (A.min (A.mul (A.ofNat initial) factor) (A.ofNat cap))

end BackoffArithmetic

/-- Back-off in doubles.  What is not a number counts as one; a result beyond 64 bits is cut off. -/
def doubleArithmetic : BackoffArithmetic Float where
  ofNat n := Binary64.ofInt n
  mul := (· * ·)
  inverse x := 1.0 / x
  min x y := if y < x then y else x
  atLeastOne x := if 1.0 < x then x else 1.0
  floor x := x.toUInt64.toNat

/-- The delay in milliseconds before a retry, counted from one. -/
def RetryPolicy.delayFor (p : RetryPolicy) (retry : Nat) : Nat :=
  doubleArithmetic.delay p.initialBackoff p.multiplier p.maxBackoff retry

end ProcessEngine

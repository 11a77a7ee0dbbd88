/-!
# Doubles taken apart

A finite double is a sign, a natural significand and a power of two.  `parts?` takes it apart,
`ofParts` puts one together again, and the exact algorithms of the library (remainder, decimal text)
work on natural numbers between the two.
-/

namespace ProcessEngine.Binary64

/-- A finite double: `± significand · 2 ^ exponent`. -/
structure Parts where
  negative : Bool
  significand : Nat
  exponent : Int
deriving DecidableEq, Repr

/-- The bit pattern of a double as a number. -/
def bits (x : Float) : Nat := x.toBits.toNat

/-- Takes a finite double apart; infinities and the undefined value have no parts.

Subnormal values share the least exponent; all others carry the implicit leading bit. -/
def parts? (x : Float) : Option Parts :=
  let fraction : Nat := bits x % Nat.pow 2 52
  let biased : Nat := bits x / Nat.pow 2 52 % Nat.pow 2 11
  let negative := bits x / Nat.pow 2 63 == 1
  if biased = 2047 then none
  else if biased = 0 then some ⟨negative, fraction, -1074⟩
  else some ⟨negative, fraction + Nat.pow 2 52, (biased : Int) - 1075⟩

/-- The double with the given parts, for a significand below `2 ^ 53` and an exponent from `-1074`
up to `971`: the significand is moved up until its leading bit stands at the top or the exponent is
the least one, so no bit is lost. -/
def ofParts (p : Parts) : Float :=
  let room := 52 - Nat.log2 p.significand
  let shift := min room (p.exponent + 1074).toNat
  let significand := p.significand <<< shift
  let exponent := p.exponent - shift
  let magnitude :=
    if significand < Nat.pow 2 52 then significand
    else (exponent + 1075).toNat * Nat.pow 2 52 + (significand - Nat.pow 2 52)
  Float.ofBits (UInt64.ofNat (if p.negative then magnitude + Nat.pow 2 63 else magnitude))

/-- Whether a double is neither infinite nor undefined. -/
def isFinite (x : Float) : Bool := (parts? x).isSome

end ProcessEngine.Binary64

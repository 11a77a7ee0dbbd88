import ProcessEngine.Binary64.Parts

/-!
# The shortest decimal of a double

Every decimal within half a step of a double reads back as that double.  `shortest` picks, among
those with the fewest digits, the one nearest to the double, by exact arithmetic on natural numbers.
-/

namespace ProcessEngine.Binary64

/-- The number `digits · 10 ^ exponent`. -/
structure Decimal where
  digits : Nat
  exponent : Int
deriving DecidableEq, Repr

/-- How many decimal digits a positive number has. -/
def digitCount (n : Nat) : Nat := (Nat.toDigits 10 n).length

/-- A positive double as a fraction with its two rounding bounds over the same denominator.

`low` and `high` lie halfway to the neighbouring doubles.  Just above a power of two the neighbour
below is only half as far away.  The bounds themselves read back iff the significand is even. -/
structure Interval where
  low : Nat
  value : Nat
  high : Nat
  denominator : Nat
  closed : Bool
deriving DecidableEq, Repr

/-- The rounding interval of a positive finite double. -/
def Interval.ofParts (p : Parts) : Interval :=
  let narrow := p.significand = Nat.pow 2 52 && decide (-1074 < p.exponent)
  let up := Nat.pow 2 p.exponent.toNat
  { low := (4 * p.significand - (if narrow then 1 else 2)) * up
    value := 4 * p.significand * up
    high := (4 * p.significand + 2) * up
    denominator := 4 * Nat.pow 2 (-p.exponent).toNat
    closed := p.significand % 2 == 0 }

/-- The numerator of `digits · 10 ^ exponent` and the factor by which the interval has to be scaled
so that both stand over the same denominator. -/
def Decimal.scaled (d : Decimal) (i : Interval) : Nat × Nat :=
  (d.digits * Nat.pow 10 d.exponent.toNat * i.denominator, Nat.pow 10 (-d.exponent).toNat)

/-- Whether a decimal lies in the interval, so that it reads back as the double. -/
def Interval.holds (i : Interval) (d : Decimal) : Bool :=
  let (n, scale) := d.scaled i
  if i.closed then decide (i.low * scale ≤ n) && decide (n ≤ i.high * scale)
  else decide (i.low * scale < n) && decide (n < i.high * scale)

/-- The distance of a decimal from the double, over the denominator shared by all decimals with the
same exponent. -/
def Interval.distance (i : Interval) (d : Decimal) : Nat :=
  let (n, scale) := d.scaled i
  (n - i.value * scale) + (i.value * scale - n)

/-- The decimal exponent of the leading digit: the greatest `e` with `10 ^ e` at most the value. -/
def Interval.magnitude (i : Interval) : Int :=
  if i.denominator ≤ i.value then (digitCount (i.value / i.denominator) : Int) - 1
  else
    let j := digitCount (i.denominator / i.value) - 1
    if i.denominator ≤ i.value * Nat.pow 10 j then -(j : Int) else -(j : Int) - 1

/-- The best decimal on the grid of multiples of `10 ^ exponent`: one of the two grid points around
the value, if it reads back.  Of two that do the nearer one is taken, of two equally near ones the
one with an even last digit. -/
def Interval.candidate (i : Interval) (exponent : Int) : Option Decimal :=
  let below : Decimal :=
    ⟨i.value * Nat.pow 10 (-exponent).toNat / (i.denominator * Nat.pow 10 exponent.toNat),
      exponent⟩
  let above : Decimal := ⟨below.digits + 1, exponent⟩
  match i.holds below, i.holds above with
  | false, false => none
  | true, false => some below
  | false, true => some above
  | true, true =>
    let d := i.distance below
    let u := i.distance above
    if d < u || (d == u && below.digits % 2 == 0) then some below else some above

/-- The first grid, from coarse to fine, with a point that reads back. -/
def Interval.search (i : Interval) : Nat → Int → Option Decimal
  | 0, _ => none
  | n + 1, exponent =>
    match i.candidate exponent with
    | some d => some d
    | none => i.search n (exponent - 1)

/-- Moves trailing zeros of the digits into the exponent. -/
def Decimal.strip : Nat → Decimal → Decimal
  | 0, d => d
  | n + 1, d =>
    if d.digits % 10 = 0 then Decimal.strip n ⟨d.digits / 10, d.exponent + 1⟩ else d

/-- The exact value of the parts as a decimal: a half is five tenths. -/
def exact (p : Parts) : Decimal :=
  ⟨p.significand * Nat.pow 2 p.exponent.toNat * Nat.pow 5 (-p.exponent).toNat,
    -((-p.exponent).toNat : Int)⟩

/-- The shortest decimal that reads back as a double of the given parts, for which seventeen digits
suffice.  Zero is the decimal zero. -/
def shortest (p : Parts) : Decimal :=
  if p.significand = 0 then ⟨0, 0⟩
  else
    let i := Interval.ofParts p
    match i.search 17 i.magnitude with
    | some d => d.strip 17
    | none => exact p

end ProcessEngine.Binary64

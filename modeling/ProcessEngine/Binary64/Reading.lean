/-!
# Reading decimals as doubles

The double nearest to a decimal, ties to even.  The magnitude is looked at first, so that an
exponent far outside the range of doubles costs nothing.
-/

namespace ProcessEngine.Binary64

/-- The double nearest to `mantissa · 10 ^ exponent`.  Above `10 ^ 309` every decimal rounds to
infinity, below `10 ^ -325` to zero. -/
def ofDecimal (mantissa : Nat) (exponent : Int) : Float :=
  if mantissa = 0 then 0.0
  else
    let magnitude := exponent + (Nat.toDigits 10 mantissa).length
    if 310 < magnitude then 1.0 / 0.0
    else if magnitude < -330 then 0.0
    else if exponent < 0 then Float.ofScientific mantissa true exponent.natAbs
    else Float.ofScientific mantissa false exponent.natAbs

/-- The double nearest to an integer. -/
def ofInt (i : Int) : Float :=
  if i < 0 then -(ofDecimal i.natAbs 0) else ofDecimal i.natAbs 0

end ProcessEngine.Binary64

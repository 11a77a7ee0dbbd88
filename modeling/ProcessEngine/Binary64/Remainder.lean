import ProcessEngine.Binary64.Parts

/-!
# The exact remainder of two doubles

`remainder x y` is `x - n · y` for the integer `n` that truncates the quotient.  It is computed
without rounding: both operands are brought to the smaller of their two exponents, where they are
integers, and the remainder of the integers is a double again.
-/

namespace ProcessEngine.Binary64

/-- The truncated remainder with the sign of the dividend, which a zero remainder keeps too.
A divisor that is zero, or an operand that is not finite, leaves no remainder but the undefined
value, except that a finite dividend is its own remainder under an infinite divisor. -/
def remainder (x y : Float) : Float :=
  match parts? x, parts? y with
  | some a, some b =>
    if b.significand = 0 then 0.0 / 0.0
    else
      let exponent := min a.exponent b.exponent
      let dividend := a.significand <<< (a.exponent - exponent).toNat
      let divisor := b.significand <<< (b.exponent - exponent).toNat
      ofParts ⟨a.negative, dividend % divisor, exponent⟩
  | some _, none => if y == y then x else y
  | none, _ => 0.0 / 0.0

end ProcessEngine.Binary64

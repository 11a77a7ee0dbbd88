import ProcessEngine.Binary64.Shortest

/-!
# The text of a double

A double is written with its shortest digits.  How they are laid out (where positional notation
ends, whether an integral value keeps its point) is a `Layout`, chosen where the text is written.
-/

namespace ProcessEngine.Binary64

/-- The decisions of a text format for doubles: for which `e` a value `d.ddd · 10 ^ e` is written
positionally and not with a signed exponent, and whether integral values keep their `.0`. -/
structure Layout where
  positional : Int → Bool
  point : Bool

/-- Positional notation: the digits with a point placed by the exponent. -/
def positionalText (digits : List Char) (exponent : Int) (point : Bool) : List Char :=
  if 0 ≤ exponent then
    digits ++ List.replicate exponent.toNat '0' ++ (if point then ['.', '0'] else [])
  else
    let places := (-exponent).toNat
    if places < digits.length then
      digits.take (digits.length - places) ++ '.' :: digits.drop (digits.length - places)
    else ['0', '.'] ++ List.replicate (places - digits.length) '0' ++ digits

/-- Exponent notation: one digit, the others behind a point, and a signed exponent. -/
def exponentText (digits : List Char) (magnitude : Int) : List Char :=
  let mantissa := match digits with
    | [] => []
    | [d] => [d]
    | d :: rest => d :: '.' :: rest
  let sign := if magnitude < 0 then '-' else '+'
  mantissa ++ 'e' :: sign :: Nat.toDigits 10 magnitude.natAbs

/-- The text of the finite double with the given parts. -/
def Layout.partsText (l : Layout) (p : Parts) : List Char :=
  let d := shortest p
  let digits := Nat.toDigits 10 d.digits
  let magnitude := d.exponent + digits.length - 1
  let body :=
    if l.positional magnitude then positionalText digits d.exponent l.point
    else exponentText digits magnitude
  if p.negative then '-' :: body else body

/-- The text of a double; the values that are not finite are written `inf`, `-inf` and `NaN`. -/
def Layout.text (l : Layout) (x : Float) : String :=
  match parts? x with
  | some p => String.ofList (l.partsText p)
  | none => if x == x then (if x < 0 then "-inf" else "inf") else "NaN"

/-- Doubles as they stand in structured values: positional from `10 ^ -5` up to below `10 ^ 16`, and
always told apart from integers by a point or an exponent. -/
def valueLayout : Layout := ⟨fun e => decide (-5 ≤ e) && decide (e ≤ 15), true⟩

/-- Doubles as they stand in settings and messages: always positional, integral values without a
point. -/
def plainLayout : Layout := ⟨fun _ => true, false⟩

end ProcessEngine.Binary64

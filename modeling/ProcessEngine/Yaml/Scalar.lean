import ProcessEngine.Binary64.Reading
import ProcessEngine.Text.Digits

/-!
# Scalars of a settings text

A scalar is a string together with how it is written.  Numbers, booleans and null are plain scalars
of a certain form; a quoted scalar is always a string, and a literal block is one unless its tag
says what it is.
-/

namespace ProcessEngine.Yaml

open ProcessEngine.Text

/-- How a scalar is written. -/
inductive Style where
  | plain
  | quoted
  | literal
  | folded
deriving DecidableEq, Repr, Inhabited

/-- A scalar with the tag in front of it, if there is one. -/
structure Scalar where
  text : String
  style : Style
  tag : Option String
deriving DecidableEq, Repr, Inhabited

namespace Scalar

/-- A scalar that is left out. -/
def empty : Scalar := ⟨"", .plain, none⟩

/-- Whether the scalar is plain without characters, as one that is left out is. -/
def isLeftOut (s : Scalar) : Bool := s.style == .plain && s.text.isEmpty

/-- The tag of a standard type. -/
def standardTag (type : String) : String := "tag:yaml.org,2002:" ++ type

/-- Whether the scalar may stand for a value of a standard type other than string. -/
def mayBe (type : String) (s : Scalar) : Bool :=
  match s.style with
  | .plain => true
  | .literal => s.tag == some (standardTag type)
  | _ => false

end Scalar

/-! ## Forms of plain scalars -/

/-- The value of a digit in a base up to 16. -/
def digitBelow (base : Nat) (c : Char) : Option Nat :=
  (hexDigit? c).filter (· < base)

/-- The number that digits of a base write, at least one of them. -/
def radixValue? (base : Nat) : List Char → Option Nat
  | [] => none
  | cs => cs.foldl (fun n c => n.bind fun n => (digitBelow base c).map (base * n + ·)) (some 0)

/-- An integer without a sign: decimal without leading zeros, or hexadecimal, octal or binary behind
`0x`, `0o` or `0b`; a plus sign may stand in front. -/
def unsigned? (text : String) : Option Nat :=
  let cs := match text.toList with
    | '+' :: rest => rest
    | cs => cs
  match cs with
  | '0' :: 'x' :: rest => radixValue? 16 rest
  | '0' :: 'o' :: rest => radixValue? 8 rest
  | '0' :: 'b' :: rest => radixValue? 2 rest
  | '0' :: _ :: _ => none
  | cs => radixValue? 10 cs

/-- The exponent behind an `e`, and nothing behind that. -/
def exponent? : List Char → Option Int
  | [] => some 0
  | c :: rest =>
    if c = 'e' || c = 'E' then
      match rest with
      | '-' :: ds => (radixValue? 10 ds).map fun n => -(n : Int)
      | '+' :: ds => (radixValue? 10 ds).map fun n => (n : Int)
      | ds => (radixValue? 10 ds).map fun n => (n : Int)
    else none

/-- A decimal without a sign, with digits before or behind its point. -/
def decimal? (cs : List Char) : Option Float := do
  let whole := cs.takeWhile isDigit
  let (fractional, rest) := match cs.dropWhile isDigit with
    | '.' :: rest => (rest.takeWhile isDigit, rest.dropWhile isDigit)
    | rest => ([], rest)
  if whole.isEmpty && fractional.isEmpty then none
  else
    let e ← exponent? rest
    let x := Binary64.ofDecimal (decimalValue (whole ++ fractional)) (e - fractional.length)
    if x == 1.0 / 0.0 then none else some x

/-- A double: a decimal, or one of the names of infinity and of what is not a number. -/
def float? (text : String) : Option Float :=
  let infinities := [".inf", ".Inf", ".INF"]
  if infinities.contains text || infinities.any (fun s => "+" ++ s == text) then some (1.0 / 0.0)
  else if infinities.any (fun s => "-" ++ s == text) then some (-(1.0 / 0.0))
  else if [".nan", ".NaN", ".NAN"].contains text then some (0.0 / 0.0)
  else
    match text.toList with
    | '+' :: cs => decimal? cs
    | '-' :: cs => (decimal? cs).map fun x => -x
    | cs => decimal? cs

/-- A boolean. -/
def bool? (text : String) : Option Bool :=
  if ["true", "True", "TRUE"].contains text then some true
  else if ["false", "False", "FALSE"].contains text then some false
  else none

/-- Whether a text is a name of null. -/
def isNull (text : String) : Bool := ["null", "Null", "NULL", "~"].contains text

end ProcessEngine.Yaml

import ProcessEngine.Value
import ProcessEngine.Text.Digits
import ProcessEngine.Text.Blank

/-!
# Values read from text

A strict reader: no comments, no trailing commas, and nothing but white space after the value.
Fields come out as they stand in the text, so that a decoder can refuse a field given twice.

A number that is too large for a double and a string with an unpaired surrogate are well-formed but
stand for no value, and so does a record with such a name.  `read` refuses them, and more than 127
levels of nesting too; `readAround` puts a value of the caller's choice in their place and reads any
nesting.  `readValue` reads strictly and brings the result to canonical form.
-/

namespace ProcessEngine.Json

open ProcessEngine.Text

/-- A step of the reader: what was read and the rest, or nothing if the text is malformed. -/
abbrev Reader (α : Type) := List Char → Option (α × List Char)

/-- Drops the white space between tokens. -/
def skipSpaces (cs : List Char) : List Char := cs.dropWhile isSpace

/-- Takes a fixed run of characters off the front. -/
def dropText : List Char → List Char → Option (List Char)
  | [], rest => some rest
  | _ :: _, [] => none
  | p :: ps, c :: cs => if p = c then dropText ps cs else none

/-! ## Numbers -/

/-- A run of digits. -/
def digits (cs : List Char) : List Char × List Char := (cs.takeWhile isDigit, cs.dropWhile isDigit)

/-- The digits behind a decimal point, if there is one. -/
def fraction : Reader (List Char)
  | '.' :: rest =>
    match digits rest with
    | ([], _) => none
    | (ds, rest) => some (ds, rest)
  | rest => some ([], rest)

/-- The exponent behind an `e`, if there is one. -/
def exponent : Reader (Option Int)
  | c :: rest =>
    if c = 'e' || c = 'E' then
      let (negative, rest) := match rest with
        | '-' :: rest => (true, rest)
        | '+' :: rest => (false, rest)
        | rest => (false, rest)
      match digits rest with
      | ([], _) => none
      | (ds, rest) =>
        let n : Int := decimalValue ds
        some (some (if negative then -n else n), rest)
    else some (none, c :: rest)
  | [] => some (none, [])

/-- The number with the given sign and digits.  Without point and exponent it is an integer if it
fits in 64 bits, with or without a sign; minus zero and all others are doubles.  There is none if it
is too large for a double. -/
def numberOf (negative : Bool) (whole fractional : List Char) (exponent : Option Int) :
    Option Number :=
  let signed (x : Float) : Option Number :=
    if x == 1.0 / 0.0 then none else some (.float (if negative then -x else x))
  match fractional, exponent with
  | [], none =>
    let n := decimalValue whole
    if !negative && decide (n < UInt64.size) then some (.int n)
    else if negative && decide (0 < n) && decide (n ≤ Nat.pow 2 63) then some (.int (-n))
    else signed (Binary64.ofDecimal n 0)
  | _, e =>
    signed (Binary64.ofDecimal (decimalValue (whole ++ fractional))
      (e.getD 0 - fractional.length))

/-- A number, if there is one of that size; its whole part has no zero in front of other digits. -/
def number : Reader (Option Number) := fun cs => do
  let (negative, cs) := match cs with
    | '-' :: rest => (true, rest)
    | cs => (false, cs)
  let (whole, cs) := digits cs
  if whole.isEmpty || (whole.head? == some '0' && decide (1 < whole.length)) then none
  else
    let (fractional, cs) ← fraction cs
    let (e, cs) ← exponent cs
    some (numberOf negative whole fractional e, cs)

/-! ## Strings -/

/-- Four hexadecimal digits. -/
def fourHex : Reader Nat
  | a :: b :: c :: d :: rest => (hexValue? [a, b, c, d]).map (·, rest)
  | _ => none

/-- The character behind `\u`: one code unit, or two that form a surrogate pair.  A surrogate that is
not part of a pair stands for no character. -/
def unicodeEscape : Reader (Option Char) := fun cs =>
  match fourHex cs with
  | none => none
  | some (unit, cs) =>
    if unit < 0xD800 || 0xE000 ≤ unit then some (some (Char.ofNat unit), cs)
    else
      match cs with
      | '\\' :: 'u' :: rest =>
        match fourHex rest with
        | none => none
        | some (low, rest) =>
          if unit < 0xDC00 && 0xDC00 ≤ low && low < 0xE000 then
            some (some (Char.ofNat (0x10000 + (unit - 0xD800) * 0x400 + (low - 0xDC00))), rest)
          else some (none, cs)
      | _ => some (none, cs)

/-- The character behind a backslash. -/
def escape : Reader (Option Char)
  | '"' :: rest => some (some '"', rest)
  | '\\' :: rest => some (some '\\', rest)
  | '/' :: rest => some (some '/', rest)
  | 'b' :: rest => some (some '\x08', rest)
  | 'f' :: rest => some (some '\x0c', rest)
  | 'n' :: rest => some (some '\n', rest)
  | 'r' :: rest => some (some '\r', rest)
  | 't' :: rest => some (some '\t', rest)
  | 'u' :: rest => unicodeEscape rest
  | _ => none

/-- The characters of a string up to its closing quote, last one first, if all of them are
characters. -/
def stringChars : Nat → Option (List Char) → Reader (Option (List Char))
  | 0, _, _ => none
  | _ + 1, _, [] => none
  | n + 1, acc, c :: rest =>
    if c = '"' then some (acc, rest)
    else if c = '\\' then
      match escape rest with
      | some (d, rest) => stringChars n (acc.bind fun acc => d.map (· :: acc)) rest
      | none => none
    else if c.toNat < 32 then none
    else stringChars n (acc.map (c :: ·)) rest

/-- A string behind its opening quote, if it stands for one. -/
def stringBody : Reader (Option String) := fun cs =>
  (stringChars (cs.length + 1) (some []) cs).map fun (chars, rest) =>
    (chars.map fun chars => String.ofList chars.reverse, rest)

/-! ## Values -/

/-- The items of a list behind its opening bracket, at least one, last one first. -/
def itemsWith (value : Reader Value) : Nat → List Value → Reader (List Value)
  | 0, _, _ => none
  | n + 1, acc, cs =>
    match value cs with
    | none => none
    | some (v, cs) =>
      match skipSpaces cs with
      | ',' :: cs => itemsWith value n (v :: acc) cs
      | ']' :: cs => some (v :: acc, cs)
      | _ => none

/-- The fields of a record behind its opening brace, at least one, last one first. -/
def fieldsWith (value : Reader Value) :
    Nat → List (Option String × Value) → Reader (List (Option String × Value))
  | 0, _, _ => none
  | n + 1, acc, cs =>
    match skipSpaces cs with
    | '"' :: cs =>
      match stringBody cs with
      | none => none
      | some (name, cs) =>
        match skipSpaces cs with
        | ':' :: cs =>
          match value cs with
          | none => none
          | some (v, cs) =>
            match skipSpaces cs with
            | ',' :: cs => fieldsWith value n ((name, v) :: acc) cs
            | '\x7d' :: cs => some ((name, v) :: acc, cs)
            | _ => none
        | _ => none
    | _ => none

/-- The record of the given fields, last one first.  If a name stands for no string, then `fault`
stands for the record. -/
def recordOf (fault : Option Value) (fields : List (Option String × Value)) : Option Value :=
  match fields.reverse.mapM fun (name, v) => name.map (·, v) with
  | some fields => some (.object fields)
  | none => fault

/-- A value nested less deeply than the given depth, after optional white space; `fault` stands for
what is well-formed but no value. -/
def value (fault : Option Value) : Nat → Reader Value
  | depth, cs =>
    match skipSpaces cs with
    | '"' :: rest =>
      match stringBody rest with
      | some (s, rest) => ((s.map Value.string) <|> fault).map (·, rest)
      | none => none
    | '[' :: rest =>
      match depth with
      | 0 => none
      | depth + 1 =>
        match skipSpaces rest with
        | ']' :: rest => some (.array [], rest)
        | rest =>
          (itemsWith (value fault depth) rest.length [] rest).map fun (items, rest) =>
            (.array items.reverse, rest)
    | '\x7b' :: rest =>
      match depth with
      | 0 => none
      | depth + 1 =>
        match skipSpaces rest with
        | '\x7d' :: rest => some (.object [], rest)
        | rest =>
          match fieldsWith (value fault depth) rest.length [] rest with
          | some (fields, rest) => (recordOf fault fields).map (·, rest)
          | none => none
    | 't' :: rest => (dropText ['r', 'u', 'e'] rest).map fun rest => (.bool true, rest)
    | 'f' :: rest => (dropText ['a', 'l', 's', 'e'] rest).map fun rest => (.bool false, rest)
    | 'n' :: rest => (dropText ['u', 'l', 'l'] rest).map fun rest => (.null, rest)
    | rest =>
      match number rest with
      | some (n, rest) => ((n.map Value.number) <|> fault).map (·, rest)
      | none => none

/-- The value that a text holds, and nothing but white space after it. -/
def whole (value : Reader Value) (text : String) : Option Value :=
  match value text.toList with
  | some (v, rest) => if (skipSpaces rest).isEmpty then some v else none
  | none => none

/-- How deeply lists and records of a value may be nested. -/
def nestingLimit : Nat := 127

/-- Reads a text that holds one value, its fields as they stand in the text. -/
def read (text : String) : Option Value := whole (value none nestingLimit) text

/-- Reads a text of any nesting, with `fault` in place of all that is well-formed but no value. -/
def readAround (fault : Value) (text : String) : Option Value :=
  whole (value (some fault) text.length) text

/-- Reads a text that holds one value and brings it to canonical form. -/
def readValue (text : String) : Option Value := (read text).map Value.canonical

end ProcessEngine.Json

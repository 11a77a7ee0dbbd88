import ProcessEngine.Value
import ProcessEngine.Binary64.Layout
import ProcessEngine.Text.Digits

/-!
# Values as compact text

The one-line text of a value: no blanks, record fields in their order, and in strings only the
quote, the backslash and the control characters escaped.
-/

namespace ProcessEngine.Json

/-- One character inside a quoted string. -/
def escapeChar (c : Char) : List Char :=
  if c = '"' then ['\\', '"']
  else if c = '\\' then ['\\', '\\']
  else if c = '\x08' then ['\\', 'b']
  else if c = '\x0c' then ['\\', 'f']
  else if c = '\n' then ['\\', 'n']
  else if c = '\r' then ['\\', 'r']
  else if c = '\t' then ['\\', 't']
  else if c.toNat < 32 then ['\\', 'u', '0', '0'] ++ Text.padded 16 2 c.toNat
  else [c]

/-- A string between quotes. -/
def quoteChars (cs : List Char) : List Char := '"' :: (cs.flatMap escapeChar ++ ['"'])

/-- A string between quotes. -/
def quote (s : String) : String := String.ofList (quoteChars s.toList)

/-- The text of a number. -/
def numberText : Number → String
  | .int i => toString i
  | .float x => Binary64.valueLayout.text x

mutual

/-- The compact text of a value. -/
def write : Value → String
  | .null => "null"
  | .bool b => if b then "true" else "false"
  | .number n => numberText n
  | .string s => quote s
  | .array items => "[" ++ writeItems items ++ "]"
  | .object fields => "\x7b" ++ writeFields fields ++ "\x7d"

/-- The items of a list, separated by commas. -/
def writeItems : List Value → String
  | [] => ""
  | [v] => write v
  | v :: rest => write v ++ "," ++ writeItems rest

/-- The fields of a record, separated by commas. -/
def writeFields : List (String × Value) → String
  | [] => ""
  | [(k, v)] => quote k ++ ":" ++ write v
  | (k, v) :: rest => quote k ++ ":" ++ write v ++ "," ++ writeFields rest

end

/-- Blanks in front of a line. -/
def blanks (n : Nat) : String := String.ofList (List.replicate n ' ')

mutual

/-- The text of a value spread over lines, two blanks per level. -/
def writePretty (indent : Nat) : Value → String
  | .array [] => "[]"
  | .array items => "[\n" ++ prettyItems (indent + 2) items ++ "\n" ++ blanks indent ++ "]"
  | .object [] => "\x7b\x7d"
  | .object fields =>
    "\x7b\n" ++ prettyFields (indent + 2) fields ++ "\n" ++ blanks indent ++ "\x7d"
  | .null => "null"
  | .bool b => if b then "true" else "false"
  | .number n => numberText n
  | .string s => quote s

/-- The items of a list, a line each. -/
def prettyItems (indent : Nat) : List Value → String
  | [] => ""
  | [v] => blanks indent ++ writePretty indent v
  | v :: rest =>
    blanks indent ++ writePretty indent v ++ ",\n" ++ prettyItems indent rest

/-- The fields of a record, a line each. -/
def prettyFields (indent : Nat) : List (String × Value) → String
  | [] => ""
  | [(k, v)] => blanks indent ++ quote k ++ ": " ++ writePretty indent v
  | (k, v) :: rest =>
    blanks indent ++ quote k ++ ": " ++ writePretty indent v ++ ",\n" ++
      prettyFields indent rest

end

end ProcessEngine.Json

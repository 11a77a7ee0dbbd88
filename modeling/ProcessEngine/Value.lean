import ProcessEngine.Binary64.Reading

/-!
# Values

What process variables hold: nulls, booleans, numbers, strings, lists and records.  Integers and
doubles are different kinds of number.  A record lists its fields in ascending order of their names,
each name once; `Fields.insert` keeps that order, and texts that give a name twice are brought to it
by `Value.canonical`.
-/

namespace ProcessEngine

/-- A number as written: an integer between `-2 ^ 63` and `2 ^ 64 - 1`, or a finite double. -/
inductive Number where
  | int (value : Int)
  | float (value : Float)
deriving DecidableEq, Inhabited

/-- A structured value. -/
inductive Value where
  | null
  | bool (value : Bool)
  | number (value : Number)
  | string (value : String)
  | array (items : List Value)
  | object (fields : List (String × Value))
deriving Inhabited

/-- The fields of a record. -/
abbrev Fields := List (String × Value)

/-- The variables of a process instance, by name. -/
abbrev Variables := Fields

/-! ## Numbers -/

/-- The integers that fit in 64 bits with a sign: from `-2 ^ 63` up to below `2 ^ 63`. -/
def fitsInt64 (i : Int) : Bool :=
  decide (-9223372036854775808 ≤ i) && decide (i < 9223372036854775808)

namespace Number

/-- The exact integer behind a number; doubles and integers beyond 64 signed bits have none. -/
def toInt? : Number → Option Int
  | .int i => if fitsInt64 i then some i else none
  | .float _ => none

/-- The nearest double. -/
def toFloat : Number → Float
  | .int i => Binary64.ofInt i
  | .float x => x

/-- Equality of kind and value: an integer never equals a double, and the two zeros are equal. -/
def equal : Number → Number → Bool
  | .int a, .int b => a == b
  | .float a, .float b => a == b
  | _, _ => false

end Number

/-! ## Fields -/

namespace Fields

/-- The value of the first field with the given name. -/
def get? : Fields → String → Option Value
  | [], _ => none
  | (k, v) :: rest, name => if k = name then some v else get? rest name

/-- Sets a field: a present name gets the new value where it stands, a new name goes in front of the
first greater one. -/
def insert : Fields → String → Value → Fields
  | [], name, value => [(name, value)]
  | (k, v) :: rest, name, value =>
    if k = name then (name, value) :: rest
    else if name < k then (name, value) :: (k, v) :: rest
    else (k, v) :: insert rest name value

/-- Sets every field of `updates`, the last write winning. -/
def merge (base updates : Fields) : Fields :=
  updates.foldl (fun fields (name, value) => insert fields name value) base

/-- The fields of a list of pairs in ascending order, a later pair replacing an earlier one of the
same name. -/
def ofPairs (pairs : List (String × Value)) : Fields := merge [] pairs

/-- The field names in order. -/
def names (fields : Fields) : List String := fields.map Prod.fst

end Fields

/-! ## Structural equality and canonical form -/

namespace Value

mutual

/-- Equality of structured values: kind by kind, numbers by `Number.equal`. -/
def equal : Value → Value → Bool
  | .null, .null => true
  | .bool a, .bool b => a == b
  | .number a, .number b => a.equal b
  | .string a, .string b => a == b
  | .array a, .array b => equalItems a b
  | .object a, .object b => equalFields a b
  | _, _ => false

/-- Equality of lists, item by item. -/
def equalItems : List Value → List Value → Bool
  | [], [] => true
  | a :: as, b :: bs => equal a b && equalItems as bs
  | _, _ => false

/-- Equality of records, field by field. -/
def equalFields : List (String × Value) → List (String × Value) → Bool
  | [], [] => true
  | (k, a) :: as, (l, b) :: bs => k == l && equal a b && equalFields as bs
  | _, _ => false

end

mutual

/-- Orders the fields of every record and keeps only the last of several fields of one name. -/
def canonical : Value → Value
  | .array items => .array (canonicalItems items)
  | .object fields => .object (Fields.ofPairs (canonicalFields fields))
  | .null => .null
  | .bool b => .bool b
  | .number n => .number n
  | .string s => .string s

/-- The canonical forms of the items of a list. -/
def canonicalItems : List Value → List Value
  | [] => []
  | v :: rest => canonical v :: canonicalItems rest

/-- The fields of a record with their values in canonical form. -/
def canonicalFields : List (String × Value) → List (String × Value)
  | [] => []
  | (k, v) :: rest => (k, canonical v) :: canonicalFields rest

end

/-- An integer as a value. -/
def ofNat (n : Nat) : Value := .number (.int n)

/-- A text that may be missing, as a string or a null. -/
def ofText? : Option String → Value
  | some s => .string s
  | none => .null

/-- A list of texts. -/
def ofTexts (texts : List String) : Value := .array (texts.map .string)

end Value

end ProcessEngine

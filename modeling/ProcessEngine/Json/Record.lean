import ProcessEngine.Value

/-!
# Records with known fields

The rules by which a value is read as a record of known fields.  A record is written by field names,
where unknown names are ignored and a known name stands at most once, or by position, as a list of
its fields in their order with fields left out only at the end.
-/

namespace ProcessEngine.Json

/-- The field of the given name: absent, present once, or a fault. -/
def lookupOnce (fields : Fields) (name : String) : Option (Option Value) :=
  match fields.filter (·.1 == name) with
  | [] => some none
  | [(_, v)] => some (some v)
  | _ => none

/-- The values of the named fields in order, absent ones empty. -/
def recordFields (names : List String) : Value → Option (List (Option Value))
  | .object fields => names.mapM (lookupOnce fields)
  | .array items =>
    if items.length ≤ names.length then
      some (items.map some ++ List.replicate (names.length - items.length) none)
    else none
  | _ => none

/-- The fields of a record none of which may be left out by position. -/
def wholeRecord (names : List String) : Value → Option (List (Option Value))
  | .array items =>
    if items.length = names.length then recordFields names (.array items) else none
  | v => recordFields names v

/-- The tag of a tagged record and what stands beside it.  By position the tag comes first. -/
def tagged (tag : String) : Value → Option (String × Value)
  | .object fields =>
    match lookupOnce fields tag with
    | some (some (.string kind)) => some (kind, .object (fields.filter (·.1 != tag)))
    | _ => none
  | .array (.string kind :: rest) => some (kind, .array rest)
  | _ => none

/-- Whether the content of a tagged record fits a kind without fields. -/
def emptyContent : Value → Bool
  | .object _ => true
  | .array items => items.isEmpty
  | _ => false

/-! ## Fields -/

/-- A field that must be present. -/
def required {α : Type} (decode : Value → Option α) (field : Option Value) : Option α :=
  field.bind decode

/-- A field with a default. -/
def defaulted {α : Type} (default : α) (decode : Value → Option α) : Option Value → Option α
  | none => some default
  | some v => decode v

/-- A field whose value may be missing or null. -/
def nullable {α : Type} (decode : Value → Option α) : Option Value → Option (Option α)
  | none => some none
  | some .null => some none
  | some v => (decode v).map some

/-! ## Simple values -/

/-- A string. -/
def text? : Value → Option String
  | .string s => some s
  | _ => none

/-- A boolean. -/
def bool? : Value → Option Bool
  | .bool b => some b
  | _ => none

/-- An integer from zero up to below the bound. -/
def natBelow (bound : Nat) : Value → Option Nat
  | .number (.int i) => if 0 ≤ i && i < bound then some i.toNat else none
  | _ => none

/-- An integer of 32 bits without a sign. -/
def word32? (v : Value) : Option UInt32 := (natBelow UInt32.size v).map UInt32.ofNat

/-- A list of values of one kind. -/
def listOf {α : Type} (decode : Value → Option α) : Value → Option (List α)
  | .array items => items.mapM decode
  | _ => none

/-- The fields of a record of variables. -/
def vars? : Value → Option Variables
  | .object fields => some (Fields.ofPairs fields)
  | _ => none

/-- One of a fixed set of names, written as a string or as a record that holds null under the
name. -/
def choice? {α : Type} (choices : List (String × α)) : Value → Option α
  | .string s => choices.lookup s
  | .object [(s, .null)] => choices.lookup s
  | _ => none

end ProcessEngine.Json

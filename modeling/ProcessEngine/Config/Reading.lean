import ProcessEngine.Config.Basic
import ProcessEngine.Text.Blank
import ProcessEngine.Yaml.Document

/-!
# Reading engine settings

Settings are written as nested mappings.  Unknown names are ignored, a known name stands at most
once, and a setting or a group of settings that is left out has its default.
-/

namespace ProcessEngine.Config

open Yaml

/-- What a setting is read from: a node of a document. -/
abbrev Decoder (α : Type) := Document → YamlNode → Option α

/-- The scalar that a node is or stands for. -/
def scalar? : Decoder Scalar := fun d node =>
  match d.target node with
  | .scalar s => some s
  | _ => none

/-- The entries of a mapping with their names, which must be scalars; a value that is left out is a
mapping without entries. -/
def entries? : Decoder (List (String × YamlNode)) := fun d node =>
  match d.target node with
  | .mapping entries =>
    entries.mapM fun (key, value) => (scalar? d key).map fun s => (s.text, value)
  | .scalar s => if s.isLeftOut then some [] else none
  | _ => none

/-- The value under a name: absent, present once, or a fault. -/
def entry (entries : List (String × YamlNode)) (name : String) : Option (Option YamlNode) :=
  match entries.filter (·.1 == name) with
  | [] => some none
  | [(_, v)] => some (some v)
  | _ => none

/-- A setting with a default. -/
def setting {α : Type} (d : Document) (entries : List (String × YamlNode)) (name : String)
    (default : α) (decode : Decoder α) : Option α := do
  match ← entry entries name with
  | some v => decode d v
  | none => some default

/-- A scalar of a standard type with a form of its own. -/
def ofForm {α : Type} (type : String) (form : String → Option α) : Decoder α := fun d node => do
  let s ← scalar? d node
  if s.mayBe type then form s.text else none

/-- An integer without a sign, below the bound. -/
def natBelow (bound : Nat) : Decoder Nat := ofForm "int" fun s => (unsigned? s).filter (· < bound)

/-- A double. -/
def double : Decoder Float := ofForm "float" float?

/-- A boolean. -/
def flag : Decoder Bool := ofForm "bool" bool?

/-- Whether a plain scalar says that there is no value: by a name of null, or by being left out.
Behind the tag of null only the names do; behind another tag nothing does. -/
def meansNone (s : Scalar) : Bool :=
  match s.tag with
  | none => s.text.isEmpty || isNull s.text
  | some tag => tag == Scalar.standardTag "null" && isNull s.text

/-- A limit, or null for none. -/
def limit : Decoder (Option Nat) := fun d node =>
  match d.target node with
  | .scalar s =>
    if s.style = .plain && meansNone s then some none
    else if s.style = .plain && s.tag == some (Scalar.standardTag "null") then none
    else (natBelow UInt32.size d node).map some
  | _ => none

/-- The retry settings. -/
def retryOf : Decoder RetryPolicy := fun d node => do
  let entries ← entries? d node
  let standard := RetryPolicy.standard
  some {
    maxAttempts := ← setting d entries "max_attempts" standard.maxAttempts limit
    initialBackoff := ← setting d entries "initial_backoff_ms" standard.initialBackoff
      (natBelow UInt64.size)
    multiplier := ← setting d entries "backoff_multiplier" standard.multiplier double
    maxBackoff := ← setting d entries "max_backoff_ms" standard.maxBackoff (natBelow UInt64.size) }

/-- The compensation settings: whether executions are recorded, and the retry settings. -/
def compensationOf : Decoder (Bool × RetryPolicy) := fun d node => do
  let entries ← entries? d node
  let record ← setting d entries "record_executions" standard.recordExecutions flag
  let retry ← setting d entries "retry" standard.retry retryOf
  some (record, retry)

/-- All settings. -/
def ofDocument (d : Document) : Option Config := do
  let entries ← entries? d d.root
  let steps ← setting d entries "max_traversal_steps" standard.maxTraversalSteps
    (natBelow UInt64.size)
  let capacity ← setting d entries "event_channel_capacity" standard.eventChannelCapacity
    (natBelow UInt64.size)
  let (record, retry) ← setting d entries "compensation"
    (standard.recordExecutions, standard.retry) compensationOf
  some ⟨steps, capacity, record, retry⟩

/-- Reads and checks settings. -/
def ofText (text : String) : Except ConfigError Config :=
  match (Yaml.read text).bind ofDocument with
  | some c => c.check
  | none => .error .malformed

/-- Reads and checks the settings in a file with the given content; no content means that the file
cannot be read. -/
def ofFile (path : String) (content : Option String) : Except ConfigError Config :=
  match content with
  | none => .error (.unreadableFile path)
  | some text =>
    match ofText text with
    | .ok c => .ok c
    | .error _ => .error (.invalidFile path)

/-- The settings file that the environment names; a blank name counts as none. -/
def environmentFile (name? : Option String) : Option String :=
  name?.filter fun path => !Text.blank path

end ProcessEngine.Config

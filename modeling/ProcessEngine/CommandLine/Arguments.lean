import ProcessEngine.Json.Reader

/-!
# Command line arguments

A definition file and options.  An option that takes a value has it behind an equals sign or as the
next argument, a short one also without anything between; behind two dashes every argument is an
operand.  Options that may be given once are refused when given twice.
-/

namespace ProcessEngine.CommandLine

/-- What a command line asks for. -/
structure Arguments where
  definition : String
  businessKey : String
  vars : Variables
  tasks : List String
  config : Option String
  validateOnly : Bool
deriving Inhabited

/-! ## Single settings -/

/-- The options that take a value. -/
inductive Parameter where
  | businessKey
  | assignment
  | task
  | config
deriving DecidableEq, Repr, Inhabited

/-- One setting of a command line. -/
inductive Setting where
  | definition (path : String)
  | businessKey (key : String)
  | assignment (name : String) (value : Value)
  | task (id : String)
  | config (path : String)
  | validate
deriving Inhabited

/-- The long names of the options that take a value. -/
def longNames : List (String × Parameter) :=
  [("business-key", .businessKey), ("var", .assignment), ("complete", .task), ("config", .config)]

/-- The short names of the options that take a value. -/
def shortNames : List (Char × Parameter) :=
  [('k', .businessKey), ('v', .assignment), ('c', .task)]

/-- The long name of the option that only asks for the checks. -/
def validateName : String := "validate"

/-- Cuts a text at its first equals sign. -/
def cutAtEquals (cs : List Char) : String × Option String :=
  (String.ofList (cs.takeWhile (· != '=')),
    match cs.dropWhile (· != '=') with
    | [] => none
    | _ :: rest => some (String.ofList rest))

/-- A name and a value with an equals sign between them; a value that is no JSON is a string. -/
def assignment? (text : String) : Option Setting :=
  match cutAtEquals text.toList with
  | (name, some value) => some (.assignment name ((Json.readValue value).getD (.string value)))
  | (_, none) => none

/-- A path must not be empty. -/
def path? (text : String) : Option String := if text.isEmpty then none else some text

/-- The setting that an option makes with a value. -/
def Parameter.setting? (p : Parameter) (value : String) : Option Setting :=
  match p with
  | .businessKey => some (.businessKey value)
  | .assignment => assignment? value
  | .task => some (.task value)
  | .config => (path? value).map .config

/-! ## Words -/

/-- What a single argument is. -/
inductive Word where
  | operand (text : String)
  | dashes
  | setting (s : Setting)
  | expecting (p : Parameter)

/-- Reads an argument; there are no other options than the known ones. -/
def word? (argument : String) : Option Word :=
  match argument.toList with
  | ['-', '-'] => some .dashes
  | '-' :: '-' :: cs =>
    match cutAtEquals cs with
    | (name, some value) => do
      let p ← longNames.lookup name
      return .setting (← p.setting? value)
    | (name, none) =>
      if name == validateName then some (.setting .validate)
      else (longNames.lookup name).map .expecting
  | '-' :: c :: cs => do
    let p ← shortNames.lookup c
    match cs with
    | [] => some (.expecting p)
    | '=' :: value => return .setting (← p.setting? (String.ofList value))
    | value => return .setting (← p.setting? (String.ofList value))
  | _ => some (.operand argument)

/-- Whether an argument can be the value of the option in front of it. -/
def isValue (argument : String) : Bool :=
  match argument.toList with
  | '-' :: _ :: _ => false
  | _ => true

/-- The operand of a command line. -/
def operand? (text : String) : Option Setting := (path? text).map .definition

/-- The settings of a command line in order. -/
def settings? : List String → Option (List Setting)
  | [] => some []
  | argument :: rest => do
    match ← word? argument with
    | .operand text => return (← operand? text) :: (← settings? rest)
    | .dashes => rest.mapM operand?
    | .setting s => return s :: (← settings? rest)
    | .expecting p =>
      match rest with
      | [] => none
      | value :: rest =>
        if isValue value then return (← p.setting? value) :: (← settings? rest) else none

/-! ## The whole -/

/-- The only member of a list, if it has no more than one. -/
def atMostOne {α : Type} : List α → Option (Option α)
  | [] => some none
  | [a] => some (some a)
  | _ => none

/-- The business key of an instance for which none is given. -/
def defaultBusinessKey : String := "cli"

/-- Puts settings together. -/
def Arguments.ofSettings? (settings : List Setting) : Option Arguments := do
  let definition ← atMostOne (settings.filterMap fun
    | .definition path => some path
    | _ => none)
  let businessKey ← atMostOne (settings.filterMap fun
    | .businessKey key => some key
    | _ => none)
  let config ← atMostOne (settings.filterMap fun
    | .config path => some path
    | _ => none)
  let validate ← atMostOne (settings.filterMap fun
    | .validate => some ()
    | _ => none)
  return {
    definition := ← definition
    businessKey := businessKey.getD defaultBusinessKey
    vars := Fields.ofPairs (settings.filterMap fun
      | .assignment name value => some (name, value)
      | _ => none)
    tasks := settings.filterMap fun
      | .task id => some id
      | _ => none
    config
    validateOnly := validate.isSome }

/-- Reads a command line. -/
def Arguments.read? (arguments : List String) : Option Arguments :=
  (settings? arguments).bind Arguments.ofSettings?

end ProcessEngine.CommandLine

import ProcessEngine.CommandLine.Arguments
import ProcessEngine.Config.Reading
import ProcessEngine.Definition.Json
import ProcessEngine.Engine.Lifecycle

/-!
# The command

Starts an instance of the definition in a file and completes tasks in order, or only checks the
definition.  Files are given by their contents, so that the command itself is a function.
-/

namespace ProcessEngine.CommandLine

/-- What a command comes to. -/
inductive Outcome where
  | usage
  | failed (message : String) (cause : Option String)
  | checked (text : String)
  | finished (current : Instance)
deriving Inhabited

/-- What a command reads: the content of a file, none if it cannot be read, and the settings file
that the environment names. -/
structure Surroundings where
  file : String → Option String
  configVariable : Option String

/-- The settings file: the one given, else the one that the environment names. -/
def configFile (given : Option String) (configVariable : Option String) : Option String :=
  match given with
  | some path => some path
  | none => Config.environmentFile configVariable

/-- The files that a command reads. -/
def Arguments.files (a : Arguments) (configVariable : Option String) : List String :=
  (configFile a.config configVariable).toList ++ [a.definition]

/-- The settings of a command. -/
def Arguments.settings (a : Arguments) (s : Surroundings) : Except ConfigError Config :=
  match configFile a.config s.configVariable with
  | some path => Config.ofFile path (s.file path)
  | none => .ok Config.standard

/-- The definition of a command, or why there is none. -/
def Arguments.process (a : Arguments) (s : Surroundings) : Except String Definition :=
  match s.file a.definition with
  | none => .error ("Failed to read " ++ a.definition)
  | some text =>
    match Definition.ofText? text with
    | none => .error ("Failed to parse " ++ a.definition)
    | some d => .ok d

/-- Checks a definition. -/
def check (d : Definition) : Outcome :=
  if d.isValid then
    .checked (d.id ++ " is valid (" ++ toString d.issues.length ++ " warnings)")
  else .failed ("definition " ++ d.id ++ " is invalid") none

/-- Completes tasks in order; the first that fails is the last. -/
def completeAll (e : Engine) (i : Instance) : List String → Outcome
  | [] => .finished i
  | task :: rest =>
    match e.continueInstance i.id (some task) none with
    | (.error err, _) => .failed ("Failed to complete " ++ task) (some err.message)
    | (.ok i, e) => completeAll e i rest

/-- Starts an instance and completes the given tasks. -/
def drive (a : Arguments) (config : Config) (d : Definition) (supply : Supply) : Outcome :=
  match (Engine.new config supply).start d a.businessKey (some a.vars) with
  | (.error err, _) => .failed err.message none
  | (.ok i, e) => completeAll e i a.tasks

/-- Runs a command with read arguments. -/
def Arguments.run (a : Arguments) (s : Surroundings) (supply : Supply) : Outcome :=
  match a.settings s with
  | .error err => .failed err.message none
  | .ok config =>
    match a.process s with
    | .error message => .failed message none
    | .ok d => if a.validateOnly then check d else drive a config d supply

/-- Runs a command line. -/
def run (arguments : List String) (s : Surroundings) (supply : Supply) : Outcome :=
  match Arguments.read? arguments with
  | none => .usage
  | some a => a.run s supply

end ProcessEngine.CommandLine

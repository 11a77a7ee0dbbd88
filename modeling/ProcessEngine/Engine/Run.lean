import ProcessEngine.Compensation.Record
import ProcessEngine.Instance.Basic
import ProcessEngine.Workspace

/-!
# Runs

The working state of one call to the engine: the instance as it is changed, and what is to be
published and recorded once the call has succeeded.  Nothing of it is visible before.
-/

namespace ProcessEngine

open Compensation (Completion)

/-- The instance in work, the events to publish and the completed tasks to record, both in order. -/
structure Run where
  current : Instance
  events : List Event
  completions : List Completion
deriving Inhabited

namespace Run

/-- A run that has done nothing to an instance. -/
def on (i : Instance) : Run := ⟨i, [], []⟩

/-- Puts off an event until the run has succeeded. -/
def emit (run : Run) (e : Event) : Run := { run with events := run.events ++ [e] }

/-- Whether completed elements of a kind can be undone by compensation. -/
def compensable : ElementKind → Bool
  | .userTask | .serviceTask => true
  | _ => false

/-- What is recorded of a completed element. -/
def completionOf (i : Instance) (e : Element) (execution : String) : Completion :=
  { instanceId := i.id
    executionId := execution
    activityId := e.id
    activityType := e.kind.label
    activityName := e.name
    vars := i.vars
    scopeId := none }

/-- Appends an entry to the history at the present time. -/
def record (run : Run) (element : String) (kind : ElementKind) (status : HistoryStatus)
    (execution : String) : Action Run := do
  let now ← Action.now
  return { run with current := run.current.record element kind status (some execution) now }

/-- Notes that an element is completed; tasks are recorded for compensation as well. -/
def complete (run : Run) (e : Element) (execution : String) : Action Run := do
  let run ← run.record e.id e.kind .completed execution
  if compensable e.kind then
    return { run with
      completions := run.completions ++ [completionOf run.current e execution] }
  else return run

/-- Parks a token at an element. -/
def park (run : Run) (element : String) (wait : Wait) (frames : List Frame) : Action Run := do
  let id ← Action.freshUid
  return { run with
    current := { run.current with
      tokens := run.current.tokens ++ [⟨id, element, wait, false, frames⟩] } }

/-- Appends an entry for each token in order.  An element that is not in the definition counts as a
user task. -/
def recordTokens (run : Run) (d : Definition) (status : HistoryStatus) : List Token → Action Run
  | [] => pure run
  | t :: rest => do
    let kind := ((d.element? t.elementId).map Element.kind).getD .userTask
    let run ← run.record t.elementId kind status t.id.text
    recordTokens run d status rest

/-- Ends the instance at the present time, unless it has ended. -/
def close (run : Run) : Action Run := do
  if run.current.isEnded then return run
  else
    let now ← Action.now
    return { run with current := { run.current with endedAt := some now } }

/-- Ends an instance in which no token is left. -/
def finish (run : Run) : Action Run := do
  if run.current.tokens.isEmpty && !run.current.isEnded then
    let run ← run.close
    return run.emit (.processEnd run.current.id)
  else return run

end Run

end ProcessEngine

import ProcessEngine.Compensation.Plan
import ProcessEngine.Config.Basic
import ProcessEngine.Engine.Run

/-!
# The engine

An engine owns the registered instances with their definitions, the workspace that traversals act
on, and perhaps a compensation coordinator that completed tasks are recorded with.
-/

namespace ProcessEngine

/-- A registered instance and the definition that it runs. -/
structure Registered where
  current : Instance
  definition : Definition
deriving Inhabited

/-- The engine. -/
structure Engine where
  config : Config
  registry : List (String × Registered)
  workspace : Workspace
  coordinator : Option Compensation.Coordinator

namespace Engine

/-- An engine without instances; it has a coordinator if its settings ask for recording. -/
def new (config : Config) (supply : Supply) : Engine :=
  { config
    registry := []
    workspace := ⟨.empty, .new config.eventChannelCapacity, supply⟩
    coordinator :=
      if config.recordExecutions then some (.new config.retry) else none }

/-- Records completed tasks with the given coordinator. -/
def withCoordinator (e : Engine) (c : Compensation.Coordinator) : Engine :=
  { e with coordinator := some c }

/-- Replaces the store of gateway states. -/
def withStore (e : Engine) (store : Store) : Engine :=
  { e with workspace := { e.workspace with store } }

/-- Replaces the supply of times and identifiers. -/
def withSupply (e : Engine) (supply : Supply) : Engine :=
  { e with workspace := { e.workspace with supply } }

/-- Replaces the event bus. -/
def withBus (e : Engine) (bus : EventBus) : Engine :=
  { e with workspace := { e.workspace with bus } }

/-! ## The registry -/

/-- The registered instance of an id with its definition. -/
def registered? (e : Engine) (id : String) : Option Registered := e.registry.lookup id

/-- The registered instance of an id. -/
def get? (e : Engine) (id : String) : Option Instance := (e.registered? id).map Registered.current

/-- The ids of all registered instances in ascending order. -/
def instanceIds (e : Engine) : List String :=
  (e.registry.map Prod.fst).mergeSort fun a b => decide (a ≤ b)

/-- Registers an instance, in place of an earlier state of it. -/
def register (e : Engine) (i : Instance) (d : Definition) : Engine :=
  { e with registry := (i.id, ⟨i, d⟩) :: e.registry.filter (·.1 != i.id) }

/-- Drops an instance from the registry. -/
def unregister (e : Engine) (id : String) : Engine :=
  { e with registry := e.registry.filter (·.1 != id) }

/-! ## Actions -/

/-- Performs an action on the workspace of the engine. -/
def perform {α : Type} (e : Engine) (a : Action α) : Except EngineError α × Engine :=
  match a.run e.workspace with
  | .ok x workspace => (.ok x, { e with workspace })
  | .error err workspace => (.error err, { e with workspace })

/-- Forgets the gateway states of an instance. -/
def forgetStates (e : Engine) (id : String) : Engine :=
  e.withStore (e.workspace.store.deleteInstance id).2

/-- Records completed tasks in order, if the engine has a coordinator. -/
def recordCompletions (e : Engine) (completions : List Compensation.Completion) : Engine :=
  { e with
    coordinator := e.coordinator.map fun c =>
      completions.foldl (fun c completion => (c.recordExecution completion).2) c }

/-- Makes known what a successful run came to.  An instance that has ended has no further use for
its gateway states. -/
def settle (e : Engine) (run : Run) : Engine :=
  let e := if run.current.isEnded then e.forgetStates run.current.id else e
  let e := e.withBus (e.workspace.bus.publishAll run.events)
  e.recordCompletions run.completions

/-- Registers the instance of a successful run and makes known what the run came to. -/
def commit (e : Engine) (d : Definition) (run : Run) : Instance × Engine :=
  (run.current, (e.register run.current d).settle run)

end Engine

end ProcessEngine

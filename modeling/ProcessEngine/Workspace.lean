import ProcessEngine.Event.Bus
import ProcessEngine.GatewayState.Store
import ProcessEngine.Supply

/-!
# Actions

What gateways and traversals act on while they run: the store of gateway states, the event bus, and
the supply of times and identifiers.  An action that fails keeps what it did before it failed;
undoing that is up to its caller.
-/

namespace ProcessEngine

/-- What actions read and change. -/
structure Workspace where
  store : Store
  bus : EventBus
  supply : Supply

/-- A step on a workspace that may fail. -/
abbrev Action := EStateM EngineError Workspace

namespace Action

/-- Hands out an identifier. -/
def freshUid : Action Uid := fun w =>
  let (u, supply) := w.supply.uid
  .ok u { w with supply }

/-- Reads the clock. -/
def now : Action Instant := fun w =>
  let (t, supply) := w.supply.now
  .ok t { w with supply }

/-- Publishes events in order. -/
def publish (events : List Event) : Action Unit := fun w =>
  .ok () { w with bus := w.bus.publishAll events }

/-- Looks at the store. -/
def readStore : Action Store := fun w => .ok w.store w

/-- Changes the store; a refused change leaves it as it was. -/
def onStore {α : Type} (change : Store → Except EngineError (α × Store)) : Action α := fun w =>
  match change w.store with
  | .ok (a, store) => .ok a { w with store }
  | .error e => .error e w

/-- Fails unless there is a value. -/
def orFail {α : Type} (error : EngineError) : Option α → Action α
  | some a => pure a
  | none => throw error

end Action

end ProcessEngine

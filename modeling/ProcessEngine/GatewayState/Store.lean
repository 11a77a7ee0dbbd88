import ProcessEngine.Error
import ProcessEngine.GatewayState.Basic

/-!
# The store of gateway states

The states of all instances, each with the sequence number of its creation, and the last generation
given out per instance and gateway.  An operation that is refused leaves the store as it was.
-/

namespace ProcessEngine

/-- A stored state with the sequence number of its creation. -/
structure StoreEntry where
  sequence : Nat
  state : GatewayState
deriving DecidableEq, Repr, Inhabited

/-- The stored states, oldest first; the last sequence number given out; and the last generation
given out for each instance and gateway. -/
structure Store where
  entries : List StoreEntry
  lastSequence : Nat
  generations : List ((String × String) × Nat)
deriving DecidableEq, Repr, Inhabited

namespace Store

/-- A store without states. -/
def empty : Store := ⟨[], 0, []⟩

/-! ## Generations -/

/-- The last generation given out for an instance and a gateway, zero before the first one. -/
def generation (s : Store) (instanceId gatewayId : String) : Nat :=
  (s.generations.lookup (instanceId, gatewayId)).getD 0

/-- Gives out the next generation for an instance and a gateway. -/
def nextGeneration (s : Store) (instanceId gatewayId : String) : Nat × Store :=
  let key := (instanceId, gatewayId)
  let next := s.generation instanceId gatewayId + 1
  (next, { s with generations := (key, next) :: s.generations.filter (·.1 != key) })

/-! ## Entries -/

/-- How many states are stored. -/
def size (s : Store) : Nat := s.entries.length

/-- The stored state with the given id. -/
def get? (s : Store) (id : Uid) : Option GatewayState :=
  (s.entries.find? (·.state.id == id)).map StoreEntry.state

/-- Stores a state as the newest one; a state with the same id is replaced. -/
def insert (s : Store) (state : GatewayState) : Store :=
  let sequence := s.lastSequence + 1
  { s with
    entries := s.entries.filter (·.state.id != state.id) ++ [⟨sequence, state⟩]
    lastSequence := sequence }

/-- Replaces the state with the same id where it stands. -/
def update (s : Store) (state : GatewayState) : Store :=
  { s with
    entries := s.entries.map fun e =>
      if e.state.id == state.id then { e with state } else e }

/-- Drops the states of an instance. -/
def dropStates (s : Store) (instanceId : String) : Store :=
  { s with entries := s.entries.filter (·.state.instanceId != instanceId) }

/-! ## Queries -/

/-- Every state of an instance, oldest first. -/
def states (s : Store) (instanceId : String) : List GatewayState :=
  (s.entries.filter (·.state.instanceId == instanceId)).map StoreEntry.state

/-- The active states of an instance, newest first. -/
def activeStates (s : Store) (instanceId : String) : List GatewayState :=
  ((s.states instanceId).filter (·.isActive)).reverse

/-- Whether a state is the active join of an instance at a gateway under a correlation. -/
def isJoinOf (instanceId gatewayId : String) (correlationId : Option Uid) (s : GatewayState) :
    Bool :=
  s.kind == .join && s.isActive && s.instanceId == instanceId && s.gatewayId == gatewayId &&
    s.correlationId == correlationId

/-- The active join of an instance at a gateway under a correlation. -/
def activeJoin? (s : Store) (instanceId gatewayId : String) (correlationId : Option Uid) :
    Option GatewayState :=
  (s.entries.map StoreEntry.state).find? (isJoinOf instanceId gatewayId correlationId)

/-! ## Operations -/

/-- Stores the state of a new fork under the given id. -/
def createFork (s : Store) (new : NewFork) (id : Uid) : GatewayState × Store :=
  let (generation, s) := s.nextGeneration new.instanceId new.gatewayId
  let state := GatewayState.ofFork new id generation
  (state, s.insert state)

/-- The active join that a token arrives at; if there is none, a new one is stored under the given
id. -/
def createJoin (s : Store) (new : NewJoin) (id : Uid) : GatewayState × Store :=
  match s.activeJoin? new.instanceId new.gatewayId new.correlationId with
  | some state => (state, s)
  | none =>
    let (generation, s) := s.nextGeneration new.instanceId new.gatewayId
    let state := GatewayState.ofJoin new id generation
    (state, s.insert state)

/-- Counts one more branch of an active state that still expects one. -/
def increment (s : Store) (id : Uid) : Except EngineError (GatewayState × Store) :=
  match s.get? id with
  | none => .error (.stateNotFound id)
  | some state =>
    if !state.isActive then .error (.joinResolved id)
    else if state.activeBranches ≤ state.completedBranches then
      .error (.branchCountExceeded id state.activeBranches)
    else
      let state := state.countBranch
      .ok (state, s.update state)

/-- Counts one more branch and folds in the frames of the token that brought it. -/
def recordArrival (s : Store) (id : Uid) (frames : List Frame) :
    Except EngineError (GatewayState × Store) :=
  match s.increment id with
  | .error e => .error e
  | .ok (state, s) =>
    let state := state.fold frames
    .ok (state, s.update state)

/-- Marks a state inactive, which it may be already. -/
def complete (s : Store) (id : Uid) : Except EngineError Store :=
  match s.get? id with
  | none => .error (.stateNotFound id)
  | some state => .ok (s.update { state with isActive := false })

/-- Forgets an instance, its generations included; tells how many states were dropped. -/
def deleteInstance (s : Store) (instanceId : String) : Nat × Store :=
  ((s.states instanceId).length,
    { s.dropStates instanceId with
      generations := s.generations.filter (·.1.1 != instanceId) })

/-- Puts the states of an instance back to an earlier list of them.  Generations stay as they are,
so a repeated step never reuses one. -/
def restore (s : Store) (instanceId : String) (states : List GatewayState) : Store :=
  states.foldl insert (s.dropStates instanceId)

end Store

end ProcessEngine

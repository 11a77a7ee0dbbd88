import ProcessEngine.Gateway.Routing
import ProcessEngine.Workspace

/-!
# Gateway activations

What a gateway does with a token that reaches it.  Exclusive and event-based gateways only look at
flows and variables.  A parallel gateway with several incoming flows first joins and then forks; an
inclusive gateway does one of the two.  Forks and joins keep their books in the store.
-/

namespace ProcessEngine

/-- One arrival of a token at a gateway.

Without the number of incoming flows an inclusive join still sizes itself by the fork it closes; a
parallel gateway then does not join.  The frames are those of the token, outermost first. -/
structure Request where
  gateway : Gateway
  outgoing : List Flow
  vars : Variables
  incoming : Option Nat
  instanceId : Option String
  executionId : Option String
  frames : List Frame

/-- What becomes of the token.

A join that `needsWait` absorbs the token until the other branches arrive; an event-based gateway
parks it until one of the `next` elements is continued.  The branches that leave a fork carry its
frame; the token that leaves a released join carries `continueFrames` in place of its own. -/
structure Decision where
  next : List String
  needsWait : Bool
  isFork : Bool
  isJoin : Bool
  activeBranches : Option Nat
  forkFrame : Option Frame
  continueFrames : Option (List Frame)
  stateId : Option Uid
deriving DecidableEq, Repr, Inhabited

/-- A decision for the given elements and nothing else. -/
def Decision.to (next : List String) : Decision :=
  ⟨next, false, false, false, none, none, none, none⟩

/-- What an arrival at a join comes to. -/
structure Arrival where
  released : Bool
  activeBranches : Nat
  stateId : Option Uid
  continueFrames : Option (List Frame)
deriving DecidableEq, Repr, Inhabited

/-- How a join is told apart and sized: the number of arrivals it waits for, the fork that scopes
it, and the fork that ends when it is released. -/
structure JoinKey where
  expected : Nat
  correlationId : Option Uid
  closes : Option Uid
deriving DecidableEq, Repr, Inhabited

namespace Request

/-! ## Forks -/

/-- Stores the state of a fork and makes the frame of its branches.  Without an instance there is
nothing to store it under. -/
def recordFork (r : Request) (targets : List String) : Action (Option Frame) :=
  match r.instanceId with
  | none => pure none
  | some instanceId => do
    let id ← Action.freshUid
    let state ← Action.onStore fun s => .ok (s.createFork
      ⟨instanceId, r.executionId, r.gateway.id, targets⟩ id)
    return some state.frame

/-! ## Joins -/

/-- The key of the join that the token arrives at.

A parallel join waits for all its incoming flows within the outermost fork around the token, so that
the branches of nested forks meet in one state.  An inclusive join waits for the branches of the
innermost fork around the token, else of the newest active fork of the instance, else for this one
arrival. -/
def joinKey (r : Request) (store : Store) (instanceId : String) (flows : Option Nat) : JoinKey :=
  match flows with
  | some n => ⟨n, r.frames.head?.map Frame.forkId, none⟩
  | none =>
    match r.frames.getLast? with
    | some frame => ⟨frame.branchCount, some frame.forkId, some frame.forkId⟩
    | none =>
      match (store.activeStates instanceId).find? (·.kind == .fork) with
      | some fork => ⟨fork.activeBranches, some fork.id, some fork.id⟩
      | none => ⟨1, none, none⟩

/-- Marks a state inactive. -/
def completeState (id : Uid) : Action Unit :=
  Action.onStore fun s => (s.complete id).map fun s => ((), s)

/-- Completes the forks that are merged back among the shared frames, and keeps the others. -/
def closeFrames : List Frame → Action (List Frame)
  | [] => pure []
  | f :: rest =>
    if f.isClosed then do
      completeState f.forkId
      closeFrames rest
    else do
      let stillOpen ← closeFrames rest
      return f :: stillOpen

/-- Registers an arrival.  A single incoming flow has nothing to wait for. -/
def join (r : Request) (flows : Option Nat) : Action Arrival := do
  let instanceId ← Action.orFail (.missingInstanceId r.gateway.id) r.instanceId
  if r.incoming.any (· ≤ 1) then return ⟨true, 1, none, none⟩
  else
    let key := r.joinKey (← Action.readStore) instanceId flows
    let id ← Action.freshUid
    let state ← Action.onStore fun s => .ok (s.createJoin
      ⟨instanceId, r.executionId, r.gateway.id, key.expected, key.correlationId⟩ id)
    let state ← Action.onStore (·.recordArrival state.id r.frames)
    if state.completedBranches = state.activeBranches then
      match key.closes with
      | some fork => completeState fork
      | none => pure ()
      let stillOpen ← closeFrames (state.arrivedFrames.getD [])
      return ⟨true, state.activeBranches, some state.id, some stillOpen⟩
    else return ⟨false, state.activeBranches, some state.id, none⟩

/-! ## The four kinds -/

/-- An exclusive gateway takes one flow. -/
def exclusive (r : Request) : Action Decision := do
  Action.publish (r.gateway.exclusiveEvents r.outgoing r.vars)
  let flow ← Action.orFail (.noSatisfiedFlow r.gateway.id)
    (r.gateway.exclusiveChoice r.outgoing r.vars)
  return .to [flow.target]

/-- Lets a token out of a parallel gateway by every outgoing flow.  Several flows make a fork. -/
def splitAll (r : Request) (d : Decision) : Action Decision := do
  let targets := r.outgoing.map Flow.target
  if 1 < targets.length then
    let frame ← r.recordFork targets
    return { d with
      next := targets
      isFork := true
      activeBranches := some (word32 targets.length)
      stateId := frame.map Frame.forkId
      forkFrame := frame }
  else return { d with next := targets }

/-- A parallel gateway waits for all incoming flows if there are several, and takes all outgoing
ones. -/
def parallel (r : Request) : Action Decision := do
  if r.outgoing.isEmpty then throw (.noOutgoingFlow r.gateway.id)
  else
    match r.incoming with
    | some n =>
      if 1 < n then
        let arrival ← r.join (some (word32 n))
        let d : Decision := { Decision.to [] with
          isJoin := true
          continueFrames := arrival.continueFrames
          stateId := arrival.stateId
          activeBranches := some arrival.activeBranches }
        if arrival.released then r.splitAll d else return { d with needsWait := true }
      else r.splitAll (.to [])
    | none => r.splitAll (.to [])

/-- Whether an inclusive gateway forks: it has several outgoing flows, or one with a condition. -/
def forksInclusively (r : Request) : Bool :=
  decide (1 < r.outgoing.length) || r.outgoing.head?.any (·.isConditional)

/-- An inclusive gateway that forks takes every open flow, or its default. -/
def inclusiveFork (r : Request) : Action Decision := do
  Action.publish (r.gateway.inclusiveEvents r.outgoing r.vars)
  let targets := (r.gateway.inclusiveChoice r.outgoing r.vars).map Flow.target
  if targets.isEmpty then throw (.noSatisfiedFlow r.gateway.id)
  else
    let frame ← r.recordFork targets
    return { Decision.to targets with
      activeBranches := some (word32 targets.length)
      isFork := true
      stateId := frame.map Frame.forkId
      forkFrame := frame }

/-- An inclusive gateway with one unconditional way out joins. -/
def inclusiveJoin (r : Request) : Action Decision := do
  let flow ← Action.orFail (.noOutgoingFlow r.gateway.id) r.outgoing.head?
  let arrival ← r.join none
  return { Decision.to (if arrival.released then [flow.target] else []) with
    needsWait := !arrival.released
    isJoin := true
    activeBranches := some arrival.activeBranches
    continueFrames := arrival.continueFrames
    stateId := arrival.stateId }

/-- An event-based gateway waits for whichever target is continued first. -/
def eventBased (r : Request) : Action Decision :=
  if r.outgoing.isEmpty then throw (.noOutgoingFlow r.gateway.id)
  else return { Decision.to (r.outgoing.map Flow.target) with needsWait := true }

/-- Activates the gateway. -/
def activate (r : Request) : Action Decision :=
  match r.gateway.kind with
  | .exclusive => r.exclusive
  | .parallel => r.parallel
  | .inclusive => if r.forksInclusively then r.inclusiveFork else r.inclusiveJoin
  | .eventBased => r.eventBased

end Request

end ProcessEngine

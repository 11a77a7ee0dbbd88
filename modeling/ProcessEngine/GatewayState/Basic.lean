import ProcessEngine.Frame

/-!
# Gateway states

The bookkeeping for one activation of a fork or a join: how many branches there are, and how many of
them have come in.
-/

namespace ProcessEngine

/-- Which side of a split a state belongs to. -/
inductive StateKind where
  | fork
  | join
deriving DecidableEq, Repr, Inhabited

/-- The state of one fork or join.

A fork lists the targets it selected.  A join names the fork that scopes it, and holds the frames
shared by all arrivals so far, none before the first one.  The generation counts the states of one
gateway in one instance. -/
structure GatewayState where
  id : Uid
  instanceId : String
  executionId : Option String
  gatewayId : String
  kind : StateKind
  activeBranches : Nat
  completedBranches : Nat
  branchTargets : List String
  isActive : Bool
  correlationId : Option Uid
  arrivedFrames : Option (List Frame)
  generation : Nat
deriving DecidableEq, Repr, Inhabited

/-- What is known of a fork when it is activated. -/
structure NewFork where
  instanceId : String
  executionId : Option String
  gatewayId : String
  branchTargets : List String
deriving DecidableEq, Repr, Inhabited

/-- What is known of a join when a token arrives. -/
structure NewJoin where
  instanceId : String
  executionId : Option String
  gatewayId : String
  activeBranches : Nat
  correlationId : Option Uid
deriving DecidableEq, Repr, Inhabited

namespace GatewayState

/-- The state of a new fork. -/
def ofFork (new : NewFork) (id : Uid) (generation : Nat) : GatewayState :=
  { id, generation
    instanceId := new.instanceId
    executionId := new.executionId
    gatewayId := new.gatewayId
    kind := .fork
    activeBranches := word32 new.branchTargets.length
    completedBranches := 0
    branchTargets := new.branchTargets
    isActive := true
    correlationId := none
    arrivedFrames := none }

/-- The state of a new join, which waits for at least one arrival. -/
def ofJoin (new : NewJoin) (id : Uid) (generation : Nat) : GatewayState :=
  { id, generation
    instanceId := new.instanceId
    executionId := new.executionId
    gatewayId := new.gatewayId
    kind := .join
    activeBranches := max new.activeBranches 1
    completedBranches := 0
    branchTargets := []
    isActive := true
    correlationId := new.correlationId
    arrivedFrames := none }

/-- Whether every branch has come in. -/
def isResolved (s : GatewayState) : Bool := decide (s.activeBranches ≤ s.completedBranches)

/-- Counts one more branch.  A join to which the last one comes is not active any more. -/
def countBranch (s : GatewayState) : GatewayState :=
  let completed := s.completedBranches + 1
  { s with
    completedBranches := completed
    isActive := s.isActive && !(s.kind == .join && completed == s.activeBranches) }

/-- Folds the frames of an arriving token into those of the earlier arrivals. -/
def fold (s : GatewayState) (frames : List Frame) : GatewayState :=
  { s with
    arrivedFrames := some (match s.arrivedFrames with
      | some shared => Frame.merge shared frames
      | none => frames) }

/-- The frame of a token that leaves the fork, without branches yet. -/
def frame (s : GatewayState) : Frame :=
  { gatewayId := s.gatewayId
    forkId := s.id
    branchCount := s.activeBranches
    generation := s.generation
    branches := [] }

end GatewayState

end ProcessEngine

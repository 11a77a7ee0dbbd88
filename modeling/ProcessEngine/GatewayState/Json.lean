import ProcessEngine.GatewayState.Basic
import ProcessEngine.Instance.Json

/-!
# The wire form of gateway states
-/

namespace ProcessEngine

/-- The name of a side of a split. -/
def StateKind.label : StateKind → String
  | .fork => "fork"
  | .join => "join"

/-- An identifier that may be missing. -/
def Value.ofUid? : Option Uid → Value
  | some u => u.toValue
  | none => .null

/-- A stack of frames that may be missing. -/
def Value.ofFrames? : Option (List Frame) → Value
  | some frames => .array (frames.map Frame.toValue)
  | none => .null

/-- The record of a gateway state. -/
def GatewayState.toValue (s : GatewayState) : Value :=
  .object [("id", s.id.toValue), ("processInstanceId", .string s.instanceId),
    ("executionId", .ofText? s.executionId), ("gatewayId", .string s.gatewayId),
    ("gatewayType", .string s.kind.label), ("activeBranches", .ofNat s.activeBranches),
    ("completedBranches", .ofNat s.completedBranches), ("branchTargets", .ofTexts s.branchTargets),
    ("isActive", .bool s.isActive), ("correlationId", .ofUid? s.correlationId),
    ("arrivedFrames", .ofFrames? s.arrivedFrames), ("generation", .ofNat s.generation)]

end ProcessEngine

import ProcessEngine.Instance.Basic
import ProcessEngine.Json.Record

/-!
# The wire form of instances

Instances, tokens and frames as structured values, and read back from them.
-/

namespace ProcessEngine

open Json

/-! ## Names -/

/-- The names of the kinds of element. -/
def ElementKind.choices : List (String × ElementKind) :=
  [.startEvent, .endEvent, .userTask, .serviceTask, .gateway, .subProcess].map fun k =>
    (ElementKind.label k, k)

/-- The name of a state. -/
def InstanceState.label : InstanceState → String
  | .active => "ACTIVE"
  | .suspended => "SUSPENDED"

/-- The names of the states. -/
def InstanceState.choices : List (String × InstanceState) :=
  [("ACTIVE", .active), ("SUSPENDED", .suspended)]

/-- The name of a history status. -/
def HistoryStatus.label : HistoryStatus → String
  | .completed => "COMPLETED"
  | .suspended => "SUSPENDED"
  | .cancelled => "CANCELLED"

/-- The names of the history statuses. -/
def HistoryStatus.choices : List (String × HistoryStatus) :=
  [("COMPLETED", .completed), ("SUSPENDED", .suspended), ("CANCELLED", .cancelled)]

/-! ## Writing -/

/-- An identifier as a string. -/
def Uid.toValue (u : Uid) : Value := .string u.text

/-- A list of numbers. -/
def Value.ofNats (ns : List Nat) : Value := .array (ns.map .ofNat)

/-- The record of a frame. -/
def Frame.toValue (f : Frame) : Value :=
  .object [("gatewayId", .string f.gatewayId), ("forkStateId", f.forkId.toValue),
    ("branchCount", .ofNat f.branchCount), ("generation", .ofNat f.generation),
    ("branches", .ofNats f.branches)]

/-- The record of what a token waits for. -/
def Wait.toValue : Wait → Value
  | .userTask => .object [("kind", .string "userTask")]
  | .subProcess => .object [("kind", .string "subProcess")]
  | .eventGateway candidates =>
    .object [("kind", .string "eventGateway"), ("candidates", .ofTexts candidates)]

/-- The record of a token. -/
def Token.toValue (t : Token) : Value :=
  .object [("tokenId", t.id.toValue), ("elementId", .string t.elementId), ("wait", t.wait.toValue),
    ("suspended", .bool t.suspended), ("frames", .array (t.frames.map Frame.toValue))]

/-- The record of a history entry. -/
def HistoryEntry.toValue (h : HistoryEntry) : Value :=
  .object [("elementId", .string h.elementId), ("elementType", .string h.elementKind.label),
    ("status", .string h.status.label), ("startTime", .string (Instant.text h.startTime)),
    ("endTime", .string (Instant.text h.endTime)), ("executionId", .ofText? h.executionId)]

/-- The record of an instance. -/
def Instance.toValue (i : Instance) : Value :=
  .object [("processInstanceId", .string i.id), ("processDefinitionId", .string i.definitionId),
    ("businessKey", .string i.businessKey), ("variables", .object i.vars),
    ("history", .array (i.history.map HistoryEntry.toValue)), ("state", .string i.state.label),
    ("tokens", .array (i.tokens.map Token.toValue)),
    ("createdAt", .string (Instant.text i.createdAt)),
    ("endedAt", .ofText? (i.endedAt.map Instant.text))]

/-! ## Reading -/

/-- Reads an identifier. -/
def Uid.ofValue? (v : Value) : Option Uid := (text? v).bind Uid.ofText?

/-- Reads a point in time. -/
def Instant.ofValue? (v : Value) : Option Instant := (text? v).bind Instant.ofText?

/-- Reads a number of 32 bits without a sign. -/
def count? : Value → Option Nat := natBelow UInt32.size

/-- Reads a frame. -/
def Frame.ofValue? (v : Value) : Option Frame := do
  let [gatewayId, forkId, branchCount, generation, branches] ←
    recordFields ["gatewayId", "forkStateId", "branchCount", "generation", "branches"] v | none
  some {
    gatewayId := ← required text? gatewayId
    forkId := ← required Uid.ofValue? forkId
    branchCount := ← required count? branchCount
    generation := ← required count? generation
    branches := ← defaulted [] (listOf count?) branches }

/-- Reads what a token waits for. -/
def Wait.ofValue? (v : Value) : Option Wait := do
  let (kind, content) ← tagged "kind" v
  match kind with
  | "userTask" => if emptyContent content then some .userTask else none
  | "subProcess" => if emptyContent content then some .subProcess else none
  | "eventGateway" =>
    let [candidates] ← recordFields ["candidates"] content | none
    return .eventGateway (← required (listOf text?) candidates)
  | _ => none

/-- Reads a token. -/
def Token.ofValue? (v : Value) : Option Token := do
  let [id, elementId, wait, suspended, frames] ←
    recordFields ["tokenId", "elementId", "wait", "suspended", "frames"] v | none
  some {
    id := ← required Uid.ofValue? id
    elementId := ← required text? elementId
    wait := ← required Wait.ofValue? wait
    suspended := ← defaulted false bool? suspended
    frames := ← defaulted [] (listOf Frame.ofValue?) frames }

/-- Reads a history entry. -/
def HistoryEntry.ofValue? (v : Value) : Option HistoryEntry := do
  let [elementId, elementKind, status, startTime, endTime, executionId] ←
    recordFields ["elementId", "elementType", "status", "startTime", "endTime", "executionId"] v
    | none
  some {
    elementId := ← required text? elementId
    elementKind := ← required (choice? ElementKind.choices) elementKind
    status := ← required (choice? HistoryStatus.choices) status
    startTime := ← required Instant.ofValue? startTime
    endTime := ← required Instant.ofValue? endTime
    executionId := ← nullable text? executionId }

/-- Reads an instance. -/
def Instance.ofValue? (v : Value) : Option Instance := do
  let [id, definitionId, businessKey, vars, history, state, tokens, createdAt, endedAt] ←
    recordFields ["processInstanceId", "processDefinitionId", "businessKey", "variables", "history",
      "state", "tokens", "createdAt", "endedAt"] v | none
  some {
    id := ← required text? id
    definitionId := ← required text? definitionId
    businessKey := ← required text? businessKey
    vars := ← required vars? vars
    history := ← required (listOf HistoryEntry.ofValue?) history
    state := ← required (choice? InstanceState.choices) state
    tokens := ← required (listOf Token.ofValue?) tokens
    createdAt := ← required Instant.ofValue? createdAt
    endedAt := ← nullable Instant.ofValue? endedAt }

end ProcessEngine

import ProcessEngine.Definition.Basic
import ProcessEngine.Json.Reader
import ProcessEngine.Json.Record

/-!
# The wire form of definitions

`Definition.toValue` writes every field of a definition; `Definition.ofValue?` reads a definition
whose optional fields may be left out and whose parts may be written by name or by position.
`Definition.ofText?` reads the text of one.
-/

namespace ProcessEngine

open Json

/-- The names of the kinds of gateway in definitions. -/
def GatewayKind.choices : List (String × GatewayKind) :=
  [("exclusive", .exclusive), ("parallel", .parallel), ("inclusive", .inclusive),
   ("eventBased", .eventBased)]

/-- The name of a kind of gateway in definitions. -/
def GatewayKind.name : GatewayKind → String
  | .exclusive => "exclusive"
  | .parallel => "parallel"
  | .inclusive => "inclusive"
  | .eventBased => "eventBased"

/-! ## Writing -/

/-- The record of an event, task or sub-process. -/
def Node.toValue (n : Node) : Value := .object [("id", .string n.id), ("name", .ofText? n.name)]

/-- The record of a gateway. -/
def Gateway.toValue (g : Gateway) : Value :=
  .object [("id", .string g.id), ("name", .ofText? g.name),
    ("gatewayType", .string g.kind.name), ("defaultFlow", .ofText? g.defaultFlow)]

/-- The record of a flow. -/
def Flow.toValue (f : Flow) : Value :=
  .object [("id", .string f.id), ("sourceRef", .string f.source), ("targetRef", .string f.target),
    ("conditionExpression", .ofText? f.condition)]

/-- The record of a definition, every field written. -/
def Definition.toValue (d : Definition) : Value :=
  .object [("id", .string d.id), ("version", .ofNat d.version.toNat), ("name", .ofText? d.name),
    ("startEvents", .array (d.startEvents.map Node.toValue)),
    ("endEvents", .array (d.endEvents.map Node.toValue)),
    ("userTasks", .array (d.userTasks.map Node.toValue)),
    ("serviceTasks", .array (d.serviceTasks.map Node.toValue)),
    ("gateways", .array (d.gateways.map Gateway.toValue)),
    ("sequenceFlows", .array (d.flows.map Flow.toValue)),
    ("subProcesses", .array (d.subProcesses.map Node.toValue))]

/-! ## Reading -/

/-- The field names of a node, in order. -/
def Node.fieldNames : List String := ["id", "name"]

/-- Reads a node. -/
def Node.ofValue? (v : Value) : Option Node := do
  let [id, name] ← recordFields Node.fieldNames v | none
  some { id := ← required text? id, name := ← nullable text? name }

/-- The field names of a gateway, in order. -/
def Gateway.fieldNames : List String := ["id", "name", "gatewayType", "defaultFlow"]

/-- Reads a gateway. -/
def Gateway.ofValue? (v : Value) : Option Gateway := do
  let [id, name, kind, defaultFlow] ← recordFields Gateway.fieldNames v | none
  some {
    id := ← required text? id
    name := ← nullable text? name
    kind := ← required (choice? GatewayKind.choices) kind
    defaultFlow := ← nullable text? defaultFlow }

/-- The field names of a flow, in order. -/
def Flow.fieldNames : List String := ["id", "sourceRef", "targetRef", "conditionExpression"]

/-- Reads a flow. -/
def Flow.ofValue? (v : Value) : Option Flow := do
  let [id, source, target, condition] ← recordFields Flow.fieldNames v | none
  some {
    id := ← required text? id
    source := ← required text? source
    target := ← required text? target
    condition := ← nullable text? condition }

/-- The field names of a definition, in order. -/
def Definition.fieldNames : List String :=
  ["id", "version", "name", "startEvents", "endEvents", "userTasks", "serviceTasks", "gateways",
   "sequenceFlows", "subProcesses"]

/-- Reads a definition; only its id is required. -/
def Definition.ofValue? (v : Value) : Option Definition := do
  let [id, version, name, startEvents, endEvents, userTasks, serviceTasks, gateways, flows,
    subProcesses] ← recordFields Definition.fieldNames v | none
  some {
    id := ← required text? id
    version := ← defaulted 1 word32? version
    name := ← nullable text? name
    startEvents := ← defaulted [] (listOf Node.ofValue?) startEvents
    endEvents := ← defaulted [] (listOf Node.ofValue?) endEvents
    userTasks := ← defaulted [] (listOf Node.ofValue?) userTasks
    serviceTasks := ← defaulted [] (listOf Node.ofValue?) serviceTasks
    gateways := ← defaulted [] (listOf Gateway.ofValue?) gateways
    flows := ← defaulted [] (listOf Flow.ofValue?) flows
    subProcesses := ← defaulted [] (listOf Node.ofValue?) subProcesses }

/-- Reads the text of a definition.  What stands under unknown names need not be a value, only
well-formed: a boolean is put in its place, which no part of a definition is. -/
def Definition.ofText? (text : String) : Option Definition :=
  (Json.readAround (.bool false) text).bind Definition.ofValue?

end ProcessEngine

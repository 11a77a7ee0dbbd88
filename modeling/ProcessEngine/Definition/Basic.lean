import ProcessEngine.Text.Blank

/-!
# Process definitions

A process definition is a graph: events, tasks, gateways and sub-processes, joined by sequence
flows.  Nothing forces the graph to be well formed; what a definition must satisfy to be sound for
execution is the business of `ProcessEngine.Definition.Validation`.
-/

namespace ProcessEngine

/-- An element with no behaviour beyond its identity: an event, a task or a sub-process. -/
structure Node where
  id : String
  name : Option String
deriving DecidableEq, Repr, Inhabited

/-- How a gateway routes the tokens that reach it. -/
inductive GatewayKind where
  | exclusive
  | parallel
  | inclusive
  | eventBased
deriving DecidableEq, Repr, Inhabited

/-- A gateway.  A declared default flow is named by its id; without one the first flow that carries
no condition acts as the default. -/
structure Gateway where
  id : String
  name : Option String
  kind : GatewayKind
  defaultFlow : Option String
deriving DecidableEq, Repr, Inhabited

/-- A directed edge between two elements, perhaps guarded by a condition. -/
structure Flow where
  id : String
  source : String
  target : String
  condition : Option String
deriving DecidableEq, Repr, Inhabited

/-- A process graph. -/
structure Definition where
  id : String
  version : UInt32
  name : Option String
  startEvents : List Node
  endEvents : List Node
  userTasks : List Node
  serviceTasks : List Node
  gateways : List Gateway
  flows : List Flow
  subProcesses : List Node
deriving DecidableEq, Inhabited

/-- The kinds of element. -/
inductive ElementKind where
  | startEvent
  | endEvent
  | userTask
  | serviceTask
  | gateway
  | subProcess
deriving DecidableEq, Repr, Inhabited

/-- An element of a definition. -/
inductive Element where
  | startEvent (node : Node)
  | endEvent (node : Node)
  | userTask (node : Node)
  | serviceTask (node : Node)
  | gateway (gateway : Gateway)
  | subProcess (node : Node)
deriving DecidableEq, Repr, Inhabited

/-! ## Making parts -/

/-- An element without a name. -/
def Node.unnamed (id : String) : Node := ⟨id, none⟩

/-- A gateway without a name. -/
def Gateway.unnamed (id : String) (kind : GatewayKind) (defaultFlow : Option String) : Gateway :=
  ⟨id, none, kind, defaultFlow⟩

/-- The first version of a process without elements. -/
def Definition.empty (id : String) : Definition := ⟨id, 1, none, [], [], [], [], [], [], []⟩

/-! ## Kinds -/

/-- The name of a kind of gateway as an element type. -/
def GatewayKind.label : GatewayKind → String
  | .exclusive => "exclusiveGateway"
  | .parallel => "parallelGateway"
  | .inclusive => "inclusiveGateway"
  | .eventBased => "eventBasedGateway"

/-- The name of a kind of element. -/
def ElementKind.label : ElementKind → String
  | .startEvent => "startEvent"
  | .endEvent => "endEvent"
  | .userTask => "userTask"
  | .serviceTask => "serviceTask"
  | .gateway => "gateway"
  | .subProcess => "subProcess"

namespace Element

/-- The id of an element. -/
def id : Element → String
  | .startEvent n | .endEvent n | .userTask n | .serviceTask n | .subProcess n => n.id
  | .gateway g => g.id

/-- The name of an element, if it has one. -/
def name : Element → Option String
  | .startEvent n | .endEvent n | .userTask n | .serviceTask n | .subProcess n => n.name
  | .gateway g => g.name

/-- The kind of an element. -/
def kind : Element → ElementKind
  | .startEvent _ => .startEvent
  | .endEvent _ => .endEvent
  | .userTask _ => .userTask
  | .serviceTask _ => .serviceTask
  | .gateway _ => .gateway
  | .subProcess _ => .subProcess

end Element

/-! ## The graph -/

/-- Whether a flow carries a condition; a blank one counts as none. -/
def Flow.isConditional (f : Flow) : Bool :=
  match f.condition with
  | some c => !Text.blank c
  | none => false

/-- The default among the flows that leave a gateway: the declared one, or else the first flow
without a condition. -/
def Gateway.defaultAmong (g : Gateway) (outgoing : List Flow) : Option Flow :=
  match g.defaultFlow with
  | some id => outgoing.find? (·.id == id)
  | none => outgoing.find? (!·.isConditional)

namespace Definition

/-- The first node with the given id. -/
def nodeIn (nodes : List Node) (id : String) : Option Node := nodes.find? (·.id == id)

/-- The element with the given id.  Of several elements with one id the kinds are tried in the order
start event, end event, user task, service task, gateway, sub-process. -/
def element? (d : Definition) (id : String) : Option Element :=
  (nodeIn d.startEvents id).map .startEvent <|>
  (nodeIn d.endEvents id).map .endEvent <|>
  (nodeIn d.userTasks id).map .userTask <|>
  (nodeIn d.serviceTasks id).map .serviceTask <|>
  (d.gateways.find? (·.id == id)).map .gateway <|>
  (nodeIn d.subProcesses id).map .subProcess

/-- The flows that leave an element, in the order of the definition. -/
def outgoing (d : Definition) (id : String) : List Flow := d.flows.filter (·.source == id)

/-- How many flows lead to an element. -/
def incomingCount (d : Definition) (id : String) : Nat := d.flows.countP (·.target == id)

/-- The ids of all elements: start events, end events, user tasks, service tasks, sub-processes and
gateways, an id as often as it is given. -/
def elementIds (d : Definition) : List String :=
  (d.startEvents ++ d.endEvents ++ d.userTasks ++ d.serviceTasks ++ d.subProcesses).map Node.id ++
  d.gateways.map Gateway.id

end Definition

end ProcessEngine

import ProcessEngine.Definition.Reachability

/-!
# Checking definitions

`Definition.issues` lists what is wrong or doubtful about a definition.  Only errors make a
definition invalid; a warning tells of a model that runs but may fail, or has parts without effect.
-/

namespace ProcessEngine

/-- How grave an issue is. -/
inductive Severity where
  | error
  | warning
deriving DecidableEq, Repr, Inhabited

/-- An end of a flow. -/
inductive FlowEnd where
  | source
  | target
deriving DecidableEq, Repr, Inhabited

/-- What the checks find, by cause. -/
inductive Issue where
  | noStartEvent (process : String)
  | noEndEvent (process : String)
  | repeatedId (element : String)
  | unknownElement (flow : String) (side : FlowEnd) (element : String)
  | unreachable (element : String)
  | noOutgoingFlow (gateway : String)
  | foreignDefault (gateway flow : String)
  | noDefault (gateway : String)
  | ignoredCondition (gateway flow : String)
deriving DecidableEq, Repr, Inhabited

/-- The name of an end of a flow. -/
def FlowEnd.label : FlowEnd → String
  | .source => "source"
  | .target => "target"

namespace Issue

/-- The code of the rule that is broken. -/
def rule : Issue → String
  | .noStartEvent _ => "D1"
  | .noEndEvent _ => "D2"
  | .repeatedId _ => "D3"
  | .unknownElement .. => "D4"
  | .unreachable _ => "D5"
  | .noOutgoingFlow _ => "G1"
  | .foreignDefault .. => "G2"
  | .noDefault _ => "G3"
  | .ignoredCondition .. => "G4"

/-- How grave the issue is. -/
def severity : Issue → Severity
  | .noStartEvent _ | .noEndEvent _ | .repeatedId _ | .unknownElement .. | .noOutgoingFlow _
  | .foreignDefault .. => .error
  | .unreachable _ | .noDefault _ | .ignoredCondition .. => .warning

/-- The element or flow at fault; issues of the whole process name none. -/
def subject : Issue → Option String
  | .noStartEvent _ | .noEndEvent _ => none
  | .repeatedId id | .unreachable id => some id
  | .unknownElement flow _ _ => some flow
  | .noOutgoingFlow gateway | .noDefault gateway => some gateway
  | .foreignDefault gateway _ | .ignoredCondition gateway _ => some gateway

/-- What is wrong, in words. -/
def message : Issue → String
  | .noStartEvent process => s!"Process '{process}' has no start event"
  | .noEndEvent process => s!"Process '{process}' has no end event"
  | .repeatedId element => s!"Element id '{element}' is used more than once"
  | .unknownElement flow side element =>
    s!"Sequence flow '{flow}' has unknown " ++ side.label ++ s!" '{element}'"
  | .unreachable element => s!"Element '{element}' cannot be reached from any start event"
  | .noOutgoingFlow gateway => s!"Gateway '{gateway}' has no outgoing flows"
  | .foreignDefault gateway flow =>
    s!"Gateway '{gateway}' declares default flow '{flow}' which is not one of its outgoing flows"
  | .noDefault gateway =>
    s!"Exclusive gateway '{gateway}' has no default flow; it fails when no condition holds"
  | .ignoredCondition gateway flow =>
    s!"Parallel gateway '{gateway}' ignores the condition on flow '{flow}'"

/-- The message behind its rule. -/
def text (i : Issue) : String := "[" ++ i.rule ++ "] " ++ i.message

end Issue

/-- What is wrong with a gateway that has the given outgoing flows.  Without any flow nothing else
is checked. -/
def Gateway.issues (g : Gateway) (outgoing : List Flow) : List Issue :=
  if outgoing.isEmpty then [.noOutgoingFlow g.id]
  else
    let declared := match g.defaultFlow with
      | some id => if outgoing.any (·.id == id) then [] else [.foreignDefault g.id id]
      | none => []
    let routing := match g.kind with
      | .exclusive => if (g.defaultAmong outgoing).isNone then [.noDefault g.id] else []
      | .parallel => (outgoing.filter (·.isConditional)).map fun f => .ignoredCondition g.id f.id
      | .inclusive | .eventBased => []
    declared ++ routing

namespace Definition

/-- The entries of a list that stand there before, in order. -/
def repeats : List String → List String → List String
  | _, [] => []
  | seen, id :: rest =>
    if seen.contains id then id :: repeats seen rest else repeats (id :: seen) rest

/-- The ends of a flow that name no element, the source first. -/
def danglingEnds (d : Definition) (f : Flow) : List Issue :=
  let check (side : FlowEnd) (id : String) : List Issue :=
    if (d.element? id).isNone then [.unknownElement f.id side id] else []
  check .source f.source ++ check .target f.target

/-- All issues: start and end events, repeated ids, dangling flows, unreachable elements, and then
the gateways in their order. -/
def issues (d : Definition) : List Issue :=
  (if d.startEvents.isEmpty then [.noStartEvent d.id] else []) ++
  (if d.endEvents.isEmpty then [.noEndEvent d.id] else []) ++
  (repeats [] d.elementIds).map .repeatedId ++
  d.flows.flatMap d.danglingEnds ++
  (if d.startEvents.isEmpty then [] else d.unreachable.map .unreachable) ++
  d.gateways.flatMap fun g => g.issues (d.outgoing g.id)

/-- The issues that make a definition invalid. -/
def faults (d : Definition) : List Issue := d.issues.filter (·.severity == .error)

/-- Whether no check finds an error. -/
def isValid (d : Definition) : Bool := d.faults.isEmpty

end Definition

end ProcessEngine

import ProcessEngine.Definition.Basic
import ProcessEngine.Event.Basic
import ProcessEngine.Expression.Source

/-!
# Guarded routing

Which of its outgoing flows a gateway takes.  A guard that cannot be evaluated counts as not
holding. Flows are told apart by their ids: a flow with the id of the default is never tried as a
guarded one.
-/

namespace ProcessEngine

/-- The source of the condition on a flow, if it carries one. -/
def Flow.guardSource? (f : Flow) : Option String := if f.isConditional then f.condition else none

/-- Whether a flow may be taken: it carries no condition, or its condition holds. -/
def Flow.isOpen (vars : Variables) (f : Flow) : Bool :=
  match f.guardSource? with
  | none => true
  | some source =>
    match Expression.evaluateCondition source vars with
    | .ok holds => holds
    | .error _ => false

/-- What is reported while the condition on a flow is evaluated. -/
def Flow.guardEvents (vars : Variables) (f : Flow) : List Event :=
  match f.guardSource? with
  | none => []
  | some source =>
    [.evaluateStart source,
      match Expression.evaluateSource source vars with
      | .ok result => .evaluateEnd source result
      | .error e => .evaluateError source e.message]

/-- Whether a flow has the id of the default flow. -/
def isDefault (default : Option Flow) (f : Flow) : Bool :=
  match default with
  | some d => d.id == f.id
  | none => false

/-! ## One way out -/

namespace Gateway

/-- The flows that an exclusive gateway tries: the conditional ones but the default. -/
def exclusiveCandidates (g : Gateway) (outgoing : List Flow) : List Flow :=
  outgoing.filter fun f => f.isConditional && !isDefault (g.defaultAmong outgoing) f

/-- The flow that an exclusive gateway takes: the first candidate whose condition holds, else the
default. -/
def exclusiveChoice (g : Gateway) (outgoing : List Flow) (vars : Variables) : Option Flow :=
  ((g.exclusiveCandidates outgoing).find? (·.isOpen vars)) <|> g.defaultAmong outgoing

/-- The flows up to and including the first open one. -/
def untilOpen (vars : Variables) : List Flow → List Flow
  | [] => []
  | f :: rest => if f.isOpen vars then [f] else f :: untilOpen vars rest

/-- What is reported while an exclusive gateway chooses: it tries no flow after the one it takes. -/
def exclusiveEvents (g : Gateway) (outgoing : List Flow) (vars : Variables) : List Event :=
  (untilOpen vars (g.exclusiveCandidates outgoing)).flatMap (·.guardEvents vars)

/-! ## Several ways out -/

/-- The default of an inclusive gateway.  Where neither a default is declared nor a flow carries a
condition, there is nothing to fall back from. -/
def inclusiveDefault (g : Gateway) (outgoing : List Flow) : Option Flow :=
  if g.defaultFlow.isSome || outgoing.any (·.isConditional) then g.defaultAmong outgoing else none

/-- The flows that an inclusive gateway tries: all but the default. -/
def inclusiveCandidates (g : Gateway) (outgoing : List Flow) : List Flow :=
  outgoing.filter fun f => !isDefault (g.inclusiveDefault outgoing) f

/-- The flows that an inclusive gateway takes: every open candidate, or the default if there is
none. -/
def inclusiveChoice (g : Gateway) (outgoing : List Flow) (vars : Variables) : List Flow :=
  match (g.inclusiveCandidates outgoing).filter (·.isOpen vars) with
  | [] => (g.inclusiveDefault outgoing).toList
  | taken => taken

/-- What is reported while an inclusive gateway chooses. -/
def inclusiveEvents (g : Gateway) (outgoing : List Flow) (vars : Variables) : List Event :=
  (g.inclusiveCandidates outgoing).flatMap (·.guardEvents vars)

end Gateway

end ProcessEngine

import ProcessEngine.Uid
import ProcessEngine.Definition.Validation
import ProcessEngine.Expression.Evaluation

/-!
# Errors of the engine

Why an operation is refused, by cause, and the words in which the cause is told.
-/

namespace ProcessEngine

/-- Why an operation is refused. -/
inductive EngineError where
  | instanceNotFound (instanceId : String)
  | elementNotFound (definition element : String)
  | stateNotFound (state : Uid)
  | scopeNotFound (scope : String)
  | noStartEvent (definition : String)
  | noOutgoingFlow (gateway : String)
  | noSatisfiedFlow (gateway : String)
  | missingInstanceId (gateway : String)
  | invalidDefinition (faults : List Issue)
  | scopeExists (scope : String)
  | expression (cause : ExpressionError)
  | branchCountExceeded (state : Uid) (activeBranches : Nat)
  | joinResolved (state : Uid)
  | instanceEnded (instanceId : String)
  | taskNotActive (instanceId element : String)
  | tokenSuspended (instanceId element : String)
  | noSuspendedElement (instanceId : String)
  | traversalLimitExceeded (instanceId : String) (limit : Nat)
deriving DecidableEq, Inhabited

namespace EngineError

/-- The error in words. -/
def message : EngineError → String
  | .instanceNotFound i => s!"Process instance not found: {i}"
  | .elementNotFound d e => s!"Element not found in definition {d}: {e}"
  | .stateNotFound s => "Gateway state not found: " ++ s.text
  | .scopeNotFound s => s!"Compensation scope not found: {s}"
  | .noStartEvent d => s!"Process definition {d} has no start event"
  | .noOutgoingFlow g => s!"Gateway {g} has no outgoing flow"
  | .noSatisfiedFlow g => s!"Gateway {g}: no condition satisfied and no default flow"
  | .missingInstanceId g => s!"Gateway {g}: join requires a process instance id"
  | .invalidDefinition faults =>
    "Invalid process definition: " ++ String.intercalate "; " (faults.map Issue.text)
  | .scopeExists s => s!"Compensation scope already exists: {s}"
  | .expression cause => "Expression error: " ++ cause.message
  | .branchCountExceeded s n =>
    "Gateway state " ++ s.text ++ s!": completed branches would exceed {n}"
  | .joinResolved s => "Gateway state " ++ s.text ++ " already resolved"
  | .instanceEnded i => s!"Process instance {i} has ended"
  | .taskNotActive i e => s!"No active token waits at {e} in instance {i}"
  | .tokenSuspended i e => s!"Token at {e} in instance {i} is suspended"
  | .noSuspendedElement i => s!"Process instance {i} has no suspended element"
  | .traversalLimitExceeded i n => s!"Process instance {i}: traversal exceeded {n} steps"

/-- Whether the error says that something named is not there. -/
def isNotFound : EngineError → Bool
  | .instanceNotFound _ | .elementNotFound .. | .stateNotFound _ | .scopeNotFound _ => true
  | _ => false

end EngineError

/-- A definition is refused if a check finds an error. -/
def Definition.ensureValid (d : Definition) : Except EngineError Unit :=
  if d.isValid then .ok () else .error (.invalidDefinition d.faults)

end ProcessEngine

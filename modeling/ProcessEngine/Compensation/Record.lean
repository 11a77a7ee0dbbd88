import ProcessEngine.Compensation.RetryPolicy
import ProcessEngine.Value

/-!
# What compensation works on

Records of completed activities, the scopes that group them, subscriptions, and the handlers that
undo an activity.
-/

namespace ProcessEngine.Compensation

/-- What became of a record. -/
inductive Progress where
  | pending
  | compensated
  | failed
deriving DecidableEq, Repr, Inhabited

/-- What is known of an activity when it completes. -/
structure Completion where
  instanceId : String
  executionId : String
  activityId : String
  activityType : String
  activityName : Option String
  vars : Variables
  scopeId : Option String
deriving Inhabited

/-- The record of a completed activity.  Sequence numbers grow in the order of recording. -/
structure Record extends Completion where
  sequence : Nat
  progress : Progress
  attempts : Nat
deriving Inhabited

/-- A group of activities of one instance.  Root scopes have depth zero. -/
structure Scope where
  id : String
  instanceId : String
  activityId : Option String
  parentId : Option String
  depth : Nat
  children : List String
deriving DecidableEq, Repr, Inhabited

/-- An activity that is declared compensable before it completes. -/
structure Subscription where
  instanceId : String
  activityId : String
  boundaryEventId : Option String
deriving DecidableEq, Repr, Inhabited

/-- What a handler sees when it is asked to undo an activity; attempts are counted from one. -/
structure Invocation extends Completion where
  attempt : Nat
deriving Inhabited

/-- What a handler answers; whether to try again matters only after a failure. -/
structure HandlerResult where
  success : Bool
  error : Option String
  retry : Bool
deriving DecidableEq, Repr, Inhabited

namespace HandlerResult

/-- The activity is undone. -/
def done : HandlerResult := ⟨true, none, false⟩

/-- The activity cannot be undone. -/
def failed (error : String) : HandlerResult := ⟨false, some error, false⟩

/-- The activity is not undone yet. -/
def retryable (error : String) : HandlerResult := ⟨false, some error, true⟩

end HandlerResult

/-- Undoes an activity.  The answer may depend on what the handler is given and on the number of
invocations that the coordinator has made before, so it may differ from one invocation to the next.
A handler may bring its own policy. -/
structure Handler where
  respond : Nat → Invocation → HandlerResult
  policy : Option RetryPolicy

/-- One step of a plan. -/
structure PlanStep where
  sequence : Nat
  executionId : String
  activityId : String
  activityType : String
  scopeId : Option String
  hasHandler : Bool
deriving DecidableEq, Repr, Inhabited

/-- An order of compensation that is fixed ahead of its execution, the last record first. -/
structure Plan where
  instanceId : String
  activityId : Option String
  scopeId : Option String
  steps : List PlanStep
deriving DecidableEq, Repr, Inhabited

/-- The activities of a plan in order. -/
def Plan.activityOrder (p : Plan) : List String := p.steps.map PlanStep.activityId

/-- What became of one step.  A step without handler is skipped. -/
structure Report where
  sequence : Nat
  executionId : String
  activityId : String
  success : Bool
  error : Option String
  skipped : Bool
  attempts : Nat
deriving DecidableEq, Repr, Inhabited

/-- How many records of a kind there are, by what became of them. -/
structure Tally where
  recorded : Nat
  pending : Nat
  compensated : Nat
  failed : Nat
deriving DecidableEq, Repr, Inhabited

/-- What a coordinator holds, in numbers; the activity types come in ascending order. -/
structure Statistics where
  total : Tally
  handlers : Nat
  scopes : Nat
  subscriptions : Nat
  instances : Nat
  byActivityType : List (String × Tally)
deriving DecidableEq, Repr, Inhabited

end ProcessEngine.Compensation

import ProcessEngine.Compensation.Record
import ProcessEngine.Value

/-!
# The wire form of compensation

Records, scopes, subscriptions, plans, reports and statistics as structured values.
-/

namespace ProcessEngine.Compensation

/-- The name of what became of a record. -/
def Progress.label : Progress → String
  | .pending => "PENDING"
  | .compensated => "COMPENSATED"
  | .failed => "FAILED"

/-- The fields that a record and an invocation share. -/
def Completion.fields (c : Completion) : Fields :=
  [("processInstanceId", .string c.instanceId), ("executionId", .string c.executionId),
    ("activityId", .string c.activityId), ("activityType", .string c.activityType),
    ("activityName", .ofText? c.activityName), ("scopeId", .ofText? c.scopeId)]

/-- The record of a completed activity. -/
def Record.toValue (r : Record) : Value :=
  .object (r.toCompletion.fields ++
    [("sequence", .ofNat r.sequence), ("variableSnapshot", .object r.vars),
      ("state", .string r.progress.label), ("attempts", .ofNat r.attempts)])

/-- The record of what a handler is given. -/
def Invocation.toValue (i : Invocation) : Value :=
  .object (i.toCompletion.fields ++
    [("variables", .object i.vars), ("attempt", .ofNat i.attempt)])

/-- The record of a scope. -/
def Scope.toValue (s : Scope) : Value :=
  .object [("scopeId", .string s.id), ("processInstanceId", .string s.instanceId),
    ("activityId", .ofText? s.activityId), ("parentScopeId", .ofText? s.parentId),
    ("depth", .ofNat s.depth), ("childScopes", .ofTexts s.children)]

/-- The record of a subscription. -/
def Subscription.toValue (s : Subscription) : Value :=
  .object [("processInstanceId", .string s.instanceId), ("activityId", .string s.activityId),
    ("boundaryEventId", .ofText? s.boundaryEventId)]

/-- The record of a step of a plan. -/
def PlanStep.toValue (s : PlanStep) : Value :=
  .object [("sequence", .ofNat s.sequence), ("executionId", .string s.executionId),
    ("activityId", .string s.activityId), ("activityType", .string s.activityType),
    ("scopeId", .ofText? s.scopeId), ("hasHandler", .bool s.hasHandler)]

/-- The record of a plan. -/
def Plan.toValue (p : Plan) : Value :=
  .object [("processInstanceId", .string p.instanceId), ("activityId", .ofText? p.activityId),
    ("scopeId", .ofText? p.scopeId), ("steps", .array (p.steps.map PlanStep.toValue))]

/-- The record of a report. -/
def Report.toValue (r : Report) : Value :=
  .object [("sequence", .ofNat r.sequence), ("executionId", .string r.executionId),
    ("activityId", .string r.activityId), ("success", .bool r.success),
    ("error", .ofText? r.error), ("skipped", .bool r.skipped), ("attempts", .ofNat r.attempts)]

/-- The record of a tally. -/
def Tally.toValue (t : Tally) : Value :=
  .object [("recorded", .ofNat t.recorded), ("pending", .ofNat t.pending),
    ("compensated", .ofNat t.compensated), ("failed", .ofNat t.failed)]

/-- The record of the numbers of a coordinator. -/
def Statistics.toValue (s : Statistics) : Value :=
  .object [("totalRecords", .ofNat s.total.recorded), ("pending", .ofNat s.total.pending),
    ("compensated", .ofNat s.total.compensated), ("failed", .ofNat s.total.failed),
    ("handlers", .ofNat s.handlers), ("scopes", .ofNat s.scopes),
    ("subscriptions", .ofNat s.subscriptions), ("instances", .ofNat s.instances),
    ("byActivityType", .object (s.byActivityType.map fun (type, t) => (type, t.toValue)))]

end ProcessEngine.Compensation

import ProcessEngine.Compensation.Coordinator

/-!
# Planning and executing compensation

A plan lists what is still to be undone, the last record first.  Executing it asks the handlers,
step by step; a step that fails is reported and does not keep later steps from running.
-/

namespace ProcessEngine.Compensation

/-! ## Plans -/

/-- Whether a record is inside the scopes of a filter.  Without a filter every record is; with one,
a record without scope is not. -/
def inScopes (scopes : Option (List String)) (r : Record) : Bool :=
  match scopes, r.scopeId with
  | none, _ => true
  | some scopes, some s => scopes.contains s
  | some _, none => false

namespace Coordinator

/-- The plan to undo the records of an instance that are not undone yet: all of them, or those of
one activity, or those inside a scope. -/
def createPlan (c : Coordinator) (instanceId : String) (activityId scopeId : Option String) :
    Plan :=
  let scopes := scopeId.map (c.scopeWithDescendants instanceId)
  let selected := (c.recordsOf instanceId).reverse.filter fun r =>
    r.progress != .compensated && activityId.all (r.activityId == ·) && inScopes scopes r
  { instanceId, activityId, scopeId
    steps := selected.map fun r =>
      { sequence := r.sequence
        executionId := r.executionId
        activityId := r.activityId
        activityType := r.activityType
        scopeId := r.scopeId
        hasHandler := c.hasHandler instanceId r.activityId } }

end Coordinator

/-! ## Attempts -/

/-- What the attempts at one record came to: the last answer, what the handler was given, in order,
and the time waited between attempts in milliseconds. -/
structure Trial where
  result : HandlerResult
  invocations : List Invocation
  waited : Nat

/-- How many attempts there were. -/
def Trial.attempts (t : Trial) : Nat := t.invocations.length

/-- Attempts are counted in 32 bits. -/
def attemptLimit : Nat := UInt32.size - 1

/-- Asks a handler until it succeeds, gives up, or has been asked as often as the policy allows.
The handler was asked `made` times for this record, and the coordinator has made `invoked`
invocations before.  There is no outcome if the attempts are used up before the asking ends. -/
def attempt (h : Handler) (policy : RetryPolicy) (record : Record) :
    Nat → Nat → Nat → Option Trial
  | 0, _, _ => none
  | fuel + 1, made, invoked =>
    let number := made + 1
    let invocation : Invocation := { record with attempt := number }
    let result := h.respond invoked invocation
    if result.success || !result.retry || !policy.allowsAnother number then
      some ⟨result, [invocation], 0⟩
    else
      (attempt h policy record fuel number (invoked + 1)).map fun later =>
        ⟨later.result, invocation :: later.invocations, policy.delayFor number + later.waited⟩

/-! ## Execution -/

/-- What the execution of a plan came to. -/
structure Outcome where
  reports : List Report
  invocations : List Invocation
  waited : Nat
deriving Inhabited

/-- Nothing happened. -/
def Outcome.none : Outcome := ⟨[], [], 0⟩

/-- One outcome after another. -/
def Outcome.append (a b : Outcome) : Outcome :=
  ⟨a.reports ++ b.reports, a.invocations ++ b.invocations, a.waited + b.waited⟩

/-- The report on a record. -/
def reportOn (r : Record) (success : Bool) (error : Option String) (skipped : Bool)
    (attempts : Nat) : Report :=
  ⟨r.sequence, r.executionId, r.activityId, success, error, skipped, attempts⟩

namespace Coordinator

/-- Executes one step.  A record that is gone or undone meanwhile is passed over; one without
handler counts as undone. -/
def executeStep (c : Coordinator) (instanceId : String) (step : PlanStep) :
    Option (Outcome × Coordinator) :=
  match c.record? instanceId step.sequence with
  | none => some (.none, c)
  | some record =>
    if record.progress == .compensated then some (.none, c)
    else
      match c.handler? instanceId step.activityId with
      | none =>
        some (⟨[reportOn record true none true 0], [], 0⟩, c.finish record .compensated 0)
      | some h =>
        (attempt h (h.policy.getD c.defaultPolicy) record attemptLimit 0 c.invoked).map fun trial =>
          let progress := if trial.result.success then Progress.compensated else .failed
          let report := reportOn record trial.result.success trial.result.error false trial.attempts
          (⟨[report], trial.invocations, trial.waited⟩,
            { c.finish record progress trial.attempts with
              invoked := c.invoked + trial.attempts })

/-- Executes the steps of a plan in order. -/
def executeSteps (c : Coordinator) (instanceId : String) :
    List PlanStep → Option (Outcome × Coordinator)
  | [] => some (.none, c)
  | step :: rest =>
    match c.executeStep instanceId step with
    | none => none
    | some (first, c) =>
      match executeSteps c instanceId rest with
      | none => none
      | some (later, c) => some (first.append later, c)

/-- Executes a plan.  There is no outcome if a handler asks for another attempt without end. -/
def executePlan (c : Coordinator) (plan : Plan) : Option (Outcome × Coordinator) :=
  c.executeSteps plan.instanceId plan.steps

/-- Undoes what a fresh plan selects. -/
def compensate (c : Coordinator) (instanceId : String) (activityId scopeId : Option String) :
    Option (Outcome × Coordinator) :=
  c.executePlan (c.createPlan instanceId activityId scopeId)

end Coordinator

end ProcessEngine.Compensation

import ProcessEngine.Closure
import ProcessEngine.Compensation.Record
import ProcessEngine.Error

/-!
# The compensation coordinator

Keeps, per instance, the records of completed activities in order, the scopes that group them, and
the handlers that undo them.
-/

namespace ProcessEngine.Compensation

/-- The records in the order of recording, the scopes in the order of creation, one handler per
instance and activity, the last sequence number given out, and the number of invocations made. -/
structure Coordinator where
  defaultPolicy : RetryPolicy
  handlers : List ((String × String) × Handler)
  records : List Record
  scopes : List Scope
  subscriptions : List Subscription
  lastSequence : Nat
  invoked : Nat

namespace Coordinator

/-- A coordinator that holds nothing. -/
def new (policy : RetryPolicy) : Coordinator := ⟨policy, [], [], [], [], 0, 0⟩

/-! ## Handlers -/

/-- The handler for an activity of an instance. -/
def handler? (c : Coordinator) (instanceId activityId : String) : Option Handler :=
  c.handlers.lookup (instanceId, activityId)

/-- Whether there is a handler for an activity of an instance. -/
def hasHandler (c : Coordinator) (instanceId activityId : String) : Bool :=
  (c.handler? instanceId activityId).isSome

/-- The handlers but the one for an activity of an instance. -/
def otherHandlers (c : Coordinator) (instanceId activityId : String) :
    List ((String × String) × Handler) :=
  c.handlers.filter (·.1 != (instanceId, activityId))

/-- Sets the handler for an activity of an instance. -/
def register (c : Coordinator) (instanceId activityId : String) (h : Handler) : Coordinator :=
  { c with
    handlers := ((instanceId, activityId), h) :: c.otherHandlers instanceId activityId }

/-- Drops the handler for an activity of an instance; tells whether there was one. -/
def unregister (c : Coordinator) (instanceId activityId : String) : Bool × Coordinator :=
  (c.hasHandler instanceId activityId,
    { c with handlers := c.otherHandlers instanceId activityId })

/-! ## Records -/

/-- Records a completed activity. -/
def recordExecution (c : Coordinator) (completion : Completion) : Record × Coordinator :=
  let sequence := c.lastSequence + 1
  let record : Record := { completion with sequence, progress := .pending, attempts := 0 }
  (record, { c with records := c.records ++ [record], lastSequence := sequence })

/-- The records of an instance in the order of recording. -/
def recordsOf (c : Coordinator) (instanceId : String) : List Record :=
  c.records.filter (·.instanceId == instanceId)

/-- The record of an instance with the given sequence number. -/
def record? (c : Coordinator) (instanceId : String) (sequence : Nat) : Option Record :=
  c.records.find? fun r => r.instanceId == instanceId && r.sequence == sequence

/-- Notes what became of a record, and the attempts that were made. -/
def finish (c : Coordinator) (record : Record) (progress : Progress) (attempts : Nat) :
    Coordinator :=
  { c with
    records := c.records.map fun r =>
      if r.instanceId == record.instanceId && r.sequence == record.sequence then
        { r with progress, attempts := r.attempts + attempts }
      else r }

/-! ## Scopes -/

/-- The scope of an instance with the given id. -/
def scope? (c : Coordinator) (instanceId scopeId : String) : Option Scope :=
  c.scopes.find? fun s => s.instanceId == instanceId && s.id == scopeId

/-- Adds a child to the scope of an instance with the given id. -/
def addChild (c : Coordinator) (instanceId scopeId child : String) : Coordinator :=
  { c with
    scopes := c.scopes.map fun s =>
      if s.instanceId == instanceId && s.id == scopeId then
        { s with children := s.children ++ [child] }
      else s }

/-- Creates a scope, perhaps inside another one. -/
def createScope (c : Coordinator) (instanceId scopeId : String)
    (activityId parentId : Option String) : Except EngineError (Scope × Coordinator) :=
  if (c.scope? instanceId scopeId).isSome then .error (.scopeExists scopeId)
  else
    let place (depth : Nat) (c : Coordinator) : Scope × Coordinator :=
      let scope : Scope := ⟨scopeId, instanceId, activityId, parentId, depth, []⟩
      (scope, { c with scopes := c.scopes ++ [scope] })
    match parentId with
    | none => .ok (place 0 c)
    | some parent =>
      match c.scope? instanceId parent with
      | none => .error (.scopeNotFound parent)
      | some p => .ok (place (p.depth + 1) (c.addChild instanceId parent scopeId))

/-- The edges from the scopes of an instance to their children. -/
def scopeEdges (c : Coordinator) (instanceId : String) : List (String × String) :=
  (c.scopes.filter (·.instanceId == instanceId)).flatMap fun s => s.children.map (s.id, ·)

/-- A scope of an instance and every scope below it. -/
def scopeWithDescendants (c : Coordinator) (instanceId scopeId : String) : List String :=
  closure (c.scopeEdges instanceId) [scopeId]

/-! ## Subscriptions -/

/-- Declares an activity compensable. -/
def subscribe (c : Coordinator) (instanceId activityId : String) (boundary : Option String) :
    Subscription × Coordinator :=
  let subscription : Subscription := ⟨instanceId, activityId, boundary⟩
  (subscription, { c with subscriptions := c.subscriptions ++ [subscription] })

/-- The subscriptions of an instance in order. -/
def subscriptionsOf (c : Coordinator) (instanceId : String) : List Subscription :=
  c.subscriptions.filter (·.instanceId == instanceId)

/-! ## The whole -/

/-- Forgets an instance: its records, scopes, subscriptions and handlers. -/
def cleanup (c : Coordinator) (instanceId : String) : Coordinator :=
  { c with
    records := c.records.filter (·.instanceId != instanceId)
    scopes := c.scopes.filter (·.instanceId != instanceId)
    subscriptions := c.subscriptions.filter (·.instanceId != instanceId)
    handlers := c.handlers.filter (·.1.1 != instanceId) }

/-- Counts records by what became of them. -/
def tally (records : List Record) : Tally :=
  { recorded := records.length
    pending := records.countP (·.progress == .pending)
    compensated := records.countP (·.progress == .compensated)
    failed := records.countP (·.progress == .failed) }

/-- The numbers of a coordinator. -/
def statistics (c : Coordinator) : Statistics :=
  let types := ((c.records.map fun r => r.activityType).eraseDups).mergeSort
    fun a b => decide (a ≤ b)
  { total := tally c.records
    handlers := c.handlers.length
    scopes := c.scopes.length
    subscriptions := c.subscriptions.length
    instances := ((c.records.map fun r => r.instanceId).eraseDups).length
    byActivityType := types.map fun t => (t, tally (c.records.filter (·.activityType == t))) }

end Coordinator

end ProcessEngine.Compensation

import Mathlib.Data.Set.Insert
import ProcessEngine.Proofs.Closure
import ProcessEngine.Proofs.Compensation.Operations
import ProcessEngine.Proofs.Compensation.Scopes

/-!
# What a plan selects

A plan is made from what a coordinator holds at the moment: records, scopes and handlers, which come
in any order.  A record may name a scope that is created later, or never.  `Inside` tells by the
parents which scopes are inside another one, while the plan is made by the children; since scopes
are nested, both come to the same (`Nested.mem_scopeWithDescendants`).  So a plan consists of the
records that it asks for, the last one first (`createPlan_selects`).
-/

namespace ProcessEngine.Compensation

/-! ## Inside a scope -/

/-- The ids that are inside a scope: its own, and those of the scopes whose parent is inside. -/
inductive Inside (ss : List Scope) (x : String) : String → Prop
  | self : Inside ss x x
  | inner {s : Scope} {y : String} (hs : s ∈ ss) (hparent : s.parentId = some y)
      (h : Inside ss x y) : Inside ss x s.id

namespace Nested

variable {c : Coordinator} {p x y : String}

/-- An edge leads from the parent of a scope to the scope. -/
lemma mem_scopeEdges (h : Nested (c.scopesOf p)) :
    (x, y) ∈ c.scopeEdges p ↔ ∃ s ∈ c.scopesOf p, s.id = y ∧ s.parentId = some x := by
  rw [Coordinator.scopeEdges, ← Coordinator.scopesOf, List.mem_flatMap]
  constructor
  · rintro ⟨q, hq, hedge⟩
    obtain ⟨child, hchild, heq⟩ := List.mem_map.1 hedge
    obtain ⟨rfl, rfl⟩ := Prod.mk.inj heq
    exact (h.mem_children hq).1 hchild
  · rintro ⟨s, hs, rfl, hparent⟩
    obtain ⟨q, hq, rfl, -⟩ := h.parents s hs x hparent
    exact ⟨q, hq, List.mem_map_of_mem ((h.mem_children hq).2 ⟨s, hs, rfl, hparent⟩)⟩

/-- The walk down the children comes to what is inside by the parents. -/
theorem mem_scopeWithDescendants (h : Nested (c.scopesOf p)) :
    y ∈ c.scopeWithDescendants p x ↔ Inside (c.scopesOf p) x y := by
  rw [Coordinator.scopeWithDescendants, mem_closure]
  constructor
  · rintro ⟨start, hstart, hpath⟩
    obtain rfl := List.mem_singleton.1 hstart
    induction hpath with
    | refl => exact .self
    | tail _ hedge ih =>
      obtain ⟨s, hs, rfl, hparent⟩ := h.mem_scopeEdges.1 hedge
      exact .inner hs hparent ih
  · intro hinside
    induction hinside with
    | self => exact ⟨x, List.mem_singleton_self x, .refl⟩
    | inner hs hparent _ ih =>
      obtain ⟨start, hstart, hpath⟩ := ih
      exact ⟨start, hstart, hpath.tail (h.mem_scopeEdges.2 ⟨_, hs, rfl, hparent⟩)⟩

end Nested

/-! ## Handlers that were registered -/

namespace Coordinator

/-- The coordinators that operations lead to, with the activities of instances for which a handler
was registered and not dropped since. -/
inductive Serving : Coordinator → Set (String × String) → Prop
  | new (policy : RetryPolicy) : Serving (.new policy) ∅
  | record {c : Coordinator} {served : Set (String × String)} (h : Serving c served)
      (completion : Completion) : Serving (c.recordExecution completion).2 served
  | createScope {c c' : Coordinator} {served : Set (String × String)} (h : Serving c served)
      {instanceId scopeId : String} {activityId parentId : Option String} {s : Scope}
      (hok : c.createScope instanceId scopeId activityId parentId = .ok (s, c')) :
      Serving c' served
  | subscribe {c : Coordinator} {served : Set (String × String)} (h : Serving c served)
      (instanceId activityId : String) (boundary : Option String) :
      Serving (c.subscribe instanceId activityId boundary).2 served
  | register {c : Coordinator} {served : Set (String × String)} (h : Serving c served)
      (instanceId activityId : String) (handler : Handler) :
      Serving (c.register instanceId activityId handler) (insert (instanceId, activityId) served)
  | unregister {c : Coordinator} {served : Set (String × String)} (h : Serving c served)
      (instanceId activityId : String) :
      Serving (c.unregister instanceId activityId).2 (served \ {(instanceId, activityId)})
  | executeStep {c c' : Coordinator} {served : Set (String × String)} (h : Serving c served)
      {instanceId : String} {step : PlanStep} {outcome : Outcome}
      (hok : c.executeStep instanceId step = some (outcome, c')) : Serving c' served
  | executePlan {c c' : Coordinator} {served : Set (String × String)} (h : Serving c served)
      {plan : Plan} {outcome : Outcome} (hok : c.executePlan plan = some (outcome, c')) :
      Serving c' served
  | cleanup {c : Coordinator} {served : Set (String × String)} (h : Serving c served)
      (instanceId : String) :
      Serving (c.cleanup instanceId) {key ∈ served | key.1 ≠ instanceId}

variable {c c' : Coordinator} {served : Set (String × String)} {p : String}

lemma handlers_createScope {x : String} {activity parent : Option String} {s : Scope}
    (hok : c.createScope p x activity parent = .ok (s, c')) : c'.handlers = c.handlers := by
  rw [createScope] at hok
  split_ifs at hok
  split at hok
  · cases hok
    rfl
  · split at hok
    · cases hok
    · cases hok
      rfl

namespace Serving

lemma operated (h : c.Serving served) : c.Operated := by
  have hlater : ∀ {c c' : Coordinator}, c.Operated → Operates c c' → c'.Operated :=
    fun ⟨policy, hops⟩ hop => ⟨policy, hops.tail hop⟩
  induction h with
  | new policy => exact ⟨policy, .refl⟩
  | record _ completion ih => exact hlater ih (.record _ completion)
  | createScope _ hok ih => exact hlater ih (.use "" (.createScope hok))
  | subscribe _ _ _ _ ih => exact hlater ih (.use "" (.subscribe _ _ _ _))
  | register _ _ _ _ ih => exact hlater ih (.use "" (.register _ _ _ _))
  | unregister _ _ _ ih => exact hlater ih (.use "" (.unregister _ _ _))
  | executeStep _ hok ih => exact hlater ih (.use "" (.executeStep hok))
  | executePlan _ hok ih => exact hlater ih (.use "" (.executePlan hok))
  | cleanup _ id ih => exact hlater ih (.cleanup _ id)

/-- The scopes of every instance are nested. -/
lemma nests (h : c.Serving served) : c.Nests := by
  induction h with
  | new policy => exact .new policy
  | record _ _ ih | subscribe _ _ _ _ ih | register _ _ _ _ ih | unregister _ _ _ ih =>
    exact ih.of_scopes rfl
  | createScope _ hok ih => exact ih.createScope hok
  | executeStep _ hok ih => exact ih.of_scopes (scopes_executeStep hok)
  | executePlan _ hok ih => exact ih.of_scopes (scopes_executeSteps hok)
  | cleanup _ id ih => exact ih.cleanup id

/-- There is a handler if one was registered and not dropped since. -/
lemma hasHandler_iff (h : c.Serving served) (id activity : String) :
    c.hasHandler id activity = true ↔ (id, activity) ∈ served := by
  have hsame : ∀ {c c' : Coordinator}, c'.handlers = c.handlers →
      c'.hasHandler id activity = c.hasHandler id activity := fun heq => by
    rw [hasHandler, handler?, heq, hasHandler, handler?]
  induction h with
  | new policy => simp [hasHandler, handler?, Coordinator.new]
  | record _ _ ih => exact ih
  | subscribe _ _ _ _ ih => exact ih
  | createScope _ hok ih =>
    rw [hsame (handlers_createScope hok)]
    exact ih
  | executeStep h hok ih =>
    rw [hsame (executeStep_marks h.operated.ordered hok).handlers]
    exact ih
  | executePlan h hok ih =>
    rw [hsame (executeSteps_marks h.operated.ordered hok).handlers]
    exact ih
  | register _ i a handler ih =>
    rw [hasHandler, handler?_register, Set.mem_insert_iff, Prod.mk.injEq]
    split_ifs with hkey
    · simp [hkey]
    · rw [or_iff_right hkey]
      exact ih
  | unregister _ i a ih =>
    rw [hasHandler, handler?_unregister, Set.mem_sdiff, Set.mem_singleton_iff, Prod.mk.injEq]
    split_ifs with hkey
    · simp [hkey]
    · rw [and_iff_left hkey]
      exact ih
  | cleanup _ i ih =>
    rw [hasHandler, handler?_cleanup, Set.mem_ofPred_eq]
    split_ifs with hkey
    · simp [hkey]
    · rw [and_iff_left hkey]
      exact ih

end Serving

/-- Nothing is left out: whatever operations there were, it is known which handlers were registered
and not dropped since. -/
lemma Operated.serving (h : c.Operated) : ∃ served, c.Serving served := by
  obtain ⟨policy, hops⟩ := h
  induction hops with
  | refl => exact ⟨∅, .new policy⟩
  | tail _ hop ih =>
    obtain ⟨served, hserving⟩ := ih
    cases hop with
    | record => exact ⟨_, hserving.record _⟩
    | cleanup => exact ⟨_, hserving.cleanup _⟩
    | use _ huse =>
      cases huse with
      | register => exact ⟨_, hserving.register _ _ _⟩
      | unregister => exact ⟨_, hserving.unregister _ _⟩
      | record => exact ⟨_, hserving.record _⟩
      | createScope hok => exact ⟨_, hserving.createScope hok⟩
      | subscribe => exact ⟨_, hserving.subscribe _ _ _⟩
      | executeStep hok => exact ⟨_, hserving.executeStep hok⟩
      | executePlan hok => exact ⟨_, hserving.executePlan hok⟩
      | cleanup => exact ⟨_, hserving.cleanup _⟩

/-! ## Selection -/

/-- The records of an instance that a plan asks for: those that are not undone, of one activity if
one is given, and in a scope if one is given. -/
structure Selects (c : Coordinator) (p : String) (activity scope : Option String) (r : Record) :
    Prop where
  recorded : r ∈ c.records
  instanceId : r.instanceId = p
  notUndone : r.progress ≠ .compensated
  activityId : ∀ a, activity = some a → r.activityId = a
  scopeId : ∀ x, scope = some x → ∃ y, r.scopeId = some y ∧ Inside (c.scopesOf p) x y

/-- A step names a record, and tells whether a handler is registered for it. -/
structure Names (served : Set (String × String)) (r : Record) (step : PlanStep) : Prop where
  sequence : step.sequence = r.sequence
  executionId : step.executionId = r.executionId
  activityId : step.activityId = r.activityId
  activityType : step.activityType = r.activityType
  scopeId : step.scopeId = r.scopeId
  hasHandler : step.hasHandler = true ↔ (r.instanceId, r.activityId) ∈ served

/-- The filter of scopes lets through what is inside. -/
lemma inScopes_iff (h : c.Nests) {scope : Option String} {r : Record} :
    inScopes (scope.map (c.scopeWithDescendants p)) r = true ↔
      ∀ x, scope = some x → ∃ y, r.scopeId = some y ∧ Inside (c.scopesOf p) x y := by
  cases scope with
  | none => simp [inScopes]
  | some x =>
    cases hscope : r.scopeId with
    | none => simp [inScopes, hscope]
    | some y => simp [inScopes, hscope, (h p).mem_scopeWithDescendants]

/-- The steps of a plan are the records that it asks for, each once, the last one first. -/
theorem createPlan_selects (h : c.Serving served) (p : String) (activity scope : Option String) :
    ∃ selected : List Record, selected.Pairwise (fun a b => b.sequence < a.sequence) ∧
      (∀ r, r ∈ selected ↔ c.Selects p activity scope r) ∧
      List.Forall₂ (Names served) selected (c.createPlan p activity scope).steps := by
  refine ⟨(c.recordsOf p).reverse.filter fun r => r.progress != .compensated &&
    activity.all (r.activityId == ·) && inScopes (scope.map (c.scopeWithDescendants p)) r,
    ?_, fun r => ?_, ?_⟩
  · exact (List.pairwise_reverse.2 (h.operated.ordered.ascending.filter _)).filter _
  · have hactivity : activity.all (r.activityId == ·) = true ↔
        ∀ a, activity = some a → r.activityId = a := by
      cases activity <;> simp
    rw [List.mem_filter, List.mem_reverse, recordsOf, List.mem_filter, Bool.and_eq_true,
      Bool.and_eq_true, bne_iff_ne, beq_iff_eq, hactivity, inScopes_iff h.nests]
    constructor
    · rintro ⟨⟨hr, hp⟩, ⟨hopen, ha⟩, hx⟩
      exact ⟨hr, hp, hopen, ha, hx⟩
    · intro hr
      exact ⟨⟨hr.recorded, hr.instanceId⟩, ⟨hr.notUndone, hr.activityId⟩, hr.scopeId⟩
  · rw [createPlan, List.forall₂_map_right_iff, List.forall₂_same]
    intro r hr
    have hp : r.instanceId = p := by
      have hmem := List.mem_reverse.1 (List.mem_of_mem_filter hr)
      simpa using List.of_mem_filter hmem
    refine ⟨rfl, rfl, rfl, rfl, rfl, ?_⟩
    rw [hp]
    exact h.hasHandler_iff p r.activityId

/-! ### A scope that is created late -/

/-- The coordinator after a scope is created, if it is. -/
def withScope (c : Coordinator) (instanceId scopeId : String) (parentId : Option String) :
    Coordinator :=
  match c.createScope instanceId scopeId none parentId with
  | .ok (_, c') => c'
  | .error _ => c

lemma Serving.withScope (h : c.Serving served) (instanceId scopeId : String)
    (parentId : Option String) : (c.withScope instanceId scopeId parentId).Serving served := by
  rw [Coordinator.withScope]
  split
  · next hok => exact h.createScope hok
  · exact h

/-- A completed activity of an order in a scope. -/
def orderStep (activityId scopeId : String) : Completion :=
  ⟨"order", "x", activityId, "serviceTask", none, [], some scopeId⟩

/-- The payment is recorded before there are scopes, the shipment in a scope that is never created,
and the reservation in the scope around that of the payment. -/
def recordedLate : Coordinator :=
  ((((((new .standard).recordExecution (orderStep "pay" "payment")).2.withScope "order" "whole" none
    ).withScope "order" "payment" (some "whole")).recordExecution (orderStep "ship" "lost")
    ).2.recordExecution (orderStep "reserve" "whole")).2

/-- Both have a handler at first, the reservation has none in the end. -/
def handledOnce : Coordinator :=
  (((recordedLate.register "order" "pay" ⟨fun _ _ => .done, none⟩).register "order" "reserve"
    ⟨fun _ _ => .done, none⟩).unregister "order" "reserve").2

lemma serving_handledOnce :
    handledOnce.Serving
      (insert ("order", "reserve") (insert ("order", "pay") ∅) \ {("order", "reserve")}) := by
  have hfirst := (((Serving.new .standard).record (orderStep "pay" "payment")).withScope "order"
    "whole" none).withScope "order" "payment" (some "whole")
  exact ((((hfirst.record _).record _).register _ _ _).register _ _ _).unregister _ _

/-- The plan for the whole order comes by the reservation first, and leaves out the shipment. -/
theorem createPlan_selects_handledOnce :
    (handledOnce.createPlan "order" none (some "whole")).steps.map
        (fun step => (step.activityId, step.hasHandler)) = [("reserve", false), ("pay", true)] ∧
      (handledOnce.createPlan "order" none (some "lost")).activityOrder = ["ship"] ∧
      ∃ selected : List Record, selected.Pairwise (fun a b => b.sequence < a.sequence) ∧
        (∀ r, r ∈ selected ↔ handledOnce.Selects "order" none (some "whole") r) ∧
        List.Forall₂
          (Names (insert ("order", "reserve") (insert ("order", "pay") ∅) \
            {("order", "reserve")}))
          selected (handledOnce.createPlan "order" none (some "whole")).steps :=
  ⟨by decide +kernel, by decide +kernel,
    createPlan_selects serving_handledOnce "order" none (some "whole")⟩

end Coordinator

end ProcessEngine.Compensation

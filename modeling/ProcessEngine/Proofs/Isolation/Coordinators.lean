import ProcessEngine.Proofs.Compensation.Records
import ProcessEngine.Proofs.Lists

/-!
# What an instance sees of the coordinator

One coordinator keeps the records, scopes, subscriptions and handlers of all instances, and numbers
all records with one counter.  An instance sees only what is its own, with numbers that may be those
of a coordinator with fewer instances after some renumbering.  `Coordinator.Matches` says so of two
coordinators; the operations for the instance come to the same with both, and what is done for other
instances is made up for by a renumbering that goes on differently (`Matches.untouched`).
-/

namespace ProcessEngine.Compensation

/-! ## Renumbering -/

section Renumbering

variable (σ : Nat → Nat)

/-- A record with another number. -/
def Record.renumber (r : Record) : Record := { r with sequence := σ r.sequence }

/-- A step with the new number of its record. -/
def PlanStep.renumber (s : PlanStep) : PlanStep := { s with sequence := σ s.sequence }

/-- A plan with the new numbers of its records. -/
def Plan.renumber (p : Plan) : Plan := { p with steps := p.steps.map (PlanStep.renumber σ) }

/-- A report with the new number of its record. -/
def Report.renumber (r : Report) : Report := { r with sequence := σ r.sequence }

/-- What the execution of a plan came to, with the new numbers of the records. -/
def Outcome.renumber (o : Outcome) : Outcome :=
  { o with reports := o.reports.map (Report.renumber σ) }

lemma Outcome.renumber_append (a b : Outcome) :
    (a.append b).renumber σ = (a.renumber σ).append (b.renumber σ) := by
  simp [renumber, append]

end Renumbering

namespace Coordinator

/-- The scopes of an instance in the order of creation. -/
def scopesOf (c : Coordinator) (instanceId : String) : List Scope :=
  c.scopes.filter (·.instanceId == instanceId)

/-- What an instance sees of two coordinators is the same, but for the numbers of its records. -/
structure SameView (σ : Nat → Nat) (p : String) (c c' : Coordinator) : Prop where
  records : c.recordsOf p = (c'.recordsOf p).map (Record.renumber σ)
  scopes : c.scopesOf p = c'.scopesOf p
  subscriptions : c.subscriptionsOf p = c'.subscriptionsOf p
  handlers : c.handler? p = c'.handler? p

/-- An instance sees the same of two coordinators, and it will: the numbers to come differ as those
given out, which were all given out, and the handlers of the instance answer by what they are given
alone. -/
structure Matches (σ : Nat → Nat) (p : String) (c c' : Coordinator) : Prop
    extends SameView σ p c c' where
  numbering : StrictMono σ
  next : ∀ n, σ (c'.lastSequence + 1 + n) = c.lastSequence + 1 + n
  known : ∀ r ∈ c'.recordsOf p, r.sequence ≤ c'.lastSequence
  settled : ∀ activity h, c'.handler? p activity = some h → ∀ m n x, h.respond m x = h.respond n x
  defaultPolicy : c.defaultPolicy = c'.defaultPolicy

/-- Nothing that an instance sees has changed between two states of a coordinator. -/
structure Untouched (p : String) (c c' : Coordinator) : Prop where
  records : c'.recordsOf p = c.recordsOf p
  scopes : c'.scopesOf p = c.scopesOf p
  subscriptions : c'.subscriptionsOf p = c.subscriptionsOf p
  handlers : c'.handler? p = c.handler? p
  defaultPolicy : c'.defaultPolicy = c.defaultPolicy
  lastSequence : c.lastSequence ≤ c'.lastSequence

variable {σ : Nat → Nat} {p : String} {c c' c'' t t' : Coordinator}

lemma Matches.new (p : String) (policy : RetryPolicy) : Matches id p (.new policy) (.new policy) :=
  ⟨⟨rfl, rfl, rfl, rfl⟩, strictMono_id, fun _ => rfl, nofun, nofun, rfl⟩

lemma Untouched.refl (p : String) (c : Coordinator) : Untouched p c c :=
  ⟨rfl, rfl, rfl, rfl, rfl, Nat.le_refl _⟩

lemma Untouched.trans (h : Untouched p c c') (h' : Untouched p c' c'') : Untouched p c c'' :=
  ⟨h'.records.trans h.records, h'.scopes.trans h.scopes, h'.subscriptions.trans h.subscriptions,
    h'.handlers.trans h.handlers, h'.defaultPolicy.trans h.defaultPolicy,
    Nat.le_trans h.lastSequence h'.lastSequence⟩

/-- Something was done for other instances with the first coordinator.  The old numbers stay as they
are, the new ones go on from where it has come to. -/
lemma Matches.untouched (h : Matches σ p c c') (hc : Untouched p c t) :
    ∃ τ, (∀ n ≤ c'.lastSequence, τ n = σ n) ∧ Matches τ p t c' := by
  -- The numbers to come are shifted by as many as the first coordinator has given out meanwhile.
  obtain ⟨τ, hτ⟩ : ∃ τ : Nat → Nat, τ = fun n =>
      if n ≤ c'.lastSequence then σ n else σ n + (t.lastSequence - c.lastSequence) := ⟨_, rfl⟩
  have hold : ∀ n ≤ c'.lastSequence, τ n = σ n := fun n hn => by rw [hτ]; exact if_pos hn
  have hnew : ∀ n, ¬n ≤ c'.lastSequence → τ n = σ n + (t.lastSequence - c.lastSequence) :=
    fun n hn => by rw [hτ]; exact if_neg hn
  refine ⟨τ, hold, ⟨?_, hc.scopes.trans h.scopes, hc.subscriptions.trans h.subscriptions,
    hc.handlers.trans h.handlers⟩, fun m n hmn => ?_, fun n => ?_, h.known, h.settled,
    hc.defaultPolicy.trans h.defaultPolicy⟩
  · rw [hc.records, h.records]
    refine List.map_congr_left fun r hr => ?_
    rw [Record.renumber, Record.renumber, hold _ (h.known r hr)]
  · have hlt := h.numbering hmn
    by_cases hm : m ≤ c'.lastSequence
    · rw [hold m hm]
      by_cases hn : n ≤ c'.lastSequence
      · rw [hold n hn]
        exact hlt
      · rw [hnew n hn]
        omega
    · rw [hnew m hm, hnew n (by omega)]
      omega
  · have hlast := hc.lastSequence
    rw [hnew _ (by omega), h.next n]
    omega

/-! ## Recording -/

/-- The same completed activity is recorded with both coordinators. -/
lemma Matches.recordExecution (h : Matches σ p c c') (completion : Completion) :
    (c.recordExecution completion).1 = (c'.recordExecution completion).1.renumber σ ∧
      Matches σ p (c.recordExecution completion).2 (c'.recordExecution completion).2 := by
  have hnext : σ (c'.lastSequence + 1) = c.lastSequence + 1 := h.next 0
  have hrecord : (c.recordExecution completion).1 =
      (c'.recordExecution completion).1.renumber σ := by
    simp only [Coordinator.recordExecution, Record.renumber, hnext]
  refine ⟨hrecord, { h with records := ?_, next := fun n => ?_, known := fun r hr => ?_ }⟩
  · rw [recordsOf_recordExecution, recordsOf_recordExecution, h.records, hrecord]
    split_ifs <;> simp
  · have hlater := h.next (n + 1)
    rw [show c'.lastSequence + 1 + (n + 1) = c'.lastSequence + 1 + 1 + n by omega] at hlater
    refine hlater.trans ?_
    show c.lastSequence + 1 + (n + 1) = c.lastSequence + 1 + 1 + n
    omega
  · rw [recordsOf_recordExecution] at hr
    rcases List.mem_append.1 hr with hr | hr
    · exact Nat.le_succ_of_le (h.known r hr)
    · split_ifs at hr
      · rw [List.mem_singleton.1 hr]
        exact Nat.le_refl _
      · cases hr

/-- The same completed activities are recorded in order. -/
lemma Matches.recordAll (h : Matches σ p c c') (completions : List Completion) :
    Matches σ p (completions.foldl (fun c completion => (c.recordExecution completion).2) c)
      (completions.foldl (fun c completion => (c.recordExecution completion).2) c') := by
  induction completions generalizing c c' with
  | nil => exact h
  | cons completion rest ih => exact ih (h.recordExecution completion).2

lemma lastSequence_recordAll (c : Coordinator) (completions : List Completion) :
    c.lastSequence ≤ (completions.foldl
      (fun c completion => (c.recordExecution completion).2) c).lastSequence := by
  induction completions generalizing c with
  | nil => exact Nat.le_refl _
  | cons completion rest ih =>
    exact Nat.le_trans (Nat.le_succ _) (ih (c.recordExecution completion).2)

lemma Untouched.recordExecution (c : Coordinator) {completion : Completion}
    (hp : completion.instanceId ≠ p) : Untouched p c (c.recordExecution completion).2 := by
  refine ⟨?_, rfl, rfl, rfl, rfl, Nat.le_succ _⟩
  rw [recordsOf_recordExecution, if_neg hp, List.append_nil]

lemma Untouched.recordAll (c : Coordinator) {completions : List Completion}
    (hp : ∀ x ∈ completions, x.instanceId ≠ p) :
    Untouched p c (completions.foldl (fun c completion => (c.recordExecution completion).2) c) := by
  induction completions generalizing c with
  | nil => exact .refl p c
  | cons completion rest ih =>
    exact (Untouched.recordExecution c (hp completion List.mem_cons_self)).trans
      (ih _ fun x hx => hp x (List.mem_cons_of_mem _ hx))

/-! ## Handlers -/

lemma handler?_register (c : Coordinator) (i a : String) (h : Handler) (q b : String) :
    (c.register i a h).handler? q b = if q = i ∧ b = a then some h else c.handler? q b := by
  simp only [handler?, register, otherHandlers, lookup_set, beq_iff_eq, Prod.mk.injEq]

lemma handler?_unregister (c : Coordinator) (i a q b : String) :
    (c.unregister i a).2.handler? q b = if q = i ∧ b = a then none else c.handler? q b := by
  have hlookup := lookup_filter (· != (i, a)) c.handlers (q, b)
  simp only [handler?, unregister, otherHandlers, hlookup, bne_iff_ne, ne_eq, Prod.mk.injEq]
  by_cases hkey : q = i ∧ b = a <;> simp [hkey]

lemma handler?_cleanup (c : Coordinator) (i q b : String) :
    (c.cleanup i).handler? q b = if q = i then none else c.handler? q b := by
  have hlookup := lookup_filter (fun key => key.1 != i) c.handlers (q, b)
  simp only [handler?, cleanup, hlookup, bne_iff_ne]
  by_cases hq : q = i <;> simp [hq]

/-- The same handler is set with both coordinators; it answers by what it is given alone. -/
lemma Matches.register (h : Matches σ p c c') (activity : String)
    (respond : Invocation → HandlerResult) (policy : Option RetryPolicy) :
    Matches σ p (c.register p activity ⟨fun _ => respond, policy⟩)
      (c'.register p activity ⟨fun _ => respond, policy⟩) := by
  refine { h with handlers := ?_, settled := fun b x hx => ?_ }
  · funext b
    rw [handler?_register, handler?_register, h.handlers]
  · rw [handler?_register] at hx
    split_ifs at hx
    · cases hx
      exact fun _ _ _ => rfl
    · exact h.settled b x hx

lemma Matches.unregister (h : Matches σ p c c') (activity : String) :
    (c.unregister p activity).1 = (c'.unregister p activity).1 ∧
      Matches σ p (c.unregister p activity).2 (c'.unregister p activity).2 := by
  refine ⟨?_, { h with handlers := ?_, settled := fun b x hx => ?_ }⟩
  · simp only [Coordinator.unregister, hasHandler, h.handlers]
  · funext b
    rw [handler?_unregister, handler?_unregister, h.handlers]
  · rw [handler?_unregister] at hx
    split_ifs at hx
    exact h.settled b x hx

lemma Untouched.register (c : Coordinator) {instanceId : String} (activity : String) (h : Handler)
    (hp : instanceId ≠ p) : Untouched p c (c.register instanceId activity h) := by
  refine ⟨rfl, rfl, rfl, ?_, rfl, Nat.le_refl _⟩
  funext b
  rw [handler?_register, if_neg fun hkey => hp hkey.1.symm]

lemma Untouched.unregister (c : Coordinator) {instanceId : String} (activity : String)
    (hp : instanceId ≠ p) : Untouched p c (c.unregister instanceId activity).2 := by
  refine ⟨rfl, rfl, rfl, ?_, rfl, Nat.le_refl _⟩
  funext b
  rw [handler?_unregister, if_neg fun hkey => hp hkey.1.symm]

/-! ## Subscriptions -/

lemma Matches.subscribe (h : Matches σ p c c') (activity : String) (boundary : Option String) :
    Matches σ p (c.subscribe p activity boundary).2 (c'.subscribe p activity boundary).2 := by
  refine { h with subscriptions := ?_ }
  simp only [subscriptionsOf, Coordinator.subscribe, List.filter_append]
  rw [← subscriptionsOf, ← subscriptionsOf, h.subscriptions]

lemma Untouched.subscribe (c : Coordinator) {instanceId : String} (activity : String)
    (boundary : Option String) (hp : instanceId ≠ p) :
    Untouched p c (c.subscribe instanceId activity boundary).2 := by
  refine ⟨rfl, rfl, ?_, rfl, rfl, Nat.le_refl _⟩
  rw [subscriptionsOf, Coordinator.subscribe, List.filter_append,
    List.filter_cons_of_neg (by simpa using hp), List.filter_nil, List.append_nil, subscriptionsOf]

/-! ## Scopes -/

lemma scope?_eq (c : Coordinator) (instanceId scopeId : String) :
    c.scope? instanceId scopeId = (c.scopesOf instanceId).find? (·.id == scopeId) := by
  rw [scope?, scopesOf, List.find?_filter]
  congr 1
  funext s
  rw [Bool.eq_iff_iff]
  simp

lemma scopesOf_addChild (c : Coordinator) (instanceId scopeId child q : String) :
    (c.addChild instanceId scopeId child).scopesOf q =
      (c.scopesOf q).map fun s => if s.instanceId == instanceId && s.id == scopeId then
        { s with children := s.children ++ [child] } else s := by
  rw [scopesOf, addChild, List.filter_map, scopesOf]
  congr 2
  funext s
  rw [Function.comp_apply]
  split_ifs <;> rfl

/-- What becomes of the same scope in two coordinators: both refuse it, or both create it. -/
inductive SameScope (σ : Nat → Nat) (p : String) (last : Nat) :
    Except EngineError (Scope × Coordinator) → Except EngineError (Scope × Coordinator) → Prop
  | refused (e : EngineError) : SameScope σ p last (.error e) (.error e)
  | created (s : Scope) {t t' : Coordinator} (h : t.Matches σ p t')
      (hlast : t'.lastSequence = last) : SameScope σ p last (.ok (s, t)) (.ok (s, t'))

lemma Matches.createScope (h : Matches σ p c c') (scopeId : String)
    (activityId parentId : Option String) :
    SameScope σ p c'.lastSequence (c.createScope p scopeId activityId parentId)
      (c'.createScope p scopeId activityId parentId) := by
  have hplace : ∀ {t t' : Coordinator} (s : Scope), t.Matches σ p t' →
      t'.lastSequence = c'.lastSequence →
      SameScope σ p c'.lastSequence (.ok (s, { t with scopes := t.scopes ++ [s] }))
        (.ok (s, { t' with scopes := t'.scopes ++ [s] })) := by
    intro t t' s ht hlast
    refine .created s { ht with scopes := ?_ } hlast
    rw [scopesOf, scopesOf, List.filter_append, List.filter_append, ← scopesOf, ← scopesOf,
      ht.scopes]
  have hchild : ∀ parent child, (c.addChild p parent child).Matches σ p
      (c'.addChild p parent child) := by
    intro parent child
    refine { h with scopes := ?_ }
    rw [scopesOf_addChild, scopesOf_addChild, h.scopes]
  rw [Coordinator.createScope, Coordinator.createScope]
  simp only [scope?_eq, h.scopes]
  split_ifs
  · exact .refused _
  · cases parentId with
    | none => exact hplace _ h rfl
    | some parent =>
      simp only
      split
      · exact .refused _
      · exact hplace _ (hchild _ _) rfl

/-- A scope is created for another instance, if it is. -/
lemma Untouched.createScope {instanceId scopeId : String} {activityId parentId : Option String}
    {s : Scope} (hp : instanceId ≠ p)
    (hscope : c.createScope instanceId scopeId activityId parentId = .ok (s, t)) :
    Untouched p c t := by
  have hplace : ∀ {u : Coordinator} (s : Scope), s.instanceId = instanceId →
      Untouched p u { u with scopes := u.scopes ++ [s] } := by
    intro u s hs
    refine ⟨rfl, ?_, rfl, rfl, rfl, Nat.le_refl _⟩
    rw [scopesOf, List.filter_append, List.filter_cons_of_neg (by simpa [hs] using hp),
      List.filter_nil, List.append_nil, scopesOf]
  have hchild : ∀ parent child, Untouched p c (c.addChild instanceId parent child) := by
    intro parent child
    refine ⟨rfl, ?_, rfl, rfl, rfl, Nat.le_refl _⟩
    rw [scopesOf_addChild]
    refine (List.map_congr_left fun s hs => if_neg ?_).trans (List.map_id _)
    have hsp : s.instanceId = p := by simpa using (List.mem_filter.1 hs).2
    simp [hsp, hp.symm]
  rw [Coordinator.createScope] at hscope
  split_ifs at hscope
  cases parentId with
  | none =>
    cases hscope
    exact hplace _ rfl
  | some parent =>
    simp only at hscope
    split at hscope
    · cases hscope
    · cases hscope
      exact (hchild parent scopeId).trans (hplace _ rfl)

/-! ## Plans -/

/-- The same plan is made with both coordinators, up to the numbers of the records. -/
lemma Matches.createPlan (h : Matches σ p c c') (activityId scopeId : Option String) :
    c.createPlan p activityId scopeId = (c'.createPlan p activityId scopeId).renumber σ := by
  have hscopes : c.scopeWithDescendants p = c'.scopeWithDescendants p := by
    funext scope
    have hedges : c.scopeEdges p = c'.scopeEdges p := by
      rw [scopeEdges, ← scopesOf, h.scopes, scopesOf, ← scopeEdges]
    rw [scopeWithDescendants, hedges, ← scopeWithDescendants]
  have hhandler : c.hasHandler p = c'.hasHandler p := by
    funext activity
    rw [hasHandler, h.handlers, ← hasHandler]
  simp only [Coordinator.createPlan, Plan.renumber, hscopes, hhandler, h.records,
    ← List.map_reverse, List.filter_map, List.map_map]
  rfl

/-- The records of a plan are known when it is made. -/
lemma Matches.createPlan_known (h : Matches σ p c c') (activityId scopeId : Option String) :
    ∀ s ∈ (c'.createPlan p activityId scopeId).steps, s.sequence ≤ c'.lastSequence := by
  intro s hs
  obtain ⟨r, hr, rfl⟩ := List.mem_map.1 hs
  exact h.known r (List.mem_reverse.1 (List.mem_filter.1 hr).1)

/-! ## Executing plans -/

/-- Attempts do not depend on the number of a record, nor on the invocations made before. -/
lemma attempt_renumber {h : Handler} (hsettled : ∀ m n x, h.respond m x = h.respond n x)
    (σ : Nat → Nat) (policy : RetryPolicy) (r : Record) (fuel made m n : Nat) :
    attempt h policy (r.renumber σ) fuel made m = attempt h policy r fuel made n := by
  induction fuel generalizing made m n with
  | zero => rfl
  | succ fuel ih =>
    rw [attempt, attempt]
    simp only [hsettled m n, ih (made + 1) (m + 1) (n + 1)]
    rfl

lemma record?_eq (c : Coordinator) (instanceId : String) (sequence : Nat) :
    c.record? instanceId sequence =
      (c.recordsOf instanceId).find? (·.sequence == sequence) := by
  rw [record?, recordsOf, List.find?_filter]
  congr 1
  funext r
  rw [Bool.eq_iff_iff]
  simp

lemma Matches.record? (h : Matches σ p c c') (sequence : Nat) :
    c.record? p (σ sequence) = (c'.record? p sequence).map (Record.renumber σ) := by
  rw [record?_eq, record?_eq, h.records, List.find?_map]
  congr 2
  funext r
  simp [Record.renumber, h.numbering.injective.eq_iff]

lemma recordsOf_finish (c : Coordinator) (r : Record) (progress : Progress) (attempts : Nat)
    (q : String) :
    (c.finish r progress attempts).recordsOf q =
      (c.recordsOf q).map fun x => if x.instanceId == r.instanceId && x.sequence == r.sequence then
        { x with progress, attempts := x.attempts + attempts } else x := by
  rw [recordsOf, finish, List.filter_map, recordsOf]
  congr 2
  funext x
  rw [Function.comp_apply]
  split_ifs <;> rfl

/-- The same is noted of a record with both coordinators. -/
lemma Matches.finish (h : Matches σ p c c') (r : Record) (progress : Progress) (attempts : Nat) :
    (c.finish (r.renumber σ) progress attempts).Matches σ p (c'.finish r progress attempts) := by
  refine { h with records := ?_, known := fun x hx => ?_ }
  · rw [recordsOf_finish, recordsOf_finish, h.records, List.map_map, List.map_map]
    refine List.map_congr_left fun x _ => ?_
    simp only [Function.comp_apply, Record.renumber, Bool.and_eq_true, beq_iff_eq,
      h.numbering.injective.eq_iff]
    by_cases hx : x.instanceId = r.instanceId ∧ x.sequence = r.sequence <;> simp [hx]
  · rw [recordsOf_finish] at hx
    obtain ⟨o, ho, rfl⟩ := List.mem_map.1 hx
    split_ifs <;> exact h.known o ho

/-- How many invocations were made does not matter. -/
lemma Matches.invoked (h : Matches σ p c c') (m n : Nat) :
    Matches σ p { c with invoked := m } { c' with invoked := n } :=
  ⟨⟨h.records, h.scopes, h.subscriptions, h.handlers⟩, h.numbering, h.next, h.known, h.settled,
    h.defaultPolicy⟩

/-- What becomes of the same plan in two coordinators: there is no outcome, or it is the same up to
the numbers of records that are known. -/
inductive SameEnd (σ : Nat → Nat) (p : String) (last : Nat) :
    Option (Outcome × Coordinator) → Option (Outcome × Coordinator) → Prop
  | never : SameEnd σ p last none none
  | ends (o : Outcome) {t t' : Coordinator} (h : t.Matches σ p t') (hlast : t'.lastSequence = last)
      (hknown : ∀ r ∈ o.reports, r.sequence ≤ last) :
      SameEnd σ p last (some (o.renumber σ, t)) (some (o, t'))

lemma Matches.executeStep (h : Matches σ p c c') (step : PlanStep) :
    SameEnd σ p c'.lastSequence (c.executeStep p (step.renumber σ)) (c'.executeStep p step) := by
  rw [Coordinator.executeStep, Coordinator.executeStep,
    show (step.renumber σ).sequence = σ step.sequence from rfl, h.record?]
  cases hr : c'.record? p step.sequence with
  | none => exact .ends .none h rfl (List.forall_mem_nil _)
  | some r =>
    have hknown : r.sequence ≤ c'.lastSequence := by
      rw [record?_eq] at hr
      exact h.known r (List.mem_of_find?_eq_some hr)
    simp only [Option.map_some]
    rw [show (r.renumber σ).progress = r.progress from rfl, h.handlers]
    split_ifs
    · exact .ends .none h rfl (List.forall_mem_nil _)
    · rw [show (step.renumber σ).activityId = step.activityId from rfl]
      cases hhandler : c'.handler? p step.activityId with
      | none =>
        refine .ends ⟨[reportOn r true none true 0], [], 0⟩ (h.finish r .compensated 0) rfl ?_
        intro report hreport
        rw [List.mem_singleton.1 hreport]
        exact hknown
      | some handler =>
        simp only
        rw [attempt_renumber (h.settled _ _ hhandler) σ _ r attemptLimit 0 c.invoked c'.invoked,
          h.defaultPolicy]
        cases attempt handler (handler.policy.getD c'.defaultPolicy) r attemptLimit 0
            c'.invoked with
        | none => exact .never
        | some trial =>
          refine .ends ⟨[reportOn r trial.result.success trial.result.error false trial.attempts],
            trial.invocations, trial.waited⟩ ?_ rfl ?_
          · exact (h.finish r _ _).invoked _ _
          · intro report hreport
            rw [List.mem_singleton.1 hreport]
            exact hknown

lemma Matches.executeSteps (h : Matches σ p c c') (steps : List PlanStep) :
    SameEnd σ p c'.lastSequence (c.executeSteps p (steps.map (PlanStep.renumber σ)))
      (c'.executeSteps p steps) := by
  induction steps generalizing c c' with
  | nil => exact .ends .none h rfl (List.forall_mem_nil _)
  | cons step rest ih =>
    have hstep := h.executeStep step
    rw [List.map_cons, Coordinator.executeSteps, Coordinator.executeSteps]
    generalize c.executeStep p (step.renumber σ) = x, c'.executeStep p step = x' at hstep
    cases hstep with
    | never => exact .never
    | @ends first t t' ht hlast hknown =>
      have hrest := ih ht
      rw [hlast] at hrest
      simp only
      generalize t.executeSteps p (rest.map (PlanStep.renumber σ)) = y,
        t'.executeSteps p rest = y' at hrest
      cases hrest with
      | never => exact .never
      | ends later hu hlast' hknown' =>
        simp only
        rw [← Outcome.renumber_append]
        refine .ends (first.append later) hu hlast' fun r hr => ?_
        rcases List.mem_append.1 hr with hr | hr
        · exact hknown r hr
        · exact hknown' r hr

/-- A plan of the instance comes to the same. -/
lemma Matches.executePlan (h : Matches σ p c c') {plan : Plan} (hp : plan.instanceId = p) :
    SameEnd σ p c'.lastSequence (c.executePlan (plan.renumber σ)) (c'.executePlan plan) := by
  rw [Coordinator.executePlan, Coordinator.executePlan,
    show (plan.renumber σ).instanceId = plan.instanceId from rfl, hp]
  exact h.executeSteps plan.steps

/-- What is noted of the record of another instance. -/
lemma Untouched.finish (c : Coordinator) {r : Record} (progress : Progress) (attempts invoked : Nat)
    (hp : r.instanceId ≠ p) : Untouched p c { c.finish r progress attempts with invoked } := by
  refine ⟨(recordsOf_finish c r progress attempts p).trans ?_, rfl, rfl, rfl, rfl, Nat.le_refl _⟩
  refine (List.map_congr_left fun x hx => if_neg ?_).trans (List.map_id _)
  have hxp : x.instanceId = p := by simpa using (List.mem_filter.1 hx).2
  simp [hxp, hp.symm]

lemma Untouched.executeStep {instanceId : String} {step : PlanStep} {o : Outcome}
    (hp : instanceId ≠ p) (hstep : c.executeStep instanceId step = some (o, t)) :
    Untouched p c t := by
  rw [Coordinator.executeStep] at hstep
  cases hr : c.record? instanceId step.sequence with
  | none =>
    rw [hr] at hstep
    cases hstep
    exact .refl p c
  | some r =>
    have hrp : r.instanceId ≠ p := by
      have hfound := List.find?_some hr
      simp only [Bool.and_eq_true, beq_iff_eq] at hfound
      exact hfound.1 ▸ hp
    rw [hr] at hstep
    simp only at hstep
    split_ifs at hstep
    · cases hstep
      exact .refl p c
    · cases hhandler : c.handler? instanceId step.activityId with
      | none =>
        rw [hhandler] at hstep
        cases hstep
        exact .finish c _ _ _ hrp
      | some handler =>
        rw [hhandler] at hstep
        obtain ⟨trial, -, htrial⟩ := Option.map_eq_some_iff.1 hstep
        cases htrial
        exact .finish c _ _ _ hrp

/-- The execution of a plan of another instance. -/
lemma Untouched.executeSteps {instanceId : String} {steps : List PlanStep} {o : Outcome}
    (hp : instanceId ≠ p) (hsteps : c.executeSteps instanceId steps = some (o, t)) :
    Untouched p c t := by
  induction steps generalizing c o with
  | nil =>
    cases hsteps
    exact .refl p t
  | cons step rest ih =>
    rw [Coordinator.executeSteps] at hsteps
    cases hfirst : c.executeStep instanceId step with
    | none => simp [hfirst] at hsteps
    | some first =>
      cases hlater : first.2.executeSteps instanceId rest with
      | none => simp [hfirst, hlater] at hsteps
      | some later =>
        simp only [hfirst, hlater, Option.some.injEq, Prod.mk.injEq] at hsteps
        obtain ⟨-, rfl⟩ := hsteps
        exact (Untouched.executeStep hp hfirst).trans (ih hlater)

/-! ## Forgetting -/

/-- What is filtered by two instances. -/
lemma filter_cleanup {α : Type} (owner : α → String) (xs : List α) (instanceId p : String) :
    (xs.filter (owner · != instanceId)).filter (owner · == p) =
      if p = instanceId then [] else xs.filter (owner · == p) := by
  rw [List.filter_filter]
  split_ifs with hp
  · simp [hp]
  · refine List.filter_congr fun x _ => ?_
    by_cases hx : owner x = p <;> simp [hx, hp]

/-- Both coordinators forget the instance. -/
lemma Matches.cleanup (h : Matches σ p c c') : Matches σ p (c.cleanup p) (c'.cleanup p) := by
  have hnone : ∀ t : Coordinator, (t.cleanup p).recordsOf p = [] ∧ (t.cleanup p).scopesOf p = [] ∧
      (t.cleanup p).subscriptionsOf p = [] := by
    intro t
    simp only [recordsOf, scopesOf, subscriptionsOf, Coordinator.cleanup, filter_cleanup, if_pos,
      and_self]
  obtain ⟨hrecords, hscopes, hsubscriptions⟩ := hnone c
  obtain ⟨hrecords', hscopes', hsubscriptions'⟩ := hnone c'
  refine ⟨⟨?_, ?_, ?_, ?_⟩, h.numbering, h.next, ?_, fun b x hx => ?_, h.defaultPolicy⟩
  · rw [hrecords, hrecords', List.map_nil]
  · rw [hscopes, hscopes']
  · rw [hsubscriptions, hsubscriptions']
  · funext b
    rw [handler?_cleanup, handler?_cleanup, if_pos rfl, if_pos rfl]
  · rw [hrecords']
    exact List.forall_mem_nil _
  · rw [handler?_cleanup, if_pos rfl] at hx
    cases hx

/-- Another instance is forgotten. -/
lemma Untouched.cleanup (c : Coordinator) {instanceId : String} (hp : instanceId ≠ p) :
    Untouched p c (c.cleanup instanceId) := by
  refine ⟨?_, ?_, ?_, ?_, rfl, Nat.le_refl _⟩
  · simp only [recordsOf, Coordinator.cleanup, filter_cleanup, if_neg hp.symm]
  · simp only [scopesOf, Coordinator.cleanup, filter_cleanup, if_neg hp.symm]
  · simp only [subscriptionsOf, Coordinator.cleanup, filter_cleanup, if_neg hp.symm]
  · funext b
    rw [handler?_cleanup, if_neg hp.symm]

end Coordinator

end ProcessEngine.Compensation

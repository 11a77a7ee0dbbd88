import ProcessEngine.Proofs.Isolation.Coordinators

/-!
# Operations for one instance

Every operation of a coordinator is for one instance.  A plan, once made, may be executed at any
time later; a `Desk` is a coordinator together with the plans that were made with it.  An operation
for an instance is answered alike by two desks of which the instance sees the same
(`Desk.Matches.perform`), and the instance does not see an operation for another one
(`Desk.Untouched.perform`).
-/

namespace ProcessEngine.Compensation

/-- What can be asked of a coordinator.  A handler is a function of what it is given, and a plan is
named by its place among the plans made for its instance. -/
inductive Operation
  | record (completion : Completion)
  | register (instanceId activityId : String) (respond : Invocation → HandlerResult)
      (policy : Option RetryPolicy)
  | unregister (instanceId activityId : String)
  | createScope (instanceId scopeId : String) (activityId parentId : Option String)
  | subscribe (instanceId activityId : String) (boundary : Option String)
  | createPlan (instanceId : String) (activityId scopeId : Option String)
  | executePlan (instanceId : String) (place : Nat)
  | compensate (instanceId : String) (activityId scopeId : Option String)
  | cleanup (instanceId : String)

/-- The instance that an operation is for. -/
def Operation.instanceId : Operation → String
  | .record completion => completion.instanceId
  | .register id .. | .unregister id _ | .createScope id .. | .subscribe id .. | .createPlan id ..
  | .executePlan id _ | .compensate id .. | .cleanup id => id

/-- The answer to an operation. -/
inductive Answer
  | done
  | recorded (r : Record)
  | unregistered (known : Bool)
  | scopeCreated (s : Except EngineError Scope)
  | subscribed (s : Subscription)
  | planned (p : Plan)
  | executed (o : Outcome)

namespace Answer

/-- An answer with the new numbers of the records. -/
def renumber (σ : Nat → Nat) : Answer → Answer
  | .recorded r => .recorded (r.renumber σ)
  | .planned p => .planned (p.renumber σ)
  | .executed o => .executed (o.renumber σ)
  | .done => .done
  | .unregistered known => .unregistered known
  | .scopeCreated s => .scopeCreated s
  | .subscribed s => .subscribed s

/-- The numbers of records in an answer. -/
def sequences : Answer → List Nat
  | .recorded r => [r.sequence]
  | .planned p => p.steps.map PlanStep.sequence
  | .executed o => o.reports.map Report.sequence
  | .done | .unregistered _ | .scopeCreated _ | .subscribed _ => []

end Answer

/-! ## Renumbering what is known -/

section

variable {σ τ : Nat → Nat} {last : Nat}

lemma Plan.renumber_congr {p : Plan} (h : ∀ s ∈ p.steps, τ s.sequence = σ s.sequence) :
    p.renumber τ = p.renumber σ := by
  rw [renumber, renumber]
  congr 1
  refine List.map_congr_left fun s hs => ?_
  rw [PlanStep.renumber, PlanStep.renumber, h s hs]

lemma Outcome.renumber_congr {o : Outcome} (h : ∀ r ∈ o.reports, τ r.sequence = σ r.sequence) :
    o.renumber τ = o.renumber σ := by
  rw [renumber, renumber]
  congr 1
  refine List.map_congr_left fun r hr => ?_
  rw [Report.renumber, Report.renumber, h r hr]

/-- Only the numbers in an answer matter for its renumbering. -/
lemma Answer.renumber_congr {a : Answer} (h : ∀ n ∈ a.sequences, τ n = σ n) :
    a.renumber τ = a.renumber σ := by
  cases a with
  | recorded r =>
    rw [renumber, renumber, Record.renumber, Record.renumber, h r.sequence (by simp [sequences])]
  | planned p =>
    rw [renumber, renumber, Plan.renumber_congr fun s hs => h _ (List.mem_map_of_mem hs)]
  | executed o =>
    rw [renumber, renumber, Outcome.renumber_congr fun r hr => h _ (List.mem_map_of_mem hr)]
  | done | unregistered _ | scopeCreated _ | subscribed _ => rfl

end

/-! ## Desks -/

/-- A coordinator, and the plans that were made with it in order. -/
structure Desk where
  coordinator : Coordinator
  plans : List Plan

namespace Desk

/-- The plans made for an instance in order. -/
def plansOf (d : Desk) (instanceId : String) : List Plan :=
  d.plans.filter (·.instanceId == instanceId)

/-- Carries out an operation.  There is no answer if a plan was never made, or if a handler asks for
another attempt without end. -/
def perform (d : Desk) : Operation → Option (Answer × Desk)
  | .record completion =>
    let (r, c) := d.coordinator.recordExecution completion
    some (.recorded r, { d with coordinator := c })
  | .register id activity respond policy =>
    some (.done,
      { d with coordinator := d.coordinator.register id activity ⟨fun _ => respond, policy⟩ })
  | .unregister id activity =>
    let (known, c) := d.coordinator.unregister id activity
    some (.unregistered known, { d with coordinator := c })
  | .createScope id scope activity parent =>
    match d.coordinator.createScope id scope activity parent with
    | .error e => some (.scopeCreated (.error e), d)
    | .ok (s, c) => some (.scopeCreated (.ok s), { d with coordinator := c })
  | .subscribe id activity boundary =>
    let (s, c) := d.coordinator.subscribe id activity boundary
    some (.subscribed s, { d with coordinator := c })
  | .createPlan id activity scope =>
    let plan := d.coordinator.createPlan id activity scope
    some (.planned plan, { d with plans := d.plans ++ [plan] })
  | .executePlan id place =>
    (d.plansOf id)[place]?.bind fun plan =>
      (d.coordinator.executePlan plan).map fun (o, c) => (.executed o, { d with coordinator := c })
  | .compensate id activity scope =>
    (d.coordinator.compensate id activity scope).map fun (o, c) =>
      (.executed o, { d with coordinator := c })
  | .cleanup id => some (.done, { d with coordinator := d.coordinator.cleanup id })

/-- What an instance sees of two desks is the same, but for the numbers of its records. -/
structure SameView (σ : Nat → Nat) (p : String) (d d' : Desk) : Prop where
  coordinator : d.coordinator.SameView σ p d'.coordinator
  plans : d.plansOf p = (d'.plansOf p).map (Plan.renumber σ)

/-- An instance sees the same of two desks, and it will; its plans are of records with numbers that
were given out. -/
structure Matches (σ : Nat → Nat) (p : String) (d d' : Desk) : Prop where
  coordinator : d.coordinator.Matches σ p d'.coordinator
  plans : d.plansOf p = (d'.plansOf p).map (Plan.renumber σ)
  known : ∀ plan ∈ d'.plansOf p, ∀ s ∈ plan.steps, s.sequence ≤ d'.coordinator.lastSequence

/-- Nothing that an instance sees has changed between two states of a desk. -/
structure Untouched (p : String) (d t : Desk) : Prop where
  coordinator : d.coordinator.Untouched p t.coordinator
  plans : t.plansOf p = d.plansOf p

variable {σ : Nat → Nat} {p : String} {d d' t t' : Desk} {c c' : Coordinator}

lemma Matches.sameView (h : Matches σ p d d') : SameView σ p d d' :=
  ⟨h.coordinator.toSameView, h.plans⟩

/-- The coordinators have changed, the plans are the same. -/
lemma Matches.move (h : Matches σ p d d') (hc : c.Matches σ p c')
    (hlast : d'.coordinator.lastSequence ≤ c'.lastSequence) :
    Matches σ p { d with coordinator := c } { d' with coordinator := c' } :=
  ⟨hc, h.plans, fun plan hplan s hs => Nat.le_trans (h.known plan hplan s hs) hlast⟩

/-- Something was done for other instances at the first desk. -/
lemma Matches.untouched (h : Matches σ p d d') (ht : Untouched p d t) :
    ∃ τ, (∀ n ≤ d'.coordinator.lastSequence, τ n = σ n) ∧ Matches τ p t d' := by
  obtain ⟨τ, hτ, hc⟩ := h.coordinator.untouched ht.coordinator
  refine ⟨τ, hτ, hc, ?_, h.known⟩
  rw [ht.plans, h.plans]
  exact List.map_congr_left fun plan hplan =>
    (Plan.renumber_congr fun s hs => hτ _ (h.known plan hplan s hs)).symm

/-! ## Operations for the instance -/

/-- What becomes of the same operation at two desks: it is not answered, or it is answered alike up
to the numbers of records, which were given out. -/
inductive SameAnswer (σ : Nat → Nat) (p : String) (last : Nat) :
    Option (Answer × Desk) → Option (Answer × Desk) → Prop
  | never : SameAnswer σ p last none none
  | answered (a : Answer) {t t' : Desk} (h : t.Matches σ p t')
      (hlast : last ≤ t'.coordinator.lastSequence)
      (hknown : ∀ n ∈ a.sequences, n ≤ t'.coordinator.lastSequence) :
      SameAnswer σ p last (some (a.renumber σ, t)) (some (a, t'))

/-- The same answer without numbers is given at two desks. -/
lemma SameAnswer.unnumbered (h : Matches σ p d d') (a : Answer) (hnone : a.sequences = [])
    (hc : c.Matches σ p c') (hlast : d'.coordinator.lastSequence ≤ c'.lastSequence) :
    SameAnswer σ p d'.coordinator.lastSequence (some (a.renumber σ, { d with coordinator := c }))
      (some (a, { d' with coordinator := c' })) := by
  refine .answered a (h.move hc hlast) hlast ?_
  rw [hnone]
  exact List.forall_mem_nil _

/-- A plan comes to the same at two desks. -/
lemma SameAnswer.executed (h : Matches σ p d d')
    {x x' : Option (Outcome × Coordinator)}
    (hx : Coordinator.SameEnd σ p d'.coordinator.lastSequence x x') :
    SameAnswer σ p d'.coordinator.lastSequence
      (x.map fun (o, c) => (.executed o, { d with coordinator := c }))
      (x'.map fun (o, c) => (.executed o, { d' with coordinator := c })) := by
  cases hx with
  | never => exact .never
  | ends o hc hlast hknown =>
    refine .answered (.executed o) (h.move hc hlast.ge) hlast.ge fun n hn => ?_
    obtain ⟨r, hr, rfl⟩ := List.mem_map.1 hn
    exact hlast.symm ▸ hknown r hr

/-- The same plan is made at two desks. -/
lemma Matches.createPlan (h : Matches σ p d d') (activity scope : Option String) :
    SameAnswer σ p d'.coordinator.lastSequence (d.perform (.createPlan p activity scope))
      (d'.perform (.createPlan p activity scope)) := by
  obtain ⟨plan, hplan⟩ : ∃ plan, d'.coordinator.createPlan p activity scope = plan := ⟨_, rfl⟩
  have hknown := hplan ▸ h.coordinator.createPlan_known activity scope
  have hid : plan.instanceId = p := by rw [← hplan, Coordinator.createPlan]
  simp only [Desk.perform, h.coordinator.createPlan, hplan]
  refine .answered (.planned plan) ⟨h.coordinator, ?_, fun x hx => ?_⟩ (Nat.le_refl _)
    fun n hn => ?_
  · have hplans := h.plans
    simp only [plansOf] at hplans ⊢
    rw [List.filter_append, List.filter_append, hplans, List.map_append]
    simp [hid, Plan.renumber]
  · rw [plansOf, List.filter_append] at hx
    rcases List.mem_append.1 hx with hx | hx
    · exact h.known x hx
    · obtain rfl : x = plan := List.mem_singleton.1 (List.mem_of_mem_filter hx)
      exact hknown
  · obtain ⟨s, hs, rfl⟩ := List.mem_map.1 hn
    exact hknown s hs

/-- An operation for an instance is answered alike at desks of which the instance sees the same. -/
theorem Matches.perform (h : Matches σ p d d') {o : Operation} (ho : o.instanceId = p) :
    SameAnswer σ p d'.coordinator.lastSequence (d.perform o) (d'.perform o) := by
  cases o with
  | record completion =>
    obtain rfl : completion.instanceId = p := ho
    obtain ⟨hrecord, hc⟩ := h.coordinator.recordExecution completion
    simp only [Desk.perform, hrecord]
    refine .answered (.recorded _) (h.move hc (Nat.le_succ _)) (Nat.le_succ _) fun n hn => ?_
    exact (List.mem_singleton.1 hn).le
  | register id activity respond policy =>
    obtain rfl : id = p := ho
    exact .unnumbered h .done rfl (h.coordinator.register activity respond policy) (Nat.le_refl _)
  | unregister id activity =>
    obtain rfl : id = p := ho
    obtain ⟨hremoved, hc⟩ := h.coordinator.unregister activity
    simp only [Desk.perform, hremoved]
    exact .unnumbered h (.unregistered _) rfl hc (Nat.le_refl _)
  | createScope id scope activity parent =>
    obtain rfl : id = p := ho
    have hscope := h.coordinator.createScope scope activity parent
    simp only [Desk.perform]
    generalize d.coordinator.createScope id scope activity parent = x,
      d'.coordinator.createScope id scope activity parent = x' at hscope
    cases hscope with
    | refused e =>
      exact .unnumbered h (.scopeCreated (.error e)) rfl h.coordinator (Nat.le_refl _)
    | created s hc hlast => exact .unnumbered h (.scopeCreated (.ok s)) rfl hc hlast.ge
  | subscribe id activity boundary =>
    obtain rfl : id = p := ho
    exact .unnumbered h (.subscribed _) rfl (h.coordinator.subscribe activity boundary)
      (Nat.le_refl _)
  | createPlan id activity scope =>
    obtain rfl : id = p := ho
    exact h.createPlan activity scope
  | executePlan id place =>
    obtain rfl : id = p := ho
    simp only [Desk.perform, h.plans, List.getElem?_map]
    cases hplan : (d'.plansOf id)[place]? with
    | none => exact .never
    | some plan =>
      have hid : plan.instanceId = id := by
        simpa using (List.mem_filter.1 (List.mem_of_getElem? hplan)).2
      exact .executed h (h.coordinator.executePlan hid)
  | compensate id activity scope =>
    obtain rfl : id = p := ho
    simp only [Desk.perform, Coordinator.compensate, h.coordinator.createPlan]
    exact .executed h (h.coordinator.executePlan rfl)
  | cleanup id =>
    obtain rfl : id = p := ho
    exact .unnumbered h .done rfl h.coordinator.cleanup (Nat.le_refl _)

/-! ## Operations for other instances -/

/-- An operation for another instance is not seen. -/
theorem Untouched.perform {o : Operation} {a : Answer} (ho : o.instanceId ≠ p)
    (h : d.perform o = some (a, t)) : Untouched p d t := by
  have hmoved : ∀ {c}, d.coordinator.Untouched p c → Untouched p d { d with coordinator := c } :=
    fun hc => ⟨hc, rfl⟩
  cases o with
  | record completion =>
    cases h
    exact hmoved (.recordExecution _ ho)
  | register id activity respond policy =>
    cases h
    exact hmoved (.register _ _ _ ho)
  | unregister id activity =>
    cases h
    exact hmoved (.unregister _ _ ho)
  | createScope id scope activity parent =>
    simp only [Desk.perform] at h
    split at h
    · cases h
      exact hmoved (.refl _ _)
    · next hscope =>
      cases h
      exact hmoved (.createScope ho hscope)
  | subscribe id activity boundary =>
    cases h
    exact hmoved (.subscribe _ _ _ ho)
  | createPlan id activity scope =>
    cases h
    have hid : (d.coordinator.createPlan id activity scope).instanceId ≠ p := ho
    refine ⟨.refl _ _, ?_⟩
    rw [plansOf, List.filter_append, List.filter_cons_of_neg (by simpa using hid), List.filter_nil,
      List.append_nil, plansOf]
  | executePlan id place =>
    obtain ⟨plan, hplan, hexecuted⟩ := Option.bind_eq_some_iff.1 h
    obtain ⟨⟨o, c⟩, hsteps, hdone⟩ := Option.map_eq_some_iff.1 hexecuted
    cases hdone
    have hid : plan.instanceId = id := by
      simpa using (List.mem_filter.1 (List.mem_of_getElem? hplan)).2
    exact hmoved (.executeSteps (hid ▸ ho) hsteps)
  | compensate id activity scope =>
    obtain ⟨⟨o, c⟩, hsteps, hdone⟩ := Option.map_eq_some_iff.1 h
    cases hdone
    exact hmoved (.executeSteps ho hsteps)
  | cleanup id =>
    cases h
    exact hmoved (.cleanup _ ho)

end Desk

end ProcessEngine.Compensation

import ProcessEngine.Proofs.Compensation.Operations

/-!
# Old plans

A plan is detached from the coordinator that it was made by: it only names records by their
sequence numbers.  Between its making and its execution records may be added, undone and forgotten.
Since numbers are never given out twice, an old plan is safe all the same (`old_plan_safe`): it
treats, in its own order, those of its records that are still there and not undone, each once, and
nothing else.
-/

namespace ProcessEngine.Compensation

open Relation (ReflTransGen)

/-- The numbers of the records in a plan, in order. -/
def Plan.sequences (p : Plan) : List Nat := p.steps.map PlanStep.sequence

/-- One record that a plan has treated: the record as it was found, the report on it, and what the
handler was given, in order. -/
structure Treatment where
  record : Record
  report : Report
  asked : List Invocation

namespace Coordinator

/-- Whether an instance has a record of the given number that is not undone. -/
def isOpen (c : Coordinator) (instanceId : String) (sequence : Nat) : Bool :=
  (c.record? instanceId sequence).any (·.progress != .compensated)

/-- A treatment is of an open record, reports on it, and its handler is given what was recorded. -/
structure Treats (c : Coordinator) (id : String) (t : Treatment) : Prop where
  found : c.record? id t.record.sequence = some t.record
  opened : t.record.progress ≠ .compensated
  sequence : t.report.sequence = t.record.sequence
  executionId : t.report.executionId = t.record.executionId
  activityId : t.report.activityId = t.record.activityId
  asked : ∀ x ∈ t.asked, x.toCompletion = t.record.toCompletion
  attempts : t.report.attempts = t.asked.length

variable {c c' c'' : Coordinator} {id : String}

/-! ## Single records -/

lemma Ordered.record?_of_mem (hc : c.Ordered) {r : Record} (hr : r ∈ c.records) :
    c.record? r.instanceId r.sequence = some r := by
  cases hfound : c.record? r.instanceId r.sequence with
  | none =>
    have hnone := List.find?_eq_none.1 hfound r hr
    simp at hnone
  | some o =>
    obtain ⟨ho, -, hsequence⟩ := mem_of_record? hfound
    rw [hc.eq_of_sequence ho hr hsequence]

/-- Noting what became of a record leaves records with other numbers. -/
lemma record?_finish_of_ne (r : Record) (progress : Progress) (attempts : Nat) {sequence : Nat}
    (hne : sequence ≠ r.sequence) (id : String) :
    (c.finish r progress attempts).record? id sequence = c.record? id sequence := by
  obtain ⟨note, hnote⟩ : ∃ note : Record → Record, note = fun o =>
      if o.instanceId == r.instanceId && o.sequence == r.sequence then
        { o with progress, attempts := o.attempts + attempts } else o := ⟨_, rfl⟩
  have hsame : ((fun o : Record => o.instanceId == id && o.sequence == sequence) ∘ note) =
      fun o => o.instanceId == id && o.sequence == sequence := by
    funext o
    rw [hnote, Function.comp_apply]
    split <;> rfl
  rw [record?, show (c.finish r progress attempts).records = c.records.map note by
    rw [hnote]; rfl, List.find?_map, hsame, ← record?]
  cases hfound : c.record? id sequence with
  | none => rfl
  | some o =>
    obtain ⟨-, -, hsequence⟩ := mem_of_record? hfound
    have hkept : note o = o := by
      rw [hnote]
      exact if_neg (by simp [hsequence, hne])
    rw [Option.map_some, hkept]

/-- The handler is given what was recorded. -/
lemma attempt_asked {h : Handler} {policy : RetryPolicy} {r : Record} {fuel made invoked : Nat}
    {trial : Trial} (htrial : attempt h policy r fuel made invoked = some trial) :
    ∀ x ∈ trial.invocations, x.toCompletion = r.toCompletion := by
  induction fuel generalizing made invoked trial with
  | zero => cases htrial
  | succ fuel ih =>
    rw [attempt] at htrial
    split_ifs at htrial
    · cases htrial
      simp
    · obtain ⟨later, hlater, rfl⟩ := Option.map_eq_some_iff.1 htrial
      intro x hx
      rcases List.mem_cons.1 hx with rfl | hx
      · rfl
      · exact ih hlater x hx

/-! ## Steps -/

/-- A record that is treated has one of the numbers that were open. -/
lemma sequence_mem {treated : List Treatment} {numbers : List Nat}
    (h : treated.map (·.record.sequence) = numbers.filter (c.isOpen id)) {t : Treatment}
    (ht : t ∈ treated) : t.record.sequence ∈ numbers := by
  have hmem : t.record.sequence ∈ treated.map (·.record.sequence) :=
    List.mem_map.2 ⟨t, ht, rfl⟩
  rw [h] at hmem
  exact List.mem_of_mem_filter hmem

/-- What a step comes to: it is passed over if its record is not open, and treats it otherwise. -/
lemma executeStep_treats {step : PlanStep} {outcome : Outcome}
    (h : c.executeStep id step = some (outcome, c')) :
    (c.isOpen id step.sequence = false ∧ outcome = .none ∧ c' = c) ∨
      ∃ t : Treatment, c.Treats id t ∧ t.record.sequence = step.sequence ∧
        c.isOpen id step.sequence = true ∧ outcome.reports = [t.report] ∧
        outcome.invocations = t.asked ∧
        ∀ s ≠ step.sequence, c'.record? id s = c.record? id s := by
  rw [executeStep] at h
  cases hfound : c.record? id step.sequence with
  | none =>
    rw [hfound] at h
    cases h
    exact .inl ⟨by rw [isOpen, hfound]; rfl, rfl, rfl⟩
  | some r =>
    obtain ⟨-, -, hsequence⟩ := mem_of_record? hfound
    have hisOpen : c.isOpen id step.sequence = (r.progress != .compensated) := by
      rw [isOpen, hfound]
      rfl
    have hfound' := hfound
    rw [← hsequence] at hfound'
    rw [hfound] at h
    simp only at h
    split_ifs at h with hdone
    · cases h
      exact .inl ⟨by rw [hisOpen, bne, hdone]; rfl, rfl, rfl⟩
    · have hopen : r.progress ≠ .compensated := by simpa using hdone
      have hother : ∀ progress attempts, ∀ s ≠ step.sequence,
          (c.finish r progress attempts).record? id s = c.record? id s :=
        fun progress attempts s hs => record?_finish_of_ne r progress attempts (hsequence ▸ hs) id
      refine .inr ?_
      split at h
      · cases h
        exact ⟨⟨r, reportOn r true none true 0, []⟩,
          ⟨hfound', hopen, rfl, rfl, rfl, List.forall_mem_nil _, rfl⟩,
          hsequence, by simpa [hisOpen] using hopen, rfl, rfl, hother _ _⟩
      · obtain ⟨trial, htrial, hout⟩ := Option.map_eq_some_iff.1 h
        cases hout
        exact ⟨⟨r, _, trial.invocations⟩,
          ⟨hfound', hopen, rfl, rfl, rfl, attempt_asked htrial, rfl⟩,
          hsequence, by simpa [hisOpen] using hopen, rfl, rfl, hother _ _⟩

/-- Steps of different numbers treat the records that are open at first, in order. -/
theorem executeSteps_treats {steps : List PlanStep} {outcome : Outcome}
    (hdistinct : (steps.map PlanStep.sequence).Nodup)
    (h : c.executeSteps id steps = some (outcome, c')) :
    ∃ treated : List Treatment, (∀ t ∈ treated, c.Treats id t) ∧
      treated.map (·.record.sequence) = (steps.map PlanStep.sequence).filter (c.isOpen id) ∧
      outcome.reports = treated.map Treatment.report ∧
      outcome.invocations = treated.flatMap Treatment.asked := by
  induction steps generalizing c outcome with
  | nil =>
    cases h
    exact ⟨[], List.forall_mem_nil _, rfl, rfl, rfl⟩
  | cons step rest ih =>
    rw [List.map_cons, List.nodup_cons] at hdistinct
    rw [executeSteps] at h
    split at h
    · cases h
    · next first c₁ hstep =>
      split at h
      · cases h
      · next later c₂ hrest =>
        cases h
        obtain ⟨treated, htreats, hsequences, hreports, hinvocations⟩ := ih hdistinct.2 hrest
        rcases executeStep_treats hstep with
          ⟨hclosed, rfl, rfl⟩ | ⟨t, ht, hsequence, hopen, hreport, hasked, hother⟩
        · refine ⟨treated, htreats, ?_, ?_, ?_⟩
          · rw [List.map_cons, List.filter_cons_of_neg (by simp [hclosed])]
            exact hsequences
          · exact hreports
          · exact hinvocations
        · -- The records of the later steps are found as they were before this one.
          have hlater : ∀ s ∈ rest.map PlanStep.sequence, c₁.record? id s = c.record? id s :=
            fun s hs => hother s fun heq => hdistinct.1 (heq ▸ hs)
          have hfilter : (rest.map PlanStep.sequence).filter (c₁.isOpen id) =
              (rest.map PlanStep.sequence).filter (c.isOpen id) :=
            List.filter_congr fun s hs => by rw [isOpen, hlater s hs, isOpen]
          refine ⟨t :: treated, fun u hu => ?_, ?_, ?_, ?_⟩
          · rcases List.mem_cons.1 hu with rfl | hu
            · exact ht
            · have hfound := (htreats u hu).found
              rw [hlater _ (sequence_mem hsequences hu)] at hfound
              exact { htreats u hu with found := hfound }
          · rw [List.map_cons, List.map_cons, List.filter_cons_of_pos hopen, hsequence, ← hfilter,
              hsequences]
          · rw [Outcome.append, hreport, hreports]
            rfl
          · rw [Outcome.append, hasked, hinvocations]
            rfl

/-! ## Plans -/

/-- A plan names records of its instance, the last one first. -/
lemma createPlan_names (hc : c.Ordered) (instanceId : String) (activityId scopeId : Option String) :
    (c.createPlan instanceId activityId scopeId).sequences.Pairwise (· > ·) ∧
      ∀ s ∈ (c.createPlan instanceId activityId scopeId).sequences,
        ∃ r ∈ c.records, r.instanceId = instanceId ∧ r.sequence = s := by
  rw [createPlan, Plan.sequences, List.map_map]
  refine ⟨List.pairwise_map.2 ?_, fun s hs => ?_⟩
  · refine List.Pairwise.filter _ (List.pairwise_reverse.2 ?_)
    exact hc.ascending.filter _
  · obtain ⟨r, hr, rfl⟩ := List.mem_map.1 hs
    have hmem := List.mem_reverse.1 (List.mem_of_mem_filter hr)
    exact ⟨r, List.mem_of_mem_filter hmem, by simpa using List.of_mem_filter hmem, rfl⟩

lemma Ordered.isOpen_iff (hc : c.Ordered) {s : Nat} :
    c.isOpen id s = true ↔
      ∃ r ∈ c.records, r.instanceId = id ∧ r.sequence = s ∧ r.progress ≠ .compensated := by
  rw [isOpen]
  constructor
  · intro hopen
    obtain ⟨r, hfound, hprogress⟩ := (Option.any_eq_true _ _).1 hopen
    obtain ⟨hr, hid, hsequence⟩ := mem_of_record? hfound
    exact ⟨r, hr, hid, hsequence, by simpa using hprogress⟩
  · rintro ⟨r, hr, rfl, rfl, hprogress⟩
    rw [hc.record?_of_mem hr]
    simpa using hprogress

/-- A number whose record is undone or gone stays closed. -/
lemma Since.closed (h : Since c c') (hc : c.Ordered) (hc' : c'.Ordered) {s : Nat}
    (hle : s ≤ c.lastSequence) (hclosed : c.isOpen id s = false) : c'.isOpen id s = false := by
  by_contra hopen
  rw [Bool.not_eq_false, hc'.isOpen_iff] at hopen
  obtain ⟨r, hr, hid, rfl, hprogress⟩ := hopen
  obtain ⟨o, ho, himprint, hdone⟩ := h.kept r hr hle
  have hstill : c.isOpen id r.sequence = true := by
    refine hc.isOpen_iff.2 ⟨o, ho, ?_, congrArg Prod.snd himprint, fun h => hprogress (hdone h)⟩
    exact (congrArg (fun x => x.1.instanceId) himprint).trans hid
  rw [hclosed] at hstill
  cases hstill

/-- What makes the execution of a plan safe that was made in one state of a coordinator and is
executed in a later one: it changes nothing but the open records that the plan names; it treats
these, each once and in the order of the plan, as they were recorded before the plan was made; what
was undone or forgotten at any time in between is not among them; and no record that was made later
has a number of the plan. -/
structure Safe (c : Coordinator) (plan : Plan) (c' : Coordinator) (outcome : Outcome)
    (c'' : Coordinator) : Prop where
  marks : Marks plan.instanceId plan.sequences c' c''
  descending : plan.sequences.Pairwise (· > ·)
  treated : ∃ treated : List Treatment,
    (∀ t ∈ treated, c'.Treats plan.instanceId t ∧ ∃ o ∈ c.records, o.imprint = t.record.imprint) ∧
    treated.map (·.record.sequence) = plan.sequences.filter (c'.isOpen plan.instanceId) ∧
    outcome.reports = treated.map Treatment.report ∧
    outcome.invocations = treated.flatMap Treatment.asked
  closed : ∀ c₁, ReflTransGen Operates c c₁ → ReflTransGen Operates c₁ c' →
    ∀ s ∈ plan.sequences, c₁.isOpen plan.instanceId s = false →
      c'.isOpen plan.instanceId s = false
  later : ∀ c₁ completion, ReflTransGen Operates c c₁ →
    (c₁.recordExecution completion).1.sequence ∉ plan.sequences

/-- Old plans are safe, whatever operations come between their making and their execution. -/
theorem old_plan_safe {outcome : Outcome} (hc : c.Operated) (instanceId : String)
    (activityId scopeId : Option String) (hops : ReflTransGen Operates c c')
    (hexecute : c'.executePlan (c.createPlan instanceId activityId scopeId) = some (outcome, c'')) :
    c.Safe (c.createPlan instanceId activityId scopeId) c' outcome c'' := by
  obtain ⟨hc', hsince⟩ := operations_keep hops hc.ordered
  obtain ⟨hdescending, hnames⟩ := createPlan_names hc.ordered instanceId activityId scopeId
  set plan := c.createPlan instanceId activityId scopeId
  have hknown : ∀ s ∈ plan.sequences, s ≤ c.lastSequence := by
    intro s hs
    obtain ⟨r, hr, -, rfl⟩ := hnames s hs
    exact hc.ordered.known r hr
  refine ⟨executeSteps_marks hc' hexecute, hdescending, ?_,
    fun c₁ hbefore hafter s hs hclosed => ?_,
    fun c₁ completion hbefore hmem => ?_⟩
  · obtain ⟨treated, htreats, hsequences, hreports, hinvocations⟩ :=
      executeSteps_treats (hdescending.imp Nat.ne_of_gt) hexecute
    refine ⟨treated, fun t ht => ⟨htreats t ht, ?_⟩, hsequences, hreports, hinvocations⟩
    obtain ⟨o, ho, himprint, -⟩ := hsince.kept t.record
      (mem_of_record? (htreats t ht).found).1 (hknown _ (sequence_mem hsequences ht))
    exact ⟨o, ho, himprint⟩
  · obtain ⟨hc₁, hsince₁⟩ := operations_keep hbefore hc.ordered
    obtain ⟨-, hsince₂⟩ := operations_keep hafter hc₁
    exact hsince₂.closed hc₁ hc' (Nat.le_trans (hknown s hs) hsince₁.lastSequence) hclosed
  · have hle : c₁.lastSequence + 1 ≤ c.lastSequence := hknown _ hmem
    have hmono := (operations_keep hbefore hc.ordered).2.lastSequence
    omega

/-! ## An order that goes on -/

/-- A completed service of an order. -/
def service (instanceId activityId : String) : Completion :=
  ⟨instanceId, "x", activityId, "serviceTask", none, [], none⟩

/-- Goods are reserved and paid for. -/
def paid : Coordinator :=
  ((new .standard).recordExecution (service "order" "reserve")).2.recordExecution
    (service "order" "pay") |>.2

/-- The plan to undo both. -/
def reversal : Plan := paid.createPlan "order" none none

lemma compensate_paid_isSome : (paid.compensate "order" (some "pay") none).isSome = true := by
  decide +kernel

/-- The payment is undone, and the goods are reserved once more; another order is forgotten, and a
handler is registered. -/
def reservedAgain : Coordinator :=
  ((((paid.compensate "order" (some "pay") none).get compensate_paid_isSome).2.recordExecution
    (service "order" "reserve")).2.cleanup "other").register "order" "reserve"
      ⟨fun _ _ => .done, none⟩

lemma operated_paid : paid.Operated :=
  ⟨.standard, .tail (.single (.record _ _)) (.record _ _)⟩

lemma operates_reservedAgain : ReflTransGen Operates paid reservedAgain := by
  have hcompensate : paid.executePlan (paid.createPlan "order" (some "pay") none) = some
      (((paid.compensate "order" (some "pay") none).get compensate_paid_isSome).1,
        ((paid.compensate "order" (some "pay") none).get compensate_paid_isSome).2) :=
    (Option.some_get compensate_paid_isSome).symm
  have hundone : Operates paid _ := .use "order" (.executePlan hcompensate)
  exact ((((ReflTransGen.single hundone).tail (.record _ _)).tail (.cleanup _ "other")).tail
    (.use "order" (.register _ _ _ _)))

lemma execute_reversal_isSome : (reservedAgain.executePlan reversal).isSome = true := by
  decide +kernel

/-- Of the plan only the first reservation is left to be undone. -/
theorem old_plan_safe_reversal :
    reversal.sequences = [2, 1] ∧
      ∃ outcome c'', reservedAgain.executePlan reversal = some (outcome, c'') ∧
        outcome.reports.map (·.sequence) = [1] ∧ outcome.invocations.length = 1 ∧
        c''.records.map (·.progress) = [.compensated, .compensated, .pending] ∧
        paid.Safe reversal reservedAgain outcome c'' := by
  refine ⟨by decide +kernel, ((reservedAgain.executePlan reversal).get execute_reversal_isSome).1,
    ((reservedAgain.executePlan reversal).get execute_reversal_isSome).2,
    (Option.some_get execute_reversal_isSome).symm, by decide +kernel, by decide +kernel,
    by decide +kernel, ?_⟩
  exact old_plan_safe operated_paid "order" none none operates_reservedAgain
    (Option.some_get execute_reversal_isSome).symm

end Coordinator

end ProcessEngine.Compensation

import ProcessEngine.Proofs.Compensation.Attempts

/-!
# Accounts of retries

A coordinator keeps, per record, how often its handler was asked and what became of the record.  Over
every run of calls (`Coordinator.Runs`) these are the sum and the last entry of an account that can
be kept from outside, step by step (`retries_accounted`): no invocation is counted twice, none is
forgotten, and a record that is undone is never touched again.
-/

namespace ProcessEngine.Compensation

open Coordinator

/-- The steps of an account that are about a record. -/
def stepsOf (r : Record) (account : List StepRun) : List StepRun := account.filter (StepRun.isOf r)

/-- All that handlers were given to undo a record. -/
def invocationsOf (r : Record) (account : List StepRun) : List Invocation :=
  (stepsOf r account).flatMap StepRun.asked

/-- What the last step about a record made of it. -/
def progressOf (r : Record) (account : List StepRun) : Progress :=
  ((stepsOf r account).getLast?.map StepRun.progress).getD .pending

namespace Coordinator

variable {c c' c'' : Coordinator} {id : String} {account more : List StepRun} {outcome : Outcome}
  {r : Record} {t : StepRun}

/-- What the steps of a plan come to, in order, those apart that are passed over. -/
def stepRuns (c : Coordinator) (id : String) : List PlanStep → List StepRun
  | [] => []
  | step :: rest =>
    match c.executeStep id step with
    | none => []
    | some (_, c') => (c.stepRun? id step).toList ++ c'.stepRuns id rest

/-- A call that returns, with what the steps came to that it executed. -/
inductive Calls : Coordinator → List StepRun → Coordinator → Prop
  | record (c : Coordinator) (completion : Completion) :
      Calls c [] (c.recordExecution completion).2
  | register (c : Coordinator) (instanceId activityId : String) (h : Handler) :
      Calls c [] (c.register instanceId activityId h)
  | unregister (c : Coordinator) (instanceId activityId : String) :
      Calls c [] (c.unregister instanceId activityId).2
  | createScope {c c' : Coordinator} {instanceId scopeId : String}
      {activityId parentId : Option String} {scope : Scope}
      (h : c.createScope instanceId scopeId activityId parentId = .ok (scope, c')) : Calls c [] c'
  | executePlan {c c' : Coordinator} {plan : Plan} {outcome : Outcome}
      (h : c.executePlan plan = some (outcome, c')) :
      Calls c (c.stepRuns plan.instanceId plan.steps) c'
  | compensate {c c' : Coordinator} {instanceId : String} {activityId scopeId : Option String}
      {outcome : Outcome} (h : c.compensate instanceId activityId scopeId = some (outcome, c')) :
      Calls c (c.stepRuns instanceId (c.createPlan instanceId activityId scopeId).steps) c'

/-- Any number of calls that return, with the steps that they executed. -/
inductive Runs (c : Coordinator) : List StepRun → Coordinator → Prop
  | refl : Runs c [] c
  | call {c' c'' : Coordinator} {account more : List StepRun} (h : Runs c account c')
      (hcall : Calls c' more c'') : Runs c (account ++ more) c''

/-- An account explains the records of a coordinator. -/
structure Explains (account : List StepRun) (c : Coordinator) : Prop where
  ordered : c.Ordered
  known : ∀ t ∈ account, t.record.sequence ≤ c.lastSequence
  accounted : ∀ t ∈ account, t.Accounted
  records : ∀ r ∈ c.records, r.attempts = (invocationsOf r account).length ∧
    r.progress = progressOf r account

/-! ## Moves -/

/-- What calls do to the records, one by one: nothing, a record that is added, or a step that is
noted. -/
inductive Moved (c : Coordinator) : List StepRun → Coordinator → Prop
  | refl : Moved c [] c
  | idle {c' c'' : Coordinator} {account : List StepRun} (h : Moved c account c')
      (hrecords : c''.records = c'.records) (hlast : c''.lastSequence = c'.lastSequence) :
      Moved c account c''
  | record {c' : Coordinator} {account : List StepRun} (h : Moved c account c')
      (completion : Completion) : Moved c account (c'.recordExecution completion).2
  | noting {c' : Coordinator} {account : List StepRun} {t : StepRun} (h : Moved c account c')
      (hfound : t.record ∈ c'.records) (hopen : t.record.progress ≠ .compensated)
      (haccounted : t.Accounted) : Moved c (account ++ [t]) (c'.noting t)

lemma Moved.trans (h : Moved c account c') (h' : Moved c' more c'') :
    Moved c (account ++ more) c'' := by
  induction h' with
  | refl => rwa [List.append_nil]
  | idle _ hrecords hlast ih => exact .idle ih hrecords hlast
  | record _ completion ih => exact .record ih completion
  | noting _ hfound hopen haccounted ih =>
    rw [← List.append_assoc]
    exact .noting ih hfound hopen haccounted

/-- The steps of a plan are noted one by one, and their reports and invocations are those of the
outcome. -/
lemma executeSteps_moved {steps : List PlanStep}
    (h : c.executeSteps id steps = some (outcome, c')) :
    Moved c (c.stepRuns id steps) c' ∧
      outcome.reports = (c.stepRuns id steps).map StepRun.report ∧
      outcome.invocations = (c.stepRuns id steps).flatMap StepRun.asked := by
  induction steps generalizing c outcome with
  | nil =>
    cases h
    exact ⟨.refl, rfl, rfl⟩
  | cons step rest ih =>
    rw [executeSteps] at h
    split at h
    · cases h
    · next first c₁ hstep =>
      split at h
      · cases h
      · next later c₂ hrest =>
        cases h
        obtain ⟨hmoved, hreports, hasked⟩ := ih hrest
        simp only [stepRuns, hstep]
        rcases executeStep_cases hstep with
          ⟨hnone, rfl, rfl⟩ | ⟨t, ht, hfound, hopen, -, haccounted, hreport, hinvocations, rfl⟩
        · rw [hnone]
          exact ⟨hmoved, hreports, hasked⟩
        · rw [ht, Outcome.append, hreport, hinvocations, hreports, hasked]
          have hfirst : Moved c [t] (c.noting t) :=
            .noting .refl (mem_of_record? hfound).1 hopen haccounted
          exact ⟨hfirst.trans hmoved, rfl, rfl⟩

lemma records_createScope {instanceId scopeId : String} {activityId parentId : Option String}
    {scope : Scope} (h : c.createScope instanceId scopeId activityId parentId = .ok (scope, c')) :
    c'.records = c.records ∧ c'.lastSequence = c.lastSequence := by
  rw [createScope] at h
  split_ifs at h
  split at h
  · cases h
    exact ⟨rfl, rfl⟩
  · split at h
    · cases h
    · cases h
      exact ⟨rfl, rfl⟩

lemma Calls.moved (h : Calls c more c') : Moved c more c' := by
  cases h with
  | record completion => exact .record .refl completion
  | register | unregister => exact .idle .refl rfl rfl
  | createScope h => exact .idle .refl (records_createScope h).1 (records_createScope h).2
  | executePlan h | compensate h => exact (executeSteps_moved h).1

lemma Runs.moved (h : Runs c account c') : Moved c account c' := by
  induction h with
  | refl => exact .refl
  | call _ hcall ih => exact ih.trans hcall.moved

/-! ## Single records -/

lemma stepsOf_append (r : Record) (account more : List StepRun) :
    stepsOf r (account ++ more) = stepsOf r account ++ stepsOf r more := List.filter_append ..

lemma stepsOf_self (h : StepRun.isOf r t = true) : stepsOf r [t] = [t] :=
  List.filter_cons_of_pos h

lemma stepsOf_other (h : StepRun.isOf r t = false) : stepsOf r [t] = [] :=
  List.filter_cons_of_neg (by simp [h])

/-- Steps are about a record by its instance and its number. -/
lemma stepsOf_congr {r' : Record} (h : r'.imprint = r.imprint) (account : List StepRun) :
    stepsOf r' account = stepsOf r account := by
  have hinstance : r'.instanceId = r.instanceId := congrArg (fun x => x.1.instanceId) h
  have hsequence : r'.sequence = r.sequence := congrArg Prod.snd h
  unfold stepsOf StepRun.isOf
  rw [hinstance, hsequence]

/-- There is no account yet of a record with a new number. -/
lemma stepsOf_eq_nil {last : Nat} (hknown : ∀ t ∈ account, t.record.sequence ≤ last)
    (hnew : last < r.sequence) : stepsOf r account = [] := by
  refine List.filter_eq_nil_iff.2 fun t ht hof => ?_
  rw [StepRun.isOf, Bool.and_eq_true, beq_iff_eq, beq_iff_eq] at hof
  have := hknown t ht
  omega

lemma Ordered.isOf_iff (hc : c.Ordered) (hr : r ∈ c.records) (ht : t.record ∈ c.records) :
    StepRun.isOf r t = true ↔ t.record = r := by
  rw [StepRun.isOf, Bool.and_eq_true, beq_iff_eq, beq_iff_eq]
  constructor
  · rintro ⟨-, hsequence⟩
    exact hc.eq_of_sequence ht hr hsequence.symm
  · rintro rfl
    exact ⟨rfl, rfl⟩

/-- The records after a step is noted: the one that it is about is changed, and no other. -/
lemma mem_noting (hc : c.Ordered) (ht : t.record ∈ c.records) (hr : r ∈ (c.noting t).records) :
    (StepRun.isOf r t = false ∧ r ∈ c.records) ∨ (StepRun.isOf r t = true ∧ r = t.after) := by
  obtain ⟨o, ho, rfl⟩ := List.mem_map.1 hr
  cases hsame : StepRun.isOf o t with
  | false => exact .inl (by rw [if_neg (by simpa [StepRun.isOf] using hsame)]; exact ⟨hsame, ho⟩)
  | true =>
    obtain rfl := (hc.isOf_iff ho ht).1 hsame
    exact .inr (by simp [StepRun.isOf, StepRun.after])

/-- A record that a noted step is not about stays. -/
lemma mem_noting_of_other (h : StepRun.isOf r t = false) (hr : r ∈ c.records) :
    r ∈ (c.noting t).records :=
  List.mem_map.2 ⟨r, hr, if_neg (ne_true_of_eq_false h)⟩

/-! ## Accounts -/

lemma ordered_noting (hc : c.Ordered) (ht : t.record ∈ c.records)
    (hopen : t.record.progress ≠ .compensated) : (c.noting t).Ordered := by
  have hfinished := (Marks.finish hc ht hopen t.progress t.asked.length).ordered hc
  obtain ⟨hnoted, -⟩ : (c.noting t).Ordered ∧ Since _ (c.noting t) :=
    keeps_of_records hfinished rfl rfl
  exact hnoted

lemma Explains.new (policy : RetryPolicy) : Explains [] (.new policy) :=
  ⟨.new policy, List.forall_mem_nil _, List.forall_mem_nil _, List.forall_mem_nil _⟩

/-- A record that is added has no account yet. -/
lemma Explains.recordExecution (h : Explains account c) (completion : Completion) :
    Explains account (c.recordExecution completion).2 := by
  refine ⟨(recordExecution_keeps h.ordered completion).1,
    fun t ht => Nat.le_succ_of_le (h.known t ht), h.accounted, fun r hr => ?_⟩
  rcases List.mem_append.1 hr with hr | hr
  · exact h.records r hr
  · obtain rfl := List.mem_singleton.1 hr
    rw [invocationsOf, progressOf, stepsOf_eq_nil h.known (Nat.lt_succ_self c.lastSequence)]
    exact ⟨rfl, rfl⟩

/-- A step that is noted is added to the account. -/
lemma Explains.noting (h : Explains account c) (ht : t.record ∈ c.records)
    (hopen : t.record.progress ≠ .compensated) (haccounted : t.Accounted) :
    Explains (account ++ [t]) (c.noting t) := by
  refine ⟨ordered_noting h.ordered ht hopen, ?_, ?_, fun r hr => ?_⟩
  · exact List.forall_mem_append.2 ⟨h.known, List.forall_mem_singleton.2 (h.ordered.known _ ht)⟩
  · exact List.forall_mem_append.2 ⟨h.accounted, List.forall_mem_singleton.2 haccounted⟩
  · rw [invocationsOf, progressOf, stepsOf_append]
    rcases mem_noting h.ordered ht hr with ⟨hother, hr⟩ | ⟨hself, rfl⟩
    · rw [stepsOf_other hother, List.append_nil]
      exact h.records r hr
    · have hattempts := (h.records t.record ht).1
      have hbefore : stepsOf t.after account = stepsOf t.record account := stepsOf_congr rfl account
      rw [stepsOf_self hself, hbefore, List.flatMap_append, List.length_append,
        List.getLast?_concat, ← invocationsOf, ← hattempts, List.flatMap_singleton]
      exact ⟨rfl, rfl⟩

lemma Explains.moved (h : Explains account c) (hmoved : Moved c more c') :
    Explains (account ++ more) c' := by
  induction hmoved with
  | refl => rwa [List.append_nil]
  | idle _ hrecords hlast ih =>
    have hkeeps := keeps_of_records ih.ordered hrecords hlast
    exact ⟨hkeeps.1, by rw [hlast]; exact ih.known, ih.accounted, by rw [hrecords]; exact ih.records⟩
  | record _ completion ih => exact ih.recordExecution completion
  | noting _ hfound hopen haccounted ih =>
    rw [← List.append_assoc]
    exact ih.noting hfound hopen haccounted

/-- A record that is undone stays as it is, and no further step is about it. -/
lemma Moved.undone (hmoved : Moved c more c') (hc : c.Ordered) (hr : r ∈ c.records)
    (hdone : r.progress = .compensated) :
    c'.Ordered ∧ r ∈ c'.records ∧ stepsOf r more = [] := by
  induction hmoved with
  | refl => exact ⟨hc, hr, rfl⟩
  | idle _ hrecords hlast ih =>
    obtain ⟨hc', hr', hnone⟩ := ih
    exact ⟨(keeps_of_records hc' hrecords hlast).1, hrecords ▸ hr', hnone⟩
  | record _ completion ih =>
    obtain ⟨hc', hr', hnone⟩ := ih
    exact ⟨(recordExecution_keeps hc' completion).1, List.mem_append_left _ hr', hnone⟩
  | @noting c' account t _ hfound hopen _ ih =>
    obtain ⟨hc', hr', hnone⟩ := ih
    have hother : StepRun.isOf r t = false := by
      by_contra hsame
      rw [Bool.not_eq_false, hc'.isOf_iff hr' hfound] at hsame
      exact hopen (hsame ▸ hdone)
    refine ⟨ordered_noting hc' hfound hopen, mem_noting_of_other hother hr', ?_⟩
    rw [stepsOf_append, hnone, stepsOf_other hother, List.append_nil]

/-- Retries are accounted for over every run of calls: each step that is executed asks its handler as
often as the answers and the policy say, and reports it; of every record the attempts are the
invocations that were ever made for it, and its progress is what the last step made of it; a record
that is undone stays as it is, and no handler is asked for it again; and what a plan returns are the
reports and invocations of its steps. -/
theorem retries_accounted {policy : RetryPolicy} (h : Runs (.new policy) account c) :
    (∀ t ∈ account, t.Accounted) ∧
    (∀ r ∈ c.records, r.attempts = (invocationsOf r account).length ∧
      r.progress = progressOf r account) ∧
    (∀ r ∈ c.records, r.progress = .compensated → ∀ more c', Runs c more c' →
      r ∈ c'.records ∧ stepsOf r more = []) ∧
    ∀ plan outcome c', c.executePlan plan = some (outcome, c') →
      outcome.reports = (c.stepRuns plan.instanceId plan.steps).map StepRun.report ∧
      outcome.invocations = (c.stepRuns plan.instanceId plan.steps).flatMap StepRun.asked := by
  have hexplains : Explains account c := (Explains.new policy).moved h.moved
  refine ⟨hexplains.accounted, hexplains.records, fun r hr hdone more c' hmore => ?_,
    fun plan outcome c' hplan => (executeSteps_moved hplan).2⟩
  exact (hmore.moved.undone hexplains.ordered hr hdone).2

/-! ### A payment that is hard to undo -/

/-- Asks for two more attempts, gives up at the third one, and succeeds from then on. -/
def stubborn : Handler where
  respond made _ :=
    if made < 2 then .retryable "busy" else if made = 2 then .failed "broken" else .done
  policy := none

/-- Goods are paid for, and the payment is hard to undo. -/
def disputed : Coordinator := paid.register "order" "pay" stubborn

lemma compensate_disputed_isSome : (disputed.compensate "order" none none).isSome = true := by
  decide +kernel

/-- The payment could not be undone. -/
def refused : Coordinator :=
  ((disputed.compensate "order" none none).get compensate_disputed_isSome).2

lemma compensate_refused_isSome : (refused.compensate "order" none none).isSome = true := by
  decide +kernel

/-- The payment is undone in the end. -/
def refunded : Coordinator :=
  ((refused.compensate "order" none none).get compensate_refused_isSome).2

/-- The steps of both plans. -/
def refundAccount : List StepRun :=
  disputed.stepRuns "order" (disputed.createPlan "order" none none).steps ++
    refused.stepRuns "order" (refused.createPlan "order" none none).steps

lemma runs_paid : Runs (.new .standard) [] paid :=
  .call (.call .refl (.record _ (service "order" "reserve"))) (.record _ (service "order" "pay"))

lemma runs_refunded : Runs (.new .standard) refundAccount refunded := by
  have hfirst : disputed.compensate "order" none none = some
      (((disputed.compensate "order" none none).get compensate_disputed_isSome).1, refused) :=
    (Option.some_get compensate_disputed_isSome).symm
  have hsecond : refused.compensate "order" none none = some
      (((refused.compensate "order" none none).get compensate_refused_isSome).1, refunded) :=
    (Option.some_get compensate_refused_isSome).symm
  have hdisputed : Runs (.new .standard) [] disputed :=
    .call runs_paid (.register paid "order" "pay" stubborn)
  have hrefused := hdisputed.call (.compensate hfirst)
  rw [List.nil_append] at hrefused
  exact hrefused.call (.compensate hsecond)

/-- Four invocations are made for the payment over two plans, none for the reservation. -/
theorem retries_accounted_refunded :
    Runs (.new .standard) refundAccount refunded ∧
    (refundAccount.map fun t => (t.record.sequence, t.asked.length, t.report.success)) =
      [(2, 3, false), (1, 0, true), (2, 1, true)] ∧
    (refunded.records.map fun r => (r.sequence, r.attempts, r.progress)) =
      [(1, 0, .compensated), (2, 4, .compensated)] ∧
    (∀ t ∈ refundAccount, t.Accounted) ∧
    ∀ r ∈ refunded.records, r.attempts = (invocationsOf r refundAccount).length ∧
      r.progress = progressOf r refundAccount := by
  obtain ⟨haccounted, hrecords, -⟩ := retries_accounted runs_refunded
  exact ⟨runs_refunded, by decide +kernel, by decide +kernel, haccounted, hrecords⟩

end Coordinator

end ProcessEngine.Compensation

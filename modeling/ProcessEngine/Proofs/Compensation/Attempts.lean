import Mathlib.Tactic.SplitIfs
import ProcessEngine.Proofs.Compensation.OldPlans

/-!
# Attempts

What the execution of one step of a plan comes to, as it can be seen from outside: the record as it
was found, the handler that was registered, what it was given, and the report (`StepRun`).
`StepRun.Accounted` says how often the handler is asked, why no more and no less often, and that the
report tells the truth about it.  A step is either passed over or accounted for
(`executeStep_cases`).
-/

namespace ProcessEngine

/-- A policy allows no other attempt after so many. -/
def RetryPolicy.Exhausted (p : RetryPolicy) (attempts : Nat) : Prop :=
  ∃ limit, p.maxAttempts = some limit ∧ limit ≤ attempts

lemma RetryPolicy.allowsAnother_eq_false {p : RetryPolicy} {attempts : Nat} :
    p.allowsAnother attempts = false ↔ p.Exhausted attempts := by
  rw [allowsAnother, Exhausted]
  cases p.maxAttempts <;> simp

namespace Compensation

/-! ## Asking a handler -/

/-- What a handler is given at an attempt to undo a record. -/
def Record.invocation (r : Record) (number : Nat) : Invocation := { r with attempt := number }

/-- An answer after which a handler is asked again, if its policy allows it. -/
def HandlerResult.AsksAgain (a : HandlerResult) : Prop := a.success = false ∧ a.retry = true

/-- One attempt, and the further ones if the answer asks for them and the policy allows them. -/
lemma attempt_succ (h : Handler) (policy : RetryPolicy) (r : Record) (fuel made invoked : Nat) :
    attempt h policy r (fuel + 1) made invoked =
      let a := h.respond invoked (r.invocation (made + 1))
      if a.success || !a.retry || !policy.allowsAnother (made + 1) then
        some ⟨a, [r.invocation (made + 1)], 0⟩
      else
        (attempt h policy r fuel (made + 1) (invoked + 1)).map fun later =>
          ⟨later.result, r.invocation (made + 1) :: later.invocations,
            policy.delayFor (made + 1) + later.waited⟩ := rfl

/-- The attempts at a record, by induction on how many may still be made: they are numbered, each but
the last one is answered with a request for another one, which the policy allows, and the last one
is not. -/
lemma attempt_spec {h : Handler} {policy : RetryPolicy} {r : Record} {fuel made invoked : Nat}
    {trial : Trial} (htrial : attempt h policy r fuel made invoked = some trial) :
    ∃ n, trial.invocations = (List.range (n + 1)).map (fun i => r.invocation (made + i + 1)) ∧
      (∀ i < n, (h.respond (invoked + i) (r.invocation (made + i + 1))).AsksAgain ∧
        ¬policy.Exhausted (made + i + 1)) ∧
      trial.result = h.respond (invoked + n) (r.invocation (made + n + 1)) ∧
      (trial.result.AsksAgain → policy.Exhausted (made + n + 1)) := by
  induction fuel generalizing made invoked trial with
  | zero => cases htrial
  | succ fuel ih =>
    rw [attempt_succ] at htrial
    simp only at htrial
    split_ifs at htrial with hstop
    · cases htrial
      refine ⟨0, rfl, nofun, rfl, fun hagain => ?_⟩
      obtain ⟨hfailed, hretry⟩ : (h.respond invoked (r.invocation (made + 1))).AsksAgain := hagain
      rw [← RetryPolicy.allowsAnother_eq_false]
      simpa [hfailed, hretry] using hstop
    · obtain ⟨later, hlater, rfl⟩ := Option.map_eq_some_iff.1 htrial
      obtain ⟨n, hasked, hgoesOn, hresult, hends⟩ := ih hlater
      have hagain : (h.respond invoked (r.invocation (made + 1))).AsksAgain ∧
          ¬policy.Exhausted (made + 1) := by
        rw [← RetryPolicy.allowsAnother_eq_false, HandlerResult.AsksAgain]
        simpa [and_assoc] using hstop
      refine ⟨n + 1, ?_, fun i hi => ?_, ?_, ?_⟩
      · rw [List.range_succ_eq_map, List.map_cons, List.map_map, hasked]
        refine congrArg _ (List.map_congr_left fun i _ => ?_)
        rw [Function.comp_apply, Nat.add_right_comm made 1 i]
        rfl
      · cases i with
        | zero => exact hagain
        | succ i =>
          have hlater := hgoesOn i (Nat.lt_of_succ_lt_succ hi)
          rwa [Nat.add_right_comm made 1 i, Nat.add_right_comm invoked 1 i] at hlater
      · rwa [Nat.add_right_comm made 1 n, Nat.add_right_comm invoked 1 n] at hresult
      · rwa [Nat.add_right_comm made 1 n] at hends

/-! ## Steps -/

/-- What one step of a plan came to that was not passed over: the record as it was found, the handler
that was registered and the policy of those who bring none, the number of invocations made before,
what the handler was given, in order, and the report. -/
structure StepRun where
  record : Record
  handler : Option Handler
  fallback : RetryPolicy
  invoked : Nat
  asked : List Invocation
  report : Report

namespace StepRun

/-- The policy that the attempts follow. -/
def policy (t : StepRun) : RetryPolicy := (t.handler.bind (·.policy)).getD t.fallback

/-- What the handler answered, in order. -/
def answers (t : StepRun) : List HandlerResult :=
  match t.handler with
  | none => []
  | some h => t.asked.mapIdx fun i x => h.respond (t.invoked + i) x

/-- What becomes of the record. -/
def progress (t : StepRun) : Progress := if t.report.success then .compensated else .failed

/-- The record as the step leaves it. -/
def after (t : StepRun) : Record :=
  { t.record with progress := t.progress, attempts := t.record.attempts + t.asked.length }

/-- Whether a step was about the given record. -/
def isOf (r : Record) (t : StepRun) : Bool :=
  r.instanceId == t.record.instanceId && r.sequence == t.record.sequence

/-- The report that an answer, if any, leads to: without a handler there is none, and the record
counts as undone. -/
def reportAfter (t : StepRun) : Option HandlerResult → Report
  | none => reportOn t.record true none true 0
  | some a => reportOn t.record a.success a.error false t.asked.length

/-- How a step is accounted for.  The handler is asked only if there is one, with the attempts
numbered from one.  It is asked again just after a retryable failure, as long as the policy allows,
and so never more often than a bounded policy says, but at least once.  The report counts the
attempts and gives the last answer. -/
structure Accounted (t : StepRun) : Prop where
  numbered : t.asked = (List.range t.asked.length).map fun i => t.record.invocation (i + 1)
  asked_iff : t.asked ≠ [] ↔ t.handler.isSome = true
  goesOn : ∀ i a, t.answers[i]? = some a → i + 1 < t.asked.length →
    a.AsksAgain ∧ ¬t.policy.Exhausted (i + 1)
  ends : ∀ a, t.answers.getLast? = some a → a.AsksAgain → t.policy.Exhausted t.asked.length
  bounded : ∀ limit, t.policy.maxAttempts = some limit → t.asked.length ≤ max 1 limit
  report : t.report = t.reportAfter t.answers.getLast?

variable {t : StepRun} {r : Record} {h : Handler}

/-- A record without handler is accounted for. -/
lemma accounted_of_none (hhandler : t.handler = none) (hasked : t.asked = [])
    (hreport : t.report = reportOn t.record true none true 0) : t.Accounted := by
  have hanswers : t.answers = [] := by rw [answers, hhandler]
  constructor
  · rw [hasked]
    rfl
  · simp [hasked, hhandler]
  · simp [hanswers]
  · simp [hanswers]
  · simp [hasked]
  · rw [hanswers]
    exact hreport

/-- Attempts as a handler and its policy ask for them are accounted for. -/
lemma accounted_of_attempt {trial : Trial} {fuel : Nat} (hhandler : t.handler = some h)
    (htrial : attempt h t.policy t.record fuel 0 t.invoked = some trial)
    (hasked : t.asked = trial.invocations)
    (hreport : t.report = reportOn t.record trial.result.success trial.result.error false
      trial.attempts) : t.Accounted := by
  obtain ⟨n, hinvocations, hgoesOn, hresult, hends⟩ := attempt_spec htrial
  simp only [Nat.zero_add] at hinvocations hgoesOn hresult hends
  rw [← hasked] at hinvocations
  have hlength : t.asked.length = n + 1 := by rw [hinvocations]; simp
  have hanswer : ∀ i ≤ n, t.answers[i]? =
      some (h.respond (t.invoked + i) (t.record.invocation (i + 1))) := by
    intro i hi
    rw [answers, hhandler, List.getElem?_mapIdx, hinvocations, List.getElem?_map,
      List.getElem?_range (Nat.lt_succ_of_le hi)]
    rfl
  have hlast : t.answers.getLast? = some trial.result := by
    have hcount : t.answers.length = n + 1 := by rw [answers, hhandler, List.length_mapIdx, hlength]
    rw [List.getLast?_eq_getElem?, hcount, hresult]
    exact hanswer n (Nat.le_refl n)
  constructor
  · rw [hlength]
    exact hinvocations
  · simp [hinvocations, hhandler]
  · intro i a ha hi
    rw [hlength] at hi
    have hi' : i < n := Nat.lt_of_succ_lt_succ hi
    rw [hanswer i (Nat.le_of_lt hi')] at ha
    cases ha
    exact hgoesOn i hi'
  · intro a ha hagain
    rw [hlast] at ha
    cases ha
    rw [hlength]
    exact hends hagain
  · intro limit hlimit
    rw [hlength]
    cases n with
    | zero => exact Nat.le_max_left 1 limit
    | succ n =>
      -- The last attempt but one was not the last one that the policy allows.
      obtain ⟨-, hallowed⟩ := hgoesOn n (Nat.lt_succ_self n)
      have : ¬limit ≤ n + 1 := fun hle => hallowed ⟨limit, hlimit, hle⟩
      omega
  · rw [hlast, reportAfter, hreport, Trial.attempts, hasked]

end StepRun

namespace Coordinator

variable {c c' : Coordinator} {id : String} {step : PlanStep} {outcome : Outcome}

/-- What a step comes to, if it is not passed over. -/
def stepRun? (c : Coordinator) (id : String) (step : PlanStep) : Option StepRun :=
  match c.record? id step.sequence, c.executeStep id step with
  | some record, some (⟨[report], asked, _⟩, _) =>
    some ⟨record, c.handler? id step.activityId, c.defaultPolicy, c.invoked, asked, report⟩
  | _, _ => none

/-- A coordinator after a step that was not passed over. -/
def noting (c : Coordinator) (t : StepRun) : Coordinator :=
  { c.finish t.record t.progress t.asked.length with invoked := c.invoked + t.asked.length }

/-- A step is passed over, or it is accounted for and noted. -/
lemma executeStep_cases (h : c.executeStep id step = some (outcome, c')) :
    (c.stepRun? id step = none ∧ outcome = .none ∧ c' = c) ∨
      ∃ t, c.stepRun? id step = some t ∧ c.record? id step.sequence = some t.record ∧
        t.record.progress ≠ .compensated ∧ t.handler = c.handler? id step.activityId ∧
        t.Accounted ∧ outcome.reports = [t.report] ∧ outcome.invocations = t.asked ∧
        c' = c.noting t := by
  have hrun := h
  rw [executeStep] at hrun
  cases hfound : c.record? id step.sequence with
  | none =>
    rw [hfound] at hrun
    cases hrun
    exact .inl ⟨by rw [stepRun?, hfound], rfl, rfl⟩
  | some r =>
    rw [hfound] at hrun
    simp only at hrun
    split_ifs at hrun with hdone
    · cases hrun
      exact .inl ⟨by rw [stepRun?, hfound, h]; rfl, rfl, rfl⟩
    · have hopen : r.progress ≠ .compensated := by simpa using hdone
      refine .inr ?_
      cases hhandler : c.handler? id step.activityId with
      | none =>
        rw [hhandler] at hrun
        cases hrun
        refine ⟨⟨r, none, c.defaultPolicy, c.invoked, [], reportOn r true none true 0⟩, ?_, rfl,
          hopen, rfl, StepRun.accounted_of_none rfl rfl rfl, rfl, rfl, rfl⟩
        rw [stepRun?, hfound, h, hhandler]
      | some handler =>
        rw [hhandler] at hrun
        obtain ⟨trial, htrial, hout⟩ := Option.map_eq_some_iff.1 hrun
        cases hout
        refine ⟨⟨r, some handler, c.defaultPolicy, c.invoked, trial.invocations, _⟩, ?_, rfl, hopen,
          rfl, StepRun.accounted_of_attempt rfl htrial rfl rfl, rfl, rfl, rfl⟩
        rw [stepRun?, hfound, h, hhandler]
        rfl

end Coordinator

end Compensation

end ProcessEngine

import Mathlib.Data.List.Pairwise
import Mathlib.Tactic.SplitIfs
import ProcessEngine.Compensation.Plan

/-!
# The records of an instance

A coordinator is used by many hands: completed activities are recorded for all instances, handlers
come and go, plans are executed.  Of all this only recording for an instance, and forgetting it,
changes what was recorded of it and in which order (`Coordinator.Uses`); the execution of a plan
only notes what becomes of a record.  `Coordinator.Logs` says what was recorded of an instance.
-/

namespace ProcessEngine.Compensation

/-- What of a record does not change when it is compensated. -/
def Record.imprint (r : Record) : Completion × Nat := (r.toCompletion, r.sequence)

namespace Coordinator

/-- The uses of a coordinator, but for recording what an instance has completed and forgetting the
instance. -/
inductive Uses (id : String) : Coordinator → Coordinator → Prop
  | register (c : Coordinator) (instanceId activityId : String) (h : Handler) :
      Uses id c (c.register instanceId activityId h)
  | unregister (c : Coordinator) (instanceId activityId : String) :
      Uses id c (c.unregister instanceId activityId).2
  | record (c : Coordinator) {completion : Completion} (hother : completion.instanceId ≠ id) :
      Uses id c (c.recordExecution completion).2
  | createScope {c c' : Coordinator} {instanceId scopeId : String}
      {activityId parentId : Option String} {scope : Scope}
      (h : c.createScope instanceId scopeId activityId parentId = .ok (scope, c')) : Uses id c c'
  | subscribe (c : Coordinator) (instanceId activityId : String) (boundary : Option String) :
      Uses id c (c.subscribe instanceId activityId boundary).2
  | executeStep {c c' : Coordinator} {instanceId : String} {step : PlanStep} {outcome : Outcome}
      (h : c.executeStep instanceId step = some (outcome, c')) : Uses id c c'
  | executePlan {c c' : Coordinator} {plan : Plan} {outcome : Outcome}
      (h : c.executePlan plan = some (outcome, c')) : Uses id c c'
  | cleanup (c : Coordinator) {other : String} (hother : other ≠ id) : Uses id c (c.cleanup other)

/-- Between two states of a coordinator nothing was recorded of an instance, and nothing of what
was recorded is gone. -/
structure Spares (id : String) (c c' : Coordinator) : Prop where
  imprints : (c'.recordsOf id).map Record.imprint = (c.recordsOf id).map Record.imprint
  lastSequence : c.lastSequence ≤ c'.lastSequence

variable {c c' c'' : Coordinator} {id : String}

namespace Spares

lemma refl (id : String) (c : Coordinator) : Spares id c c := ⟨rfl, Nat.le_refl _⟩

lemma trans (h : Spares id c c') (h' : Spares id c' c'') : Spares id c c'' :=
  ⟨h'.imprints.trans h.imprints, Nat.le_trans h.lastSequence h'.lastSequence⟩

lemma of_records (hrecords : c'.records = c.records) (hlast : c'.lastSequence = c.lastSequence) :
    Spares id c c' := by
  refine ⟨?_, Nat.le_of_eq hlast.symm⟩
  rw [recordsOf, hrecords, recordsOf]

/-- Noting what became of a record leaves its imprint. -/
lemma finish (id : String) (c : Coordinator) (record : Record) (progress : Progress)
    (attempts : Nat) : Spares id c (c.finish record progress attempts) := by
  refine ⟨?_, Nat.le_refl _⟩
  obtain ⟨note, hnote⟩ : ∃ note : Record → Record, note = fun r =>
      if r.instanceId == record.instanceId && r.sequence == record.sequence then
        { r with progress, attempts := r.attempts + attempts } else r := ⟨_, rfl⟩
  have himprint : Record.imprint ∘ note = Record.imprint := by
    funext r
    rw [hnote, Function.comp_apply]
    split <;> rfl
  have hinstance : ((·.instanceId == id) ∘ note : Record → Bool) = (·.instanceId == id) := by
    funext r
    rw [hnote, Function.comp_apply]
    split <;> rfl
  rw [recordsOf, show (c.finish record progress attempts).records = c.records.map note by
    rw [hnote]; rfl, List.filter_map, hinstance, List.map_map, himprint, recordsOf]

lemma executeStep {instanceId : String} {step : PlanStep} {outcome : Outcome}
    (h : c.executeStep instanceId step = some (outcome, c')) : Spares id c c' := by
  rw [Coordinator.executeStep] at h
  split at h
  · cases h
    exact .refl id c
  · split_ifs at h
    · cases h
      exact .refl id c
    · split at h
      · cases h
        exact .finish id c _ _ _
      · obtain ⟨trial, -, hc'⟩ := Option.map_eq_some_iff.1 h
        cases hc'
        exact (finish id c _ _ _).trans (.of_records rfl rfl)

lemma executeSteps {instanceId : String} {steps : List PlanStep} {outcome : Outcome}
    (h : c.executeSteps instanceId steps = some (outcome, c')) : Spares id c c' := by
  induction steps generalizing c outcome with
  | nil =>
    cases h
    exact .refl id _
  | cons step rest ih =>
    rw [Coordinator.executeSteps] at h
    split at h
    · cases h
    · next hstep =>
      split at h
      · cases h
      · next hrest =>
        cases h
        exact (executeStep hstep).trans (ih hrest)

lemma createScope {instanceId scopeId : String} {activityId parentId : Option String}
    {scope : Scope} (h : c.createScope instanceId scopeId activityId parentId = .ok (scope, c')) :
    Spares id c c' := by
  rw [Coordinator.createScope] at h
  split_ifs at h
  split at h
  · cases h
    exact .of_records rfl rfl
  · split at h
    · cases h
    · cases h
      exact .of_records rfl rfl

end Spares

/-- The records of an instance after an activity is recorded. -/
lemma recordsOf_recordExecution (c : Coordinator) (id : String) (completion : Completion) :
    (c.recordExecution completion).2.recordsOf id = c.recordsOf id ++
      if completion.instanceId = id then [(c.recordExecution completion).1] else [] := by
  rw [recordsOf, recordExecution, List.filter_append, recordsOf]
  by_cases hid : completion.instanceId = id
  · rw [if_pos hid, List.filter_cons_of_pos (by simpa using hid), List.filter_nil]
  · rw [if_neg hid, List.filter_cons_of_neg (by simpa using hid), List.filter_nil]

/-- The uses of a coordinator for other things spare what is recorded of an instance. -/
theorem Uses.spares (h : Uses id c c') : Spares id c c' := by
  cases h with
  | register | unregister | subscribe => exact .of_records rfl rfl
  | record hother =>
    refine ⟨?_, Nat.le_succ _⟩
    rw [recordsOf_recordExecution, if_neg hother, List.append_nil]
  | createScope h => exact .createScope h
  | executeStep h => exact .executeStep h
  | executePlan h => exact .executeSteps h
  | cleanup hother =>
    refine ⟨?_, Nat.le_refl _⟩
    rw [recordsOf, Coordinator.cleanup, List.filter_filter, recordsOf]
    refine congrArg _ (List.filter_congr fun r _ => ?_)
    by_cases hid : r.instanceId = id
    · simp [hid, hother.symm]
    · simp [hid]

/-! ## The log of an instance -/

/-- What was recorded of an instance, in order; the sequence numbers ascend, and those to come are
greater still. -/
structure Logs (c : Coordinator) (id : String) (log : List Completion) : Prop where
  completions : (c.recordsOf id).map Record.toCompletion = log
  ascending : (c.recordsOf id).Pairwise fun a b => a.sequence < b.sequence
  known : ∀ r ∈ c.recordsOf id, r.sequence ≤ c.lastSequence

namespace Logs

variable {log : List Completion}

lemma nil (h : c.recordsOf id = []) : c.Logs id [] :=
  ⟨by rw [h]; rfl, by rw [h]; exact .nil, by rw [h]; nofun⟩

lemma spared (h : c.Logs id log) (hspares : Spares id c c') : c'.Logs id log where
  completions := by
    have hlog := congrArg (List.map Prod.fst) hspares.imprints
    rw [List.map_map, List.map_map] at hlog
    exact hlog.trans h.completions
  ascending := by
    have hsequences := congrArg (List.map Prod.snd) hspares.imprints
    rw [List.map_map, List.map_map] at hsequences
    have hold : ((c.recordsOf id).map (Prod.snd ∘ Record.imprint)).Pairwise (· < ·) :=
      List.pairwise_map.2 h.ascending
    rw [← hsequences] at hold
    exact List.pairwise_map.1 hold
  known r hr := by
    have himprint : r.imprint ∈ (c.recordsOf id).map Record.imprint :=
      hspares.imprints ▸ List.mem_map_of_mem hr
    obtain ⟨o, ho, heq⟩ := List.mem_map.1 himprint
    have hsequence : o.sequence = r.sequence := congrArg Prod.snd heq
    exact hsequence ▸ Nat.le_trans (h.known o ho) hspares.lastSequence

/-- An activity of the instance is recorded. -/
lemma recordExecution (h : c.Logs id log) {completion : Completion}
    (hid : completion.instanceId = id) :
    (c.recordExecution completion).2.Logs id (log ++ [completion]) := by
  have hrecords := c.recordsOf_recordExecution id completion
  rw [if_pos hid] at hrecords
  constructor
  · rw [hrecords, List.map_append, h.completions]
    rfl
  · rw [hrecords, List.pairwise_append]
    refine ⟨h.ascending, List.pairwise_singleton _ _, fun a ha b hb => ?_⟩
    rw [List.mem_singleton.1 hb]
    exact Nat.lt_succ_of_le (h.known a ha)
  · intro r hr
    rw [hrecords] at hr
    rcases List.mem_append.1 hr with hr | hr
    · exact Nat.le_succ_of_le (h.known r hr)
    · rw [List.mem_singleton.1 hr]
      exact Nat.le_refl _

/-- Activities of the instance are recorded in order. -/
lemma recordAll (h : c.Logs id log) {notes : List Completion}
    (hid : ∀ note ∈ notes, note.instanceId = id) :
    (notes.foldl (fun c note => (c.recordExecution note).2) c).Logs id (log ++ notes) := by
  induction notes generalizing c log with
  | nil =>
    rw [List.append_nil]
    exact h
  | cons note rest ih =>
    rw [List.append_cons]
    exact ih (h.recordExecution (hid note List.mem_cons_self))
      fun n hn => hid n (List.mem_cons_of_mem note hn)

/-- Activities of other instances are recorded. -/
lemma recordOthers (h : c.Logs id log) {notes : List Completion}
    (hother : ∀ note ∈ notes, note.instanceId ≠ id) :
    (notes.foldl (fun c note => (c.recordExecution note).2) c).Logs id log := by
  induction notes generalizing c with
  | nil => exact h
  | cons note rest ih =>
    exact ih (h.spared (Uses.record c (hother note List.mem_cons_self)).spares)
      fun n hn => hother n (List.mem_cons_of_mem note hn)

end Logs

end Coordinator

end ProcessEngine.Compensation

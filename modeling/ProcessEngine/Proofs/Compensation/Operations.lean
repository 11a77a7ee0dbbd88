import Mathlib.Data.List.Forall2
import Mathlib.Data.List.Nodup
import Mathlib.Logic.Relation
import ProcessEngine.Proofs.Compensation.Records

/-!
# Operations of a coordinator

Sequence numbers are given out by one counter for all instances, and cleaning up does not turn it
back.  So in every coordinator that operations lead to (`Coordinator.Operated`) the records stand in
the order of their numbers, which are all different.  Between two such coordinators a number never
comes to stand for another record, and a record that is undone stays so (`Coordinator.Since`).

What the execution of a plan does to the records is said by `Coordinator.Marks`: some records of the
plan are marked, and all other records stay exactly as they are.
-/

namespace ProcessEngine.Compensation

namespace Coordinator

open Relation (ReflTransGen)

/-! ## Operations -/

/-- An operation of a coordinator: to record a completed activity, to forget an instance, or any
other use. -/
inductive Operates : Coordinator → Coordinator → Prop
  | record (c : Coordinator) (completion : Completion) : Operates c (c.recordExecution completion).2
  | cleanup (c : Coordinator) (instanceId : String) : Operates c (c.cleanup instanceId)
  | use (id : String) {c c' : Coordinator} (h : c.Uses id c') : Operates c c'

/-- The coordinators that operations lead to. -/
def Operated (c : Coordinator) : Prop := ∃ policy, ReflTransGen Operates (.new policy) c

/-- The records stand in the order of their sequence numbers, which were all given out. -/
structure Ordered (c : Coordinator) : Prop where
  ascending : c.records.Pairwise fun a b => a.sequence < b.sequence
  known : ∀ r ∈ c.records, r.sequence ≤ c.lastSequence

/-- What the time between two states of a coordinator does to the numbers that were given out: each
still stands for the same record, if for any, and a record that is undone stays so. -/
structure Since (c c' : Coordinator) : Prop where
  lastSequence : c.lastSequence ≤ c'.lastSequence
  kept : ∀ r ∈ c'.records, r.sequence ≤ c.lastSequence →
    ∃ o ∈ c.records, o.imprint = r.imprint ∧
      (o.progress = .compensated → r.progress = .compensated)

variable {c c' c'' : Coordinator} {id : String}

lemma Ordered.eq_of_sequence (h : c.Ordered) {a b : Record} (ha : a ∈ c.records)
    (hb : b ∈ c.records) (heq : a.sequence = b.sequence) : a = b := by
  have hdistinct : (c.records.map fun r => r.sequence).Nodup :=
    List.pairwise_map.2 (h.ascending.imp Nat.ne_of_lt)
  exact List.inj_on_of_nodup_map hdistinct ha hb heq

lemma Since.refl (c : Coordinator) : Since c c :=
  ⟨Nat.le_refl _, fun r hr _ => ⟨r, hr, rfl, fun h => h⟩⟩

lemma Since.trans (h : Since c c') (h' : Since c' c'') : Since c c'' where
  lastSequence := Nat.le_trans h.lastSequence h'.lastSequence
  kept r hr hle := by
    obtain ⟨o, ho, himprint, hdone⟩ := h'.kept r hr (Nat.le_trans hle h.lastSequence)
    have hsequence : o.sequence = r.sequence := congrArg Prod.snd himprint
    obtain ⟨first, hfirst, himprint', hdone'⟩ := h.kept o ho (hsequence ▸ hle)
    exact ⟨first, hfirst, himprint'.trans himprint, fun h => hdone (hdone' h)⟩

/-! ## Marks -/

/-- Only records are changed between two states of a coordinator, and only records of one instance
with numbers out of a list that are not undone before; their imprints stay. -/
structure Marks (id : String) (numbers : List Nat) (c c' : Coordinator) : Prop where
  records : List.Forall₂ (fun r r' => r' = r ∨ (r.instanceId = id ∧ r.sequence ∈ numbers ∧
    r.progress ≠ .compensated ∧ r'.imprint = r.imprint)) c.records c'.records
  handlers : c'.handlers = c.handlers
  scopes : c'.scopes = c.scopes
  subscriptions : c'.subscriptions = c.subscriptions
  lastSequence : c'.lastSequence = c.lastSequence
  defaultPolicy : c'.defaultPolicy = c.defaultPolicy

namespace Marks

variable {numbers more : List Nat}

/-- Nothing but the number of invocations is changed. -/
lemma of_records (hrecords : c'.records = c.records) (hhandlers : c'.handlers = c.handlers)
    (hscopes : c'.scopes = c.scopes) (hsubscriptions : c'.subscriptions = c.subscriptions)
    (hlast : c'.lastSequence = c.lastSequence) (hpolicy : c'.defaultPolicy = c.defaultPolicy) :
    Marks id numbers c c' := by
  refine ⟨?_, hhandlers, hscopes, hsubscriptions, hlast, hpolicy⟩
  rw [hrecords]
  exact List.forall₂_same.2 fun r _ => .inl rfl

lemma refl (id : String) (numbers : List Nat) (c : Coordinator) : Marks id numbers c c :=
  of_records rfl rfl rfl rfl rfl rfl

lemma mono (h : Marks id numbers c c') (hsub : numbers ⊆ more) : Marks id more c c' := by
  refine { h with records := h.records.imp fun r r' hmark => hmark.imp_right ?_ }
  exact fun ⟨hid, hmem, hopen, himprint⟩ => ⟨hid, hsub hmem, hopen, himprint⟩

lemma trans (h : Marks id numbers c c') (h' : Marks id numbers c' c'') :
    Marks id numbers c c'' where
  records := by
    have hrecords := h.records
    have hrecords' := h'.records
    generalize c.records = rs, c'.records = rs', c''.records = rs'' at hrecords hrecords'
    induction hrecords generalizing rs'' with
    | nil =>
      cases hrecords'
      exact .nil
    | cons hfirst hrest ih =>
      cases hrecords' with
      | cons hsecond hrest' =>
        refine .cons ?_ (ih _ hrest')
        rcases hsecond with rfl | ⟨hid', hmem', hopen', himprint'⟩
        · exact hfirst
        · rcases hfirst with rfl | ⟨hid, hmem, hopen, himprint⟩
          · exact .inr ⟨hid', hmem', hopen', himprint'⟩
          · exact .inr ⟨hid, hmem, hopen, himprint'.trans himprint⟩
  handlers := h'.handlers.trans h.handlers
  scopes := h'.scopes.trans h.scopes
  subscriptions := h'.subscriptions.trans h.subscriptions
  lastSequence := h'.lastSequence.trans h.lastSequence
  defaultPolicy := h'.defaultPolicy.trans h.defaultPolicy

/-- Every record was there before. -/
lemma exists_before (h : Marks id numbers c c') {r : Record} (hr : r ∈ c'.records) :
    ∃ o ∈ c.records, o.imprint = r.imprint ∧
      (o.progress = .compensated → r.progress = .compensated) := by
  obtain ⟨n, hn, rfl⟩ := List.getElem_of_mem hr
  have hn' : n < c.records.length := h.records.length_eq ▸ hn
  refine ⟨c.records[n], List.getElem_mem hn', ?_⟩
  rcases h.records.get hn' hn with heq | ⟨-, -, hopen, himprint⟩
  · rw [show c'.records[n] = c.records[n] from heq]
    exact ⟨rfl, fun h => h⟩
  · exact ⟨himprint.symm, fun hdone => absurd hdone hopen⟩

lemma since (h : Marks id numbers c c') : Since c c' :=
  ⟨Nat.le_of_eq h.lastSequence.symm, fun _ hr _ => h.exists_before hr⟩

lemma ordered (h : Marks id numbers c c') (hc : c.Ordered) : c'.Ordered where
  ascending := by
    have hsequences : List.Forall₂ (· = ·) (c.records.map fun r => r.sequence)
        (c'.records.map fun r => r.sequence) := by
      rw [List.forall₂_map_left_iff, List.forall₂_map_right_iff]
      refine h.records.imp fun r r' hmark => ?_
      rcases hmark with rfl | ⟨-, -, -, himprint⟩
      · rfl
      · exact (congrArg Prod.snd himprint).symm
    have hbefore := List.pairwise_map.2 hc.ascending
    rw [List.forall₂_eq_eq_eq] at hsequences
    rw [hsequences] at hbefore
    exact List.pairwise_map.1 hbefore
  known r hr := by
    obtain ⟨o, ho, himprint, -⟩ := h.exists_before hr
    rw [h.lastSequence, ← show o.sequence = r.sequence from congrArg Prod.snd himprint]
    exact hc.known o ho

/-- Noting what became of a record that is not undone marks it. -/
lemma finish (hc : c.Ordered) {r : Record} (hr : r ∈ c.records) (hopen : r.progress ≠ .compensated)
    (progress : Progress) (attempts : Nat) :
    Marks r.instanceId [r.sequence] c (c.finish r progress attempts) := by
  refine ⟨?_, rfl, rfl, rfl, rfl, rfl⟩
  rw [Coordinator.finish, List.forall₂_map_right_iff]
  refine List.forall₂_same.2 fun o ho => ?_
  split_ifs with hsame
  · obtain rfl : o = r := hc.eq_of_sequence ho hr (by simp_all)
    exact .inr ⟨rfl, List.mem_singleton_self _, hopen, rfl⟩
  · exact .inl rfl

end Marks

/-- A record that is found by its number. -/
lemma mem_of_record? {instanceId : String} {sequence : Nat} {r : Record}
    (h : c.record? instanceId sequence = some r) :
    r ∈ c.records ∧ r.instanceId = instanceId ∧ r.sequence = sequence := by
  have hfound := List.find?_some h
  simp only [Bool.and_eq_true, beq_iff_eq] at hfound
  exact ⟨List.mem_of_find?_eq_some h, hfound⟩

/-! ## What executing a plan does -/

/-- A step marks its record, if anything. -/
lemma executeStep_marks (hc : c.Ordered) {step : PlanStep} {outcome : Outcome}
    (h : c.executeStep id step = some (outcome, c')) : Marks id [step.sequence] c c' := by
  rw [executeStep] at h
  cases hfound : c.record? id step.sequence with
  | none =>
    rw [hfound] at h
    cases h
    exact .refl _ _ _
  | some r =>
    obtain ⟨hr, rfl, hsequence⟩ := mem_of_record? hfound
    rw [hfound] at h
    rw [← hsequence]
    simp only at h
    split_ifs at h with hdone
    · cases h
      exact .refl _ _ _
    · have hopen : r.progress ≠ .compensated := by simpa using hdone
      split at h
      · cases h
        exact .finish hc hr hopen _ _
      · obtain ⟨trial, -, htrial⟩ := Option.map_eq_some_iff.1 h
        cases htrial
        exact (Marks.finish hc hr hopen _ _).trans (.of_records rfl rfl rfl rfl rfl rfl)

/-- Steps mark records of the plan. -/
lemma executeSteps_marks (hc : c.Ordered) {steps : List PlanStep} {outcome : Outcome}
    (h : c.executeSteps id steps = some (outcome, c')) :
    Marks id (steps.map PlanStep.sequence) c c' := by
  induction steps generalizing c outcome with
  | nil =>
    cases h
    exact .refl _ _ _
  | cons step rest ih =>
    rw [executeSteps] at h
    split at h
    · cases h
    · next hstep =>
      have hfirst := executeStep_marks hc hstep
      split at h
      · cases h
      · next hrest =>
        cases h
        exact (hfirst.mono (by simp)).trans ((ih (hfirst.ordered hc) hrest).mono (by simp))

/-! ## What every operation keeps -/

lemma Ordered.new (policy : RetryPolicy) : (Coordinator.new policy).Ordered := ⟨.nil, nofun⟩

/-- An operation that does not touch the records. -/
lemma keeps_of_records (hc : c.Ordered) (hrecords : c'.records = c.records)
    (hlast : c'.lastSequence = c.lastSequence) : c'.Ordered ∧ Since c c' := by
  refine ⟨⟨?_, ?_⟩, ?_, ?_⟩
  · rw [hrecords]
    exact hc.ascending
  · rw [hrecords, hlast]
    exact hc.known
  · exact Nat.le_of_eq hlast.symm
  · rw [hrecords]
    exact fun r hr _ => ⟨r, hr, rfl, fun h => h⟩

/-- A new record gets a number that was not given out. -/
lemma recordExecution_keeps (hc : c.Ordered) (completion : Completion) :
    (c.recordExecution completion).2.Ordered ∧ Since c (c.recordExecution completion).2 := by
  refine ⟨⟨?_, fun r hr => ?_⟩, Nat.le_succ _, fun r hr hle => ?_⟩
  · rw [recordExecution, List.pairwise_append]
    refine ⟨hc.ascending, List.pairwise_singleton _ _, fun a ha b hb => ?_⟩
    rw [List.mem_singleton.1 hb]
    exact Nat.lt_succ_of_le (hc.known a ha)
  · rcases List.mem_append.1 hr with hr | hr
    · exact Nat.le_succ_of_le (hc.known r hr)
    · rw [List.mem_singleton.1 hr]
      exact Nat.le_refl _
  · rcases List.mem_append.1 hr with hr | hr
    · exact ⟨r, hr, rfl, fun h => h⟩
    · rw [List.mem_singleton.1 hr] at hle
      exact absurd hle (Nat.not_succ_le_self _)

lemma cleanup_keeps (hc : c.Ordered) (instanceId : String) :
    (c.cleanup instanceId).Ordered ∧ Since c (c.cleanup instanceId) :=
  ⟨⟨hc.ascending.filter _, fun r hr => hc.known r (List.mem_of_mem_filter hr)⟩, Nat.le_refl _,
    fun r hr _ => ⟨r, List.mem_of_mem_filter hr, rfl, fun h => h⟩⟩

lemma createScope_keeps (hc : c.Ordered) {instanceId scopeId : String}
    {activityId parentId : Option String} {scope : Scope}
    (h : c.createScope instanceId scopeId activityId parentId = .ok (scope, c')) :
    c'.Ordered ∧ Since c c' := by
  rw [createScope] at h
  split_ifs at h
  split at h
  · cases h
    exact keeps_of_records hc rfl rfl
  · split at h
    · cases h
    · cases h
      exact keeps_of_records hc rfl rfl

/-- An operation keeps the records in order, and what numbers stand for. -/
theorem Operates.keeps (h : Operates c c') (hc : c.Ordered) : c'.Ordered ∧ Since c c' := by
  cases h with
  | record => exact recordExecution_keeps hc _
  | cleanup => exact cleanup_keeps hc _
  | use _ h =>
    cases h with
    | register | unregister | subscribe => exact keeps_of_records hc rfl rfl
    | record hother => exact recordExecution_keeps hc _
    | createScope h => exact createScope_keeps hc h
    | executeStep h =>
      have hmarks := executeStep_marks hc h
      exact ⟨hmarks.ordered hc, hmarks.since⟩
    | executePlan h =>
      have hmarks := executeSteps_marks hc h
      exact ⟨hmarks.ordered hc, hmarks.since⟩
    | cleanup hother => exact cleanup_keeps hc _

/-- So does any run of operations. -/
theorem operations_keep (hops : ReflTransGen Operates c c') (hc : c.Ordered) :
    c'.Ordered ∧ Since c c' := by
  induction hops with
  | refl => exact ⟨hc, .refl c⟩
  | tail _ hop ih =>
    obtain ⟨hc', hsince⟩ := ih
    obtain ⟨hc'', hsince'⟩ := hop.keeps hc'
    exact ⟨hc'', hsince.trans hsince'⟩

lemma Operated.ordered (h : c.Operated) : c.Ordered := by
  obtain ⟨policy, hops⟩ := h
  exact (operations_keep hops (.new policy)).1

end Coordinator

end ProcessEngine.Compensation

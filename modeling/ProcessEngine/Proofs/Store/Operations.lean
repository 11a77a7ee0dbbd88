import ProcessEngine.Proofs.Store.States

/-!
# What forks and joins do to the store

A fork adds an active state.  An arrival at a join counts on the active join state of its key, or on
a new one; `arrivalAmong` says so on the list of states of the instance, and
`recordArrival_createJoin` that the two operations of the store come to just that.  Completing
states makes them inactive.  All of this leaves the states of other instances alone.
-/

namespace ProcessEngine

namespace GatewayState

variable (s : GatewayState) (frames : List Frame)

/-- The state after one more arrival with the given frames. -/
def arrived : GatewayState := s.countBranch.fold frames

@[simp] lemma id_arrived : (s.arrived frames).id = s.id := rfl
@[simp] lemma instanceId_arrived : (s.arrived frames).instanceId = s.instanceId := rfl
@[simp] lemma gatewayId_arrived : (s.arrived frames).gatewayId = s.gatewayId := rfl
@[simp] lemma kind_arrived : (s.arrived frames).kind = s.kind := rfl
@[simp] lemma correlationId_arrived : (s.arrived frames).correlationId = s.correlationId := rfl
@[simp] lemma activeBranches_arrived : (s.arrived frames).activeBranches = s.activeBranches := rfl
@[simp] lemma completedBranches_arrived :
    (s.arrived frames).completedBranches = s.completedBranches + 1 := rfl
@[simp] lemma executionId_arrived : (s.arrived frames).executionId = s.executionId := rfl
@[simp] lemma branchTargets_arrived : (s.arrived frames).branchTargets = s.branchTargets := rfl
@[simp] lemma arrivedFrames_arrived :
    (s.arrived frames).arrivedFrames =
      some (match s.arrivedFrames with
        | some shared => Frame.merge shared frames
        | none => frames) := rfl

lemma isActive_arrived (hk : s.kind = .join) (ha : s.isActive = true) :
    (s.arrived frames).isActive = true ↔ s.completedBranches + 1 ≠ s.activeBranches := by
  simp [arrived, countBranch, fold, hk, ha]

end GatewayState

/-- An arrival with the given frames at the first state that `isJoin` accepts, or else at a newly
opened one: the join state after it, and the states of the instance. -/
def arrivalAmong (isJoin : GatewayState → Bool) (opened : GatewayState) (frames : List Frame)
    (states : List GatewayState) : GatewayState × List GatewayState :=
  match states.find? isJoin with
  | some j => (j.arrived frames, exchanged (j.arrived frames) states)
  | none => (opened.arrived frames, states ++ [opened.arrived frames])

/-- An arrival is counted on a state that was there, or on the newly opened one. -/
lemma arrivalAmong_cases (isJoin : GatewayState → Bool) (opened : GatewayState)
    (frames : List Frame) (states : List GatewayState) :
    (∃ o ∈ states, isJoin o = true ∧ arrivalAmong isJoin opened frames states =
        (o.arrived frames, exchanged (o.arrived frames) states)) ∨
      ((∀ o ∈ states, isJoin o = false) ∧ arrivalAmong isJoin opened frames states =
        (opened.arrived frames, states ++ [opened.arrived frames])) := by
  rw [arrivalAmong]
  cases hfind : states.find? isJoin with
  | some o => exact .inl ⟨o, List.mem_of_find?_eq_some hfind, List.find?_some hfind, rfl⟩
  | none => exact .inr ⟨fun o ho => by simpa using List.find?_eq_none.1 hfind o ho, rfl⟩

namespace Store

variable {s : Store} {issued : Nat}

/-! ## Forks -/

lemma states_createFork (h : s.Keyed issued) (new : NewFork) {id : Uid} (hid : issued < id.value)
    (q : String) :
    (s.createFork new id).2.states q =
      s.states q ++ if new.instanceId = q then [(s.createFork new id).1] else [] := by
  rw [createFork]
  exact states_insert (s := (s.nextGeneration new.instanceId new.gatewayId).2)
    (fun o ho => h.fresh hid o ho) q

lemma Keyed.createFork (h : s.Keyed issued) (new : NewFork) {id : Uid} (hid : issued < id.value) :
    (s.createFork new id).2.Keyed id.value :=
  Keyed.insert (s := (s.nextGeneration new.instanceId new.gatewayId).2) ⟨h.distinct, h.known⟩ hid

/-! ## Arrivals -/

lemma activeJoin?_eq (s : Store) (p gateway : String) (correlation : Option Uid) :
    s.activeJoin? p gateway correlation = (s.states p).find? (isJoinOf p gateway correlation) := by
  rw [activeJoin?, states_eq_filter, List.find?_filter, all]
  congr 1
  funext o
  rw [Bool.eq_iff_iff]
  simp only [isJoinOf, Bool.and_eq_true, beq_iff_eq, decide_eq_true_eq]
  tauto

/-- The second of two exchanges for the same id counts. -/
lemma exchanged_exchanged (a b : GatewayState) (hid : a.id = b.id) (states : List GatewayState) :
    exchanged b (exchanged a states) = exchanged b states := by
  simp only [exchanged, List.map_map, List.map_inj_left, Function.comp_apply]
  intro o _
  by_cases h : o.id = b.id <;> simp [h, hid]

lemma recordArrival_eq (h : s.Keyed issued) {j : GatewayState} (hj : j ∈ s.all)
    (hactive : j.isActive = true) (hopen : j.completedBranches < j.activeBranches)
    (frames : List Frame) :
    ∃ s', s.recordArrival j.id frames = .ok (j.arrived frames, s') ∧ s'.Keyed issued ∧
      ∀ q, s'.states q = exchanged (j.arrived frames) (s.states q) := by
  refine ⟨(s.update j.countBranch).update (j.arrived frames), ?_, (h.update _).update _,
    fun q => ?_⟩
  · rw [recordArrival, increment, h.get?_of_mem hj]
    simp [hactive, Nat.not_le.2 hopen, GatewayState.arrived]
  · have hcount : j.countBranch ∈ (s.update j.countBranch).all := by
      rw [all_update, mem_exchanged]
      exact .inl ⟨rfl, j, hj, rfl⟩
    rw [states_update (h.update _) (j.arrived frames) hcount rfl rfl q,
      states_update h j.countBranch hj rfl rfl q]
    exact exchanged_exchanged j.countBranch (j.arrived frames) rfl _

/-- Exchanging a state does not concern the other instances. -/
lemma exchanged_states_of_ne (h : s.Keyed issued) {j : GatewayState} {p q : String}
    (hj : ∃ o ∈ s.states p, o.id = j.id) (hq : q ≠ p) :
    exchanged j (s.states q) = s.states q := by
  obtain ⟨o, ho, hid⟩ := hj
  refine exchanged_of_not_mem fun x hx hxid => hq ?_
  have hxo := h.eq_of_id (mem_states.1 hx).1 (mem_states.1 ho).1 (hxid.trans hid.symm)
  rw [← (mem_states.1 hx).2, hxo, (mem_states.1 ho).2]

/-- Finding or opening the join of a key and counting an arrival there. -/
lemma recordArrival_createJoin (h : s.Keyed issued) (new : NewJoin) {id : Uid}
    (hid : issued < id.value)
    (hopen : ∀ j ∈ s.states new.instanceId, j.kind = .join → j.isActive = true →
      j.completedBranches < j.activeBranches) (frames : List Frame) :
    ∃ opened s', opened.id = id ∧
      opened = GatewayState.ofJoin new id (s.generation new.instanceId new.gatewayId + 1) ∧
      let arrival := arrivalAmong (isJoinOf new.instanceId new.gatewayId new.correlationId) opened
        frames (s.states new.instanceId)
      (s.createJoin new id).2.recordArrival (s.createJoin new id).1.id frames =
          .ok (arrival.1, s') ∧
        s'.Keyed id.value ∧
        ∀ q, s'.states q = if q = new.instanceId then arrival.2 else s.states q := by
  have hpick := s.activeJoin?_eq new.instanceId new.gatewayId new.correlationId
  refine ⟨.ofJoin new id (s.generation new.instanceId new.gatewayId + 1), ?_⟩
  cases hfind : (s.states new.instanceId).find?
      (isJoinOf new.instanceId new.gatewayId new.correlationId) with
  | some j =>
    have hcreate : s.createJoin new id = (j, s) := by rw [createJoin, hpick, hfind]
    have hmem := List.mem_of_find?_eq_some hfind
    have hjoin := List.find?_some hfind
    simp only [isJoinOf, Bool.and_eq_true, beq_iff_eq] at hjoin
    obtain ⟨s', heq, hkeyed, hstates⟩ := recordArrival_eq h (mem_states.1 hmem).1
      hjoin.1.1.1.2 (hopen j hmem hjoin.1.1.1.1 hjoin.1.1.1.2) frames
    refine ⟨s', rfl, rfl, ?_, hkeyed.mono hid.le, fun q => ?_⟩
    · rw [hcreate, heq, arrivalAmong, hfind]
    · rw [hstates q, arrivalAmong, hfind]
      split_ifs with hq
      · rw [hq]
      · exact exchanged_states_of_ne h ⟨j, hmem, rfl⟩ hq
  | none =>
    set opened := GatewayState.ofJoin new id (s.generation new.instanceId new.gatewayId + 1)
    have hcreate : s.createJoin new id =
        (opened, (s.nextGeneration new.instanceId new.gatewayId).2.insert opened) := by
      rw [createJoin, hpick, hfind]
      rfl
    have hfresh : ∀ o ∈ s.all, o.id ≠ opened.id := h.fresh hid
    set later := (s.nextGeneration new.instanceId new.gatewayId).2.insert opened
    have hinsert : later.Keyed opened.id.value :=
      Keyed.insert (s := (s.nextGeneration new.instanceId new.gatewayId).2)
        ⟨h.distinct, h.known⟩ hid
    have hlist : ∀ q, later.states q =
        s.states q ++ if new.instanceId = q then [opened] else [] :=
      states_insert (s := (s.nextGeneration new.instanceId new.gatewayId).2) hfresh
    have hmem : opened ∈ later.states new.instanceId := by simp [hlist]
    obtain ⟨s', heq, hkeyed, hstates⟩ := recordArrival_eq hinsert (mem_states.1 hmem).1 rfl
      (by simp [opened, GatewayState.ofJoin]) frames
    refine ⟨s', rfl, rfl, ?_, hkeyed, fun q => ?_⟩
    · rw [hcreate, heq, arrivalAmong, hfind]
    · rw [hstates q, hlist q, arrivalAmong, hfind]
      have hothers : exchanged (opened.arrived frames) (s.states q) = s.states q :=
        exchanged_of_not_mem fun o ho => hfresh o (mem_states.1 ho).1
      rw [exchanged, List.map_append, ← exchanged, hothers]
      by_cases hq : new.instanceId = q
      · simp [hq]
      · simp [hq, Ne.symm hq]

/-! ## Completing states -/

lemma complete_eq (h : s.Keyed issued) {id : Uid} (hid : id ∈ s.all.map GatewayState.id) :
    ∃ s', s.complete id = .ok s' ∧ s'.Keyed issued ∧
      s'.all.map GatewayState.id = s.all.map GatewayState.id ∧
      ∀ q, s'.states q = retired [id] (s.states q) := by
  obtain ⟨o, ho, rfl⟩ := List.mem_map.1 hid
  refine ⟨s.update { o with isActive := false }, ?_, h.update _, ?_, fun q => ?_⟩
  · rw [complete, h.get?_of_mem ho]
  · rw [all_update, map_id_exchanged]
  · rw [states_update h { o with isActive := false } ho rfl rfl q, exchanged, retired]
    refine List.map_congr_left fun x hx => ?_
    by_cases hxo : x.id = o.id
    · rw [h.eq_of_id (mem_states.1 hx).1 ho hxo]
      simp
    · simp [hxo]

/-- Retiring states of one instance does not concern the others. -/
lemma retired_states_of_ne (h : s.Keyed issued) {ids : List Uid} {p q : String}
    (hids : ∀ id ∈ ids, ∃ o ∈ s.states p, o.id = id) (hq : q ≠ p) :
    retired ids (s.states q) = s.states q := by
  rw [retired]
  conv_rhs => rw [← List.map_id (s.states q)]
  refine List.map_congr_left fun x hx => if_neg fun hmem => hq ?_
  obtain ⟨o, ho, hid⟩ := hids x.id hmem
  rw [← (mem_states.1 hx).2, ← h.eq_of_id (mem_states.1 ho).1 (mem_states.1 hx).1 hid,
    (mem_states.1 ho).2]

end Store

end ProcessEngine

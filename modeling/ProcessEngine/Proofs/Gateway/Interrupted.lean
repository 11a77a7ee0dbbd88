import ProcessEngine.Proofs.Gateway.Course
import ProcessEngine.Proofs.Store.Coherent

/-!
# Activations that are interrupted

An activation writes to the store step by step, and undoes nothing when it fails.  In a store that
came about by operations it fails before it has written anything, with one exception: an arrival is
counted first, and a join that is released then closes its forks one after the other, so that it is
interrupted at the first one that is not stored (`Request.Interrupted`).  What was written until
then stays, and is left to the caller to be undone (`failed_activation`).  Only a frame that names a
fork that is not stored, of this token or of an earlier one at the join, leads to this.
-/

namespace ProcessEngine

namespace Request

variable {r : Request} {w w' : Workspace} {p : String} {flows : Option Nat} {targets : List String}
  {err : EngineError}

/-! ## Failures at once -/

lemma exists_recordFork (r : Request) (targets : List String) (w : Workspace) :
    ∃ frame w', r.recordFork targets w = .ok frame w' := by
  rw [recordFork]
  cases r.instanceId with
  | none => exact ⟨_, _, rfl⟩
  | some p => exact ⟨_, _, rfl⟩

lemma exists_splitAll (r : Request) (d : Decision) (w : Workspace) :
    ∃ d' w', r.splitAll d w = .ok d' w' := by
  by_cases hmany : 1 < (r.outgoing.map Flow.target).length
  · obtain ⟨frame, w', hfork⟩ := r.exists_recordFork (r.outgoing.map Flow.target) w
    rw [splitAll, if_pos hmany, Action.bind_of_ok hfork]
    exact ⟨_, _, rfl⟩
  · exact ⟨_, _, splitAll_one d hmany⟩

/-- A failure leaves the store alone. -/
def Harmless (action : Action Decision) (w : Workspace) : Prop :=
  ∀ err w', action w = .error err w' → w'.store = w.store

lemma Harmless.of_ok {action : Action Decision} (h : ∃ d w', action w = .ok d w') :
    Harmless action w := by
  intro err w' herr
  obtain ⟨d, v, hok⟩ := h
  rw [hok] at herr
  cases herr

lemma harmless_exclusive (r : Request) (w : Workspace) : Harmless r.exclusive w := by
  intro err w' herr
  have hpublish := Action.publish_apply (r.gateway.exclusiveEvents r.outgoing r.vars) w
  rw [exclusive, Action.bind_of_ok hpublish] at herr
  cases hchoice : r.gateway.exclusiveChoice r.outgoing r.vars with
  | none =>
    rw [hchoice] at herr
    cases herr
    rfl
  | some f =>
    rw [hchoice] at herr
    cases herr

lemma harmless_inclusiveFork (r : Request) (w : Workspace) : Harmless r.inclusiveFork w := by
  intro err w' herr
  have hpublish := Action.publish_apply (r.gateway.inclusiveEvents r.outgoing r.vars) w
  rw [inclusiveFork, Action.bind_of_ok hpublish] at herr
  simp only at herr
  split_ifs at herr
  · cases herr
    rfl
  · obtain ⟨frame, v, hfork⟩ := r.exists_recordFork
      ((r.gateway.inclusiveChoice r.outgoing r.vars).map Flow.target)
      { w with bus := w.bus.publishAll (r.gateway.inclusiveEvents r.outgoing r.vars) }
    rw [Action.bind_of_ok hfork] at herr
    cases herr

/-- The token meets others, and then nothing but its arrival can fail. -/
structure Encounters (r : Request) (action : Action Decision) (flows : Option Nat)
    (targets : List String) (w : Workspace) : Prop where
  course : r.course = .meet flows targets
  many : r.incoming.any (· ≤ 1) = false
  joins : ∃ next : Arrival → Action Decision, action w = (r.join flows >>= next) w ∧
    ∀ a v, ∃ d v', next a v = .ok d v'

lemma parallel_cases (hkind : r.gateway.kind = .parallel) (w : Workspace) :
    (∃ flows targets, r.Encounters r.parallel flows targets w) ∨
      (∀ flows targets, r.course ≠ .meet flows targets) ∧ Harmless r.parallel w := by
  have hcourseTo : ∀ ts flows targets, courseTo ts ≠ .meet flows targets := by
    intro ts flows targets
    rw [courseTo]
    split_ifs <;> simp
  have hsplit : Harmless (r.splitAll (.to [])) w := .of_ok (r.exists_splitAll _ w)
  by_cases hnone : r.outgoing.isEmpty = true
  · have hcourse : r.course = .refuse (.noOutgoingFlow r.gateway.id) := by
      rw [course, hkind]
      exact if_pos hnone
    rw [hcourse, parallel, if_pos hnone]
    refine .inr ⟨by simp, fun err w' herr => ?_⟩
    cases herr
    rfl
  · rw [parallel, if_neg hnone]
    cases hincoming : r.incoming with
    | none =>
      have hcourse : r.course = courseTo (r.outgoing.map Flow.target) := by
        rw [course, hkind]
        simp only [hincoming]
        exact if_neg hnone
      exact .inr ⟨fun flows targets => hcourse ▸ hcourseTo _ flows targets, hsplit⟩
    | some n =>
      have hcourse : r.course = if 1 < n
          then .meet (some (word32 n)) (r.outgoing.map Flow.target)
          else courseTo (r.outgoing.map Flow.target) := by
        rw [course, hkind]
        simp only [hincoming]
        exact if_neg hnone
      simp only
      split_ifs at hcourse ⊢ with hmany
      · refine .inl ⟨_, _, hcourse, by simpa [hincoming] using hmany, _, rfl, fun a v => ?_⟩
        obtain ⟨released, active, id, kept⟩ := a
        cases released with
        | true => exact r.exists_splitAll _ v
        | false => exact ⟨_, _, rfl⟩
      · exact .inr ⟨fun flows targets => hcourse ▸ hcourseTo _ flows targets, hsplit⟩

lemma inclusiveJoin_cases (hkind : r.gateway.kind = .inclusive)
    (hforks : ¬r.forksInclusively = true) (w : Workspace) :
    (∃ flows targets, r.Encounters r.inclusiveJoin flows targets w) ∨
      (∀ flows targets, r.course ≠ .meet flows targets) ∧ Harmless r.inclusiveJoin w := by
  rw [inclusiveJoin]
  cases hhead : r.outgoing.head? with
  | none =>
    have hcourse : r.course = .refuse (.noOutgoingFlow r.gateway.id) := by
      rw [course, hkind]
      simp only [hhead]
      exact if_neg hforks
    rw [hcourse]
    refine .inr ⟨by simp, fun err w' herr => ?_⟩
    cases herr
    rfl
  | some flow =>
    have hcourse : r.course = if r.incoming.any (· ≤ 1)
        then .pass { Decision.to [flow.target] with isJoin := true, activeBranches := some 1 }
        else .meet none [flow.target] := by
      rw [course, hkind]
      simp only [hhead]
      exact if_neg hforks
    rw [Action.orFail_some, pure_bind]
    split_ifs at hcourse with hone
    · refine .inr ⟨by simp [hcourse], fun err w' herr => ?_⟩
      rw [join] at herr
      cases hp : r.instanceId with
      | none =>
        rw [hp] at herr
        cases herr
        rfl
      | some p =>
        rw [hp, Action.orFail_some, pure_bind, if_pos hone] at herr
        cases herr
    · exact .inl ⟨_, _, hcourse, by simpa using hone, _, rfl, fun a v => ⟨_, _, rfl⟩⟩

/-- The token meets others, or a failure leaves the store alone. -/
lemma activate_cases (r : Request) (w : Workspace) :
    (∃ flows targets, r.Encounters r.activate flows targets w) ∨
      (∀ flows targets, r.course ≠ .meet flows targets) ∧ Harmless r.activate w := by
  rw [activate]
  cases hkind : r.gateway.kind with
  | exclusive =>
    refine .inr ⟨fun flows targets => ?_, r.harmless_exclusive w⟩
    rw [course, hkind]
    simp only
    split <;> simp
  | eventBased =>
    refine .inr ⟨fun flows targets => ?_, fun err w' herr => ?_⟩
    · rw [course, hkind]
      simp only
      split_ifs <;> simp
    · simp only [eventBased] at herr
      split_ifs at herr <;> cases herr
      rfl
  | parallel => exact parallel_cases hkind w
  | inclusive =>
    by_cases hforks : r.forksInclusively = true
    · simp only [if_pos hforks]
      refine .inr ⟨fun flows targets => ?_, r.harmless_inclusiveFork w⟩
      rw [course, hkind]
      simp only [if_pos hforks]
      split_ifs <;> simp
    · simp only [if_neg hforks]
      exact inclusiveJoin_cases hkind hforks w

/-! ## Interruptions -/

/-- The token fills a join, and of the forks that the join has to close then this one is the first
that is not stored.  The states that are left, by instance, count the arrival, and the forks before
this one are inactive. -/
inductive Interrupted (r : Request) (w : Workspace) (u : Uid) :
    (String → List GatewayState) → Prop
  | intro {p : String} {flows : Option Nat} {targets : List String}
      {a : GatewayState × List GatewayState} {before after : List Uid}
      (hp : r.instanceId = some p) (hcourse : r.course = .meet flows targets)
      (harrival : a = r.arrival p flows (w.store.states p) w.supply.uid.1
        (w.store.generation p r.gateway.id + 1))
      (hfull : a.1.isFull = true)
      (hclosing : a.1.closing (r.keyAmong (w.store.states p) flows).closes =
        before ++ u :: after)
      (hbefore : ∀ v ∈ before, v ∈ (a.2 ++ w.store.all).map GatewayState.id)
      (hmissing : u ∉ (a.2 ++ w.store.all).map GatewayState.id) :
      Interrupted r w u fun q => retired before (if q = p then a.2 else w.store.states q)

variable {u : Uid} {states : String → List GatewayState}

/-- Such a fork is named by a frame of the token or of an earlier one at a join of the instance. -/
lemma Interrupted.named (h : r.Interrupted w u states) :
    (∃ f ∈ r.frames, f.forkId = u) ∨ ∃ p, r.instanceId = some p ∧
      ∃ j ∈ w.store.states p, j.kind = .join ∧ ∃ f ∈ j.shared, f.forkId = u := by
  cases h with
  | @intro p flows targets a before after hp hcourse ha hfull hclosing hbefore hmissing =>
    have hu : u ∈ before ++ u :: after := by simp
    rw [← hclosing, ha] at hu
    rcases closing_cases flows hu with hframe | hshared | ⟨o, ho, -, rfl⟩
    · exact .inl hframe
    · exact .inr ⟨p, hp, hshared⟩
    · refine absurd (List.mem_map_of_mem ?_) hmissing
      exact List.mem_append_right _ (Store.mem_states.1 ho).1

/-- Where an arrival has been counted, its states and those that were there before are stored. -/
lemma mem_stored {id : Uid} {generation : Nat} {s₁ : Store}
    (hstates : ∀ q, s₁.states q =
      if q = p then (r.arrival p flows (w.store.states p) id generation).2 else w.store.states q)
    {v : Uid} : v ∈ s₁.all.map GatewayState.id ↔
      v ∈ ((r.arrival p flows (w.store.states p) id generation).2 ++ w.store.all).map
        GatewayState.id := by
  rw [List.map_append, List.mem_append]
  constructor
  · intro hv
    obtain ⟨o, ho, rfl⟩ := List.mem_map.1 hv
    have hmem : o ∈ s₁.states o.instanceId := Store.mem_states.2 ⟨ho, rfl⟩
    rw [hstates o.instanceId] at hmem
    split_ifs at hmem
    · exact .inl (List.mem_map_of_mem hmem)
    · exact .inr (List.mem_map_of_mem (Store.mem_states.1 hmem).1)
  · rintro (hv | hv)
    · obtain ⟨o, ho, rfl⟩ := List.mem_map.1 hv
      rw [← show s₁.states p = _ from (hstates p).trans (if_pos rfl)] at ho
      exact List.mem_map_of_mem (Store.mem_states.1 ho).1
    · exact stored_of_arrival hstates hv

section

variable (hk : w.store.Keyed w.supply.issued)
  (hopen : ∀ p, ∀ j ∈ w.store.states p, j.kind = .join → j.isActive = true →
    j.completedBranches < j.activeBranches)
include hk hopen

/-- An arrival that fails does so at once, or is interrupted. -/
lemma join_error (hcourse : r.course = .meet flows targets)
    (hmany : r.incoming.any (· ≤ 1) = false) (h : r.join flows w = .error err w') :
    w'.store = w.store ∨ ∃ u, err = .stateNotFound u ∧ r.Interrupted w u w'.store.states := by
  cases hp : r.instanceId with
  | none =>
    rw [join, hp] at h
    cases h
    exact .inl rfl
  | some p =>
    refine .inr ?_
    obtain ⟨s₁, hjoin, hkeyed₁, hstates₁⟩ := join_concludes hk hp (hopen p) hmany flows
    rw [hjoin] at h
    set a := r.arrival p flows (w.store.states p) w.supply.uid.1
      (w.store.generation p r.gateway.id + 1) with ha
    set key := r.keyAmong (w.store.states p) flows with hkey
    cases hfull : a.1.isFull with
    | false =>
      rw [conclude_of_not_isFull key hfull] at h
      cases h
    | true =>
      cases hfind : (a.1.closing key.closes).find?
          (fun u => decide (u ∉ s₁.all.map GatewayState.id)) with
      | none =>
        have hids : ∀ u ∈ a.1.closing key.closes, u ∈ s₁.all.map GatewayState.id := by
          simpa using hfind
        obtain ⟨s', hok, -⟩ := conclude_eq key a.1
          (w := { w with store := s₁, supply := w.supply.uid.2 }) hkeyed₁ hids
        rw [hok] at h
        cases h
      | some u =>
        obtain ⟨hu, before, after, hclosing, hbefore⟩ := List.find?_eq_some_iff_append.1 hfind
        have hu : u ∉ s₁.all.map GatewayState.id := by simpa using hu
        have hbefore : ∀ v ∈ before, v ∈ s₁.all.map GatewayState.id := by simpa using hbefore
        obtain ⟨s', hstop, hstates⟩ := completeAll_missing
          (w := { w with store := s₁, supply := w.supply.uid.2 }) hkeyed₁ hbefore hu after
        rw [conclude_of_isFull key hfull, hclosing, Action.bind_of_error hstop] at h
        cases h
        have hleft : s'.states =
            fun q => retired before (if q = p then a.2 else w.store.states q) :=
          funext fun q => (hstates q).trans (congrArg _ (hstates₁ q))
        refine ⟨u, rfl, ?_⟩
        change r.Interrupted w u s'.states
        rw [hleft]
        exact .intro hp hcourse ha hfull hclosing
          (fun v hv => (mem_stored hstates₁).1 (hbefore v hv)) (hu ∘ (mem_stored hstates₁).2)

/-- An interrupted activation fails, and what it has written is left. -/
lemma Interrupted.activate (h : r.Interrupted w u states) :
    ∃ w', r.activate w = .error (.stateNotFound u) w' ∧ w'.store.states = states := by
  cases h with
  | @intro p flows targets a before after hp hcourse ha hfull hclosing hbefore hmissing =>
    rcases r.activate_cases w with ⟨flows', targets', hmeets⟩ | ⟨hnone, -⟩
    · obtain ⟨rfl, rfl⟩ := Course.meet.inj (hcourse.symm.trans hmeets.course)
      obtain ⟨next, hactivate, -⟩ := hmeets.joins
      obtain ⟨s₁, hjoin, hkeyed₁, hstates₁⟩ := join_concludes hk hp (hopen p) hmeets.many flows
      have hstored := fun v => mem_stored hstates₁ (v := v)
      rw [← ha] at hjoin hstates₁ hstored
      obtain ⟨s', hstop, hstates⟩ := completeAll_missing
        (w := { w with store := s₁, supply := w.supply.uid.2 }) hkeyed₁
        (fun v hv => (hstored v).2 (hbefore v hv)) (hmissing ∘ (hstored u).1) after
      refine ⟨{ w with store := s', supply := w.supply.uid.2 }, ?_, ?_⟩
      · rw [hactivate]
        refine Action.bind_of_error ?_ next
        rw [hjoin, conclude_of_isFull _ hfull, hclosing, Action.bind_of_error hstop]
      · exact funext fun q => (hstates q).trans (congrArg _ (hstates₁ q))
    · exact absurd hcourse (hnone _ _)

omit hopen in
/-- The states of the instance are not what they were: the join has one more arrival. -/
lemma Interrupted.states_ne (h : r.Interrupted w u states) : ∃ p, states p ≠ w.store.states p := by
  cases h with
  | @intro p flows targets a before after hp hcourse ha hfull hclosing hbefore hmissing =>
    refine ⟨p, fun heq => ?_⟩
    have heq : retired before a.2 = w.store.states p := by simpa using heq
    have hleft : ∀ j ∈ a.2, ∃ t ∈ w.store.states p, t.id = j.id ∧
        t.completedBranches = j.completedBranches := by
      intro j hj
      refine ⟨_, heq ▸ mem_retired.2 ⟨j, hj, rfl⟩, ?_⟩
      split_ifs <;> exact ⟨rfl, rfl⟩
    rcases r.arrival_cases p flows (w.store.states p) w.supply.uid.1
      (w.store.generation p r.gateway.id + 1) with ⟨o, ho, -, hcase⟩ | ⟨o, hopened, -, hcase⟩
    · rw [ha, hcase] at hleft
      obtain ⟨t, ht, hid, hcount⟩ := hleft _ (mem_exchanged.2 (.inl ⟨rfl, o, ho, rfl⟩))
      obtain rfl := hk.eq_of_id (Store.mem_states.1 ht).1 (Store.mem_states.1 ho).1 hid
      exact absurd hcount (Nat.ne_of_lt (Nat.lt_succ_self _))
    · rw [ha, hcase] at hleft
      obtain ⟨t, ht, hid, -⟩ := hleft (o.arrived r.frames) (by simp)
      have hfresh : w.supply.issued < w.supply.uid.1.value := Nat.lt_succ_self _
      exact hk.fresh hfresh t (Store.mem_states.1 ht).1 (hid.trans (by rw [hopened]; rfl))

end

/-- **Failed activations.** If an activation fails on a store that came about by operations, with
identifiers that were issued one by one, either the store is as it was or the activation is
interrupted: the arrival that fills a join comes to close a fork that is not stored.  Each such
interruption is a failure that names this fork and leaves what was written until then.  Only the
frames of the token or of an earlier one at a join of the instance name such a fork. -/
theorem failed_activation {ops : List Operation} (hf : Fresh ops)
    (hstore : w.store = (Life.through ops).now)
    (hissued : ∀ id p, (id, p) ∈ ops.filterMap Operation.gives → id.value ≤ w.supply.issued)
    (r : Request) :
    (∀ err w', r.activate w = .error err w' →
      w'.store = w.store ∨ ∃ u, err = .stateNotFound u ∧ r.Interrupted w u w'.store.states) ∧
    ∀ u states, r.Interrupted w u states →
      (∃ w', r.activate w = .error (.stateNotFound u) w' ∧ w'.store.states = states) ∧
      (∃ p, states p ≠ w.store.states p) ∧
      ((∃ f ∈ r.frames, f.forkId = u) ∨ ∃ p, r.instanceId = some p ∧
        ∃ j ∈ w.store.states p, j.kind = .join ∧ ∃ f ∈ j.shared, f.forkId = u) := by
  obtain ⟨hcoherent, -, howned⟩ := Life.through_sound hf _ List.mem_cons_self
  rw [← hstore] at hcoherent howned
  have hk : w.store.Keyed w.supply.issued :=
    ⟨hcoherent.distinct, fun o ho => hissued o.id o.instanceId (howned o ho)⟩
  have hopen : ∀ p, ∀ j ∈ w.store.states p, j.kind = .join → j.isActive = true →
      j.completedBranches < j.activeBranches :=
    fun p j hj => (hcoherent.regular j (Store.mem_states.1 hj).1).waits
  refine ⟨fun err w' herr => ?_, fun u states h => ⟨h.activate hk hopen, h.states_ne hk, h.named⟩⟩
  rcases r.activate_cases w with ⟨flows, targets, hmeets⟩ | ⟨-, hharmless⟩
  · obtain ⟨next, hactivate, hnext⟩ := hmeets.joins
    rw [hactivate, Action.bind_eq_error] at herr
    rcases herr with herr | ⟨a, v, -, herr⟩
    · exact join_error hk hopen hmeets.course hmeets.many herr
    · obtain ⟨d, v', hok⟩ := hnext a v
      rw [hok] at herr
      cases herr
  · exact .inl (hharmless err w' herr)

/-- A fork is stored. -/
def forked : List Operation := [.createFork ⟨"p", none, "inner", ["join"]⟩ ⟨1⟩]

/-- The workspace that holds it. -/
def afterFork : Workspace := ⟨(Life.through forked).now, .new 1, ⟨fun _ => ⟨0, 0⟩, 0, 1⟩⟩

/-- A token that was split by this fork, and before that by one that is not stored. -/
def halfKnown : Request :=
  { gateway := .unnamed "join" .inclusive none
    outgoing := [⟨"f1", "join", "end", none⟩]
    vars := []
    incoming := some 2
    instanceId := some "p"
    executionId := none
    frames := [⟨"outer", ⟨9⟩, 1, 1, [0]⟩, ⟨"inner", ⟨1⟩, 1, 1, [0]⟩] }

/-- The fork that is stored is closed before the other one is missed. -/
theorem failed_activation_halfKnown :
    Fresh forked ∧ (∀ id p, (id, p) ∈ forked.filterMap Operation.gives → id.value ≤ 1) ∧
      ∃ states, halfKnown.Interrupted afterFork ⟨9⟩ states ∧
        (states "p").map GatewayState.isActive = [false, false] ∧
        (∃ w', halfKnown.activate afterFork = .error (.stateNotFound ⟨9⟩) w' ∧
          w'.store.states = states) ∧
        (∃ p, states p ≠ afterFork.store.states p) ∧
        ((∃ f ∈ halfKnown.frames, f.forkId = ⟨9⟩) ∨ ∃ p, halfKnown.instanceId = some p ∧
          ∃ j ∈ afterFork.store.states p, j.kind = .join ∧ ∃ f ∈ j.shared, f.forkId = ⟨9⟩) := by
  have hfresh : Fresh forked := by
    unfold Fresh
    decide
  have hissued : ∀ id p, (id, p) ∈ forked.filterMap Operation.gives → id.value ≤ 1 := by
    intro id p h
    obtain ⟨rfl, rfl⟩ := Prod.mk.inj (List.mem_singleton.1 h)
    exact Nat.le_refl 1
  have hinterrupted : halfKnown.Interrupted afterFork ⟨9⟩ _ :=
    @Interrupted.intro _ _ _ "p" none ["end"] _ [⟨1⟩] [⟨1⟩] rfl (by decide) rfl (by decide)
      (by decide) (by decide) (by decide)
  exact ⟨hfresh, hissued, _, hinterrupted, by decide,
    (failed_activation hfresh rfl hissued halfKnown).2 _ _ hinterrupted⟩

/-- A token that was split by a fork that is not stored. -/
def astray : Request :=
  { halfKnown with frames := [⟨"outer", ⟨9⟩, 1, 1, [0]⟩] }

/-- It is not so that a failed activation leaves the states as they were: the join that was opened
for the token is left behind in the empty store. -/
theorem join_left_behind :
    Fresh [] ∧ ∃ w w', w.store = (Life.through []).now ∧ w.supply.issued = 0 ∧
      astray.activate w = .error (.stateNotFound ⟨9⟩) w' ∧
      w.store.states "p" = [] ∧ (w'.store.states "p").map GatewayState.completedBranches = [1] :=
  ⟨List.nodup_nil, ⟨.empty, .new 1, .start fun _ => ⟨0, 0⟩⟩, _, rfl, rfl, rfl, rfl, by decide⟩

end Request

end ProcessEngine

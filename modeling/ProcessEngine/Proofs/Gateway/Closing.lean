import ProcessEngine.Proofs.Gateway.Effect

/-!
# When a fork is closed

A fork is made inactive by the release of a join, and by nothing else: either every branch index of
the fork is among the frames merged at the join, or the join is an inclusive one that was sized by
the fork.  `ForksClosed` says that among the states of an instance the inactive forks are just those
that a released join closes so, and `Effect.forksClosed` that every activation keeps this.
-/

namespace ProcessEngine

/-- The fork that a join was sized by.  Only inclusive gateways size their joins by a fork. -/
def Definition.sizer (d : Definition) (j : GatewayState) : Option Uid :=
  match d.element? j.gatewayId with
  | some (.gateway g) => if g.kind = .inclusive then j.correlationId else none
  | _ => none

/-- The join is released, and its release closes the fork. -/
structure Definition.Closes (d : Definition) (j : GatewayState) (fork : Uid) : Prop where
  kind : j.kind = .join
  released : j.isFull = true
  closing : fork ∈ j.closing (d.sizer j)

/-- A fork is inactive if and only if a released join closes it. -/
def ForksClosed (d : Definition) (states : List GatewayState) : Prop :=
  ∀ s ∈ states, s.kind = .fork → (s.isActive = false ↔ ∃ j ∈ states, d.Closes j s.id)

namespace ForksClosed

variable {d : Definition} {p : String} {issued : Nat} {states : List GatewayState}

/-- What a join closes is a fork of the instance. -/
lemma fork_of_closes (h : SoundStates p issued states) {j : GatewayState} (hj : j ∈ states)
    {u : Uid} (hu : d.Closes j u) : ∃ s ∈ states, s.kind = .fork ∧ s.id = u := by
  have hsound := h.joins j hj hu.kind
  have hclosing := hu.closing
  rw [GatewayState.closing, List.mem_append, Option.mem_toList] at hclosing
  rcases hclosing with hsizer | hshared
  · refine hsound.scope u ?_
    rw [Definition.sizer] at hsizer
    split at hsizer
    · split_ifs at hsizer
      exact hsizer
    · cases hsizer
  · obtain ⟨f, hmem, rfl⟩ := List.mem_map.1 hshared
    exact (Request.shared_sound hsound f (List.mem_filter.1 hmem).1).exists_id

/-- A new fork is active, and no join closes it yet. -/
lemma append (hc : ForksClosed d states) (h : SoundStates p issued states) {fork : GatewayState}
    (hk : fork.kind = .fork) (hactive : fork.isActive = true) (hid : issued < fork.id.value) :
    ForksClosed d (states ++ [fork]) := by
  have hjoins : ∀ u, (∃ j ∈ states ++ [fork], d.Closes j u) ↔ ∃ j ∈ states, d.Closes j u := by
    intro u
    constructor
    · rintro ⟨j, hj, hclose⟩
      rcases List.mem_append.1 hj with hj | hj
      · exact ⟨j, hj, hclose⟩
      · have hjk := hclose.kind
        rw [List.mem_singleton.1 hj, hk] at hjk
        cases hjk
    · rintro ⟨j, hj, hclose⟩
      exact ⟨j, List.mem_append_left _ hj, hclose⟩
  intro s hs hsk
  rw [hjoins]
  rcases List.mem_append.1 hs with hs | hs
  · exact hc s hs hsk
  · rw [List.mem_singleton.1 hs, hactive]
    simp only [Bool.true_eq_false, false_iff]
    rintro ⟨j, hj, hclose⟩
    obtain ⟨o, ho, -, hou⟩ := fork_of_closes h hj hclose
    have hknown := h.known o ho
    rw [hou] at hknown
    omega

end ForksClosed

namespace Request

variable {d : Definition} {r : Request} {p : String} {issued : Nat} {states : List GatewayState}
  {flows : Option Nat} {targets : List String} {id : Uid} {generation : Nat}

/-- The fork that a join is sized by is the one that the key of the token closes. -/
lemma sizer_arrival (p : String) (states : List GatewayState) (id : Uid) (generation : Nat)
    (hg : d.element? r.gateway.id = some (.gateway r.gateway))
    (hcourse : r.course = .meet flows targets) :
    d.sizer (r.arrival p flows states id generation).1 = (r.keyAmong states flows).closes := by
  obtain ⟨hgateway, hcorrelation⟩ :=
    arrival_key r p flows states id generation
  rw [Definition.sizer, hgateway, hg, hcorrelation, keyAmong_closes]
  rcases course_meet hcourse with ⟨hkind, n, -, -, rfl⟩ | ⟨hkind, -, rfl, -⟩
  · simp [hkind]
  · simp [hkind]

/-- An arrival retires just the forks that it closes. -/
lemma forksClosed_arrivalStates (hc : ForksClosed d states) (h : SoundStates p issued states)
    (hf : ∀ f ∈ r.frames, f.Sound states) (hid : issued < id.value)
    (hg : d.element? r.gateway.id = some (.gateway r.gateway))
    (hcourse : r.course = .meet flows targets) :
    ForksClosed d (r.arrivalStates p flows states id generation) := by
  have hsizer := sizer_arrival p states id generation hg hcourse
  obtain ⟨-, hmem, hjk, -⟩ := arrival_sound flows h hf hid generation
  obtain ⟨-, hstays, -⟩ := arrivalStates_sound flows h hf hid generation
  set j := (r.arrival p flows states id generation).1 with hj
  -- Joins that were released before are other ones than that of the arrival.
  have hclosers : ∀ u, (∃ k ∈ r.arrivalStates p flows states id generation, d.Closes k u) ↔
      (j.isFull = true ∧ u ∈ j.closing (r.keyAmong states flows).closes) ∨
        ∃ k ∈ states, d.Closes k u := by
    intro u
    constructor
    · rintro ⟨k, hk, hclose⟩
      rcases (mem_arrivalStates_join h hf hid hclose.kind).1 hk with rfl | ⟨hold, -⟩
      · exact .inl ⟨hclose.released, hsizer ▸ hclose.closing⟩
      · exact .inr ⟨k, hold, hclose⟩
    · rintro (⟨hfull, hclosing⟩ | ⟨k, hk, hclose⟩)
      · exact ⟨j, hstays, hjk, hfull, hsizer ▸ hclosing⟩
      · refine ⟨k, (mem_arrivalStates_join h hf hid hclose.kind).2 (.inr ⟨hk, fun heq => ?_⟩),
          hclose⟩
        obtain ⟨-, -, hlt, -⟩ := arrival_old h hid hk heq
        exact absurd (of_decide_eq_true hclose.released) (by omega)
  intro s hs hsk
  obtain ⟨o, ho, hok, heq⟩ := (mem_arrivalStates_fork h hid hsk).1 hs
  have hso : s.id = o.id := by
    rw [heq]
    split <;> rfl
  rw [hclosers, hso, ← hc o ho hok, heq]
  split_ifs with hclosed
  · simp only [true_iff]
    exact .inl hclosed
  · exact ⟨.inr, fun hor => hor.resolve_left hclosed⟩

/-- Every activation keeps the inactive forks to those that a released join closes. -/
theorem Effect.forksClosed {decision : Decision} {issued' : Nat} {states' : List GatewayState}
    (heff : r.Effect p issued states decision issued' states')
    (hg : d.element? r.gateway.id = some (.gateway r.gateway)) (h : SoundStates p issued states)
    (hf : ∀ f ∈ r.frames, f.Sound states) (hc : ForksClosed d states) : ForksClosed d states' := by
  have hfresh : issued < (Uid.mk (issued + 1)).value := Nat.lt_succ_self issued
  cases heff with
  | pass => exact hc
  | split generation => exact hc.append h rfl rfl hfresh
  | wait generation hcourse => exact forksClosed_arrivalStates hc h hf hfresh hg hcourse
  | release generation hcourse => exact forksClosed_arrivalStates hc h hf hfresh hg hcourse
  | @releaseSplit flows targets generation forkGeneration hcourse =>
    obtain ⟨hstates, -⟩ := arrivalStates_sound flows h hf hfresh generation
    exact (forksClosed_arrivalStates hc h hf hfresh hg hcourse).append hstates rfl rfl
      (Nat.lt_succ_self (issued + 1))

end Request

end ProcessEngine

import ProcessEngine.Engine.Traversal
import ProcessEngine.Proofs.Gateway.Course

/-!
# The states and tokens after an activation

What the effect of an activation means for the states of the instance: which joins and forks there
are after an arrival (`mem_arrivalStates_join`, `mem_arrivalStates_fork`), and that an effect keeps
the states in order and sends out only tokens whose frames are sound again (`Effect.sound`).
-/

namespace ProcessEngine

/-- A sound frame of a token on its way.  Merged frames of which every branch has come in are not
handed on, so a frame that is closed stems from a fork with a single branch. -/
structure Frame.Carried (states : List GatewayState) (f : Frame) : Prop extends f.Sound states where
  unmerged : f.isClosed = true → f.branchCount ≤ 1

lemma Frame.Carried.mono {states later : List GatewayState} {f : Frame} (h : f.Carried states)
    (hk : ForksKept states later) : f.Carried later :=
  ⟨h.toSound.mono hk, h.unmerged⟩

/-- The branches of a new fork carry its frame. -/
lemma Frame.carried_forBranch {states : List GatewayState} {s : GatewayState} (hs : s ∈ states)
    (hk : s.kind = .fork) (n : Nat) : (s.frame.forBranch n).Carried states :=
  ⟨⟨tidy_forBranch _ n, s, hs, hk, rfl⟩, branchCount_of_isClosed_forBranch⟩

/-! ## Decisions -/

/-- Every token that leaves a gateway carries the frames that are handed on, and that of the fork if
there is one. -/
lemma Decision.mem_cursors {d : Decision} {frames : List Frame} {c : Cursor}
    (hc : c ∈ d.cursors frames) :
    c.frames = d.continueFrames.getD frames ∨
      ∃ fork n, d.forkFrame = some fork ∧
        c.frames = d.continueFrames.getD frames ++ [fork.forBranch n] := by
  simp only [Decision.cursors, List.mem_mapIdx] at hc
  obtain ⟨i, hi, rfl⟩ := hc
  cases hfork : d.forkFrame with
  | none => exact .inl rfl
  | some fork => exact .inr ⟨fork, word32 i, rfl, rfl⟩

namespace Request

variable {r : Request} {p : String} {issued : Nat} {states : List GatewayState}

lemma courseTo_pass {targets : List String} {d : Decision} (h : courseTo targets = .pass d) :
    d = .to targets := by
  rw [courseTo] at h
  split_ifs at h
  exact (Course.pass.inj h).symm

lemma courseTo_meet {targets ts : List String} {flows : Option Nat} :
    courseTo targets ≠ .meet flows ts := by
  rw [courseTo]
  split_ifs <;> simp

/-- A token that is passed on keeps its frames, and waits only for the candidates of an event-based
gateway. -/
lemma course_pass {d : Decision} (h : r.course = .pass d) :
    d.forkFrame = none ∧ d.continueFrames = none ∧ d.stateId = none ∧
      (d.needsWait = true → r.gateway.kind = .eventBased ∧ d.isJoin = false ∧
        d.next = r.outgoing.map Flow.target) := by
  have hto : ∀ targets, d = .to targets → d.forkFrame = none ∧ d.continueFrames = none ∧
      d.stateId = none ∧ (d.needsWait = true → r.gateway.kind = .eventBased ∧ d.isJoin = false ∧
        d.next = r.outgoing.map Flow.target) := by
    rintro targets rfl
    exact ⟨rfl, rfl, rfl, fun hwait => by cases hwait⟩
  rw [course] at h
  split at h
  · split at h
    · exact hto _ (Course.pass.inj h).symm
    · simp at h
  · split_ifs at h
    split at h
    · split_ifs at h
      exact hto _ (courseTo_pass h)
    · exact hto _ (courseTo_pass h)
  · split at h
    · simp only at h
      split_ifs at h
    · split at h
      · simp at h
      · split at h
        · obtain rfl := Course.pass.inj h
          exact ⟨rfl, rfl, rfl, fun hwait => by cases hwait⟩
        · simp at h
  · next hkind =>
    split_ifs at h
    obtain rfl := Course.pass.inj h
    exact ⟨rfl, rfl, rfl, fun _ => ⟨hkind, rfl, rfl⟩⟩

/-- Tokens meet at parallel gateways with several incoming flows, and at inclusive gateways that do
not fork. -/
lemma course_meet {flows : Option Nat} {targets : List String}
    (h : r.course = .meet flows targets) :
    (r.gateway.kind = .parallel ∧ ∃ n, r.incoming = some n ∧ 1 < n ∧ flows = some (word32 n)) ∨
      (r.gateway.kind = .inclusive ∧ r.forksInclusively = false ∧ flows = none ∧
        r.incoming.any (· ≤ 1) = false) := by
  rw [course] at h
  split at h
  · split at h <;> simp at h
  · next hkind =>
    split_ifs at h
    split at h
    · next n hn =>
      split_ifs at h with hmany
      · simp only [Course.meet.injEq] at h
        exact .inl ⟨hkind, n, hn, hmany, h.1.symm⟩
      · exact absurd h courseTo_meet
    · exact absurd h courseTo_meet
  · next hkind =>
    by_cases hforks : r.forksInclusively = true
    · rw [if_pos hforks] at h
      simp only at h
      split_ifs at h
    · rw [if_neg hforks] at h
      split at h
      · simp at h
      · split at h
        · simp at h
        · next hmany =>
          simp only [Course.meet.injEq] at h
          exact .inr ⟨hkind, by simpa using hforks, h.1.symm, by simpa using hmany⟩
  · split_ifs at h

/-! ## Arrivals -/

section Arrival

variable {flows : Option Nat} {id : Uid} {generation : Nat}

/-- The join state after an arrival has the gateway and the key of the token. -/
lemma arrival_key (r : Request) (p : String) (flows : Option Nat) (states : List GatewayState)
    (id : Uid) (generation : Nat) :
    (r.arrival p flows states id generation).1.gatewayId = r.gateway.id ∧
      (r.arrival p flows states id generation).1.correlationId =
        (r.keyAmong states flows).correlationId := by
  rcases r.arrival_cases p flows states id generation with
    ⟨o, -, hjoin, heq⟩ | ⟨o, rfl, -, heq⟩
  · simp only [Store.isJoinOf, Bool.and_eq_true, beq_iff_eq] at hjoin
    rw [heq]
    exact ⟨hjoin.1.2, hjoin.2⟩
  · rw [heq]
    exact ⟨rfl, rfl⟩

/-- A state that the arrival was counted on was an active join that missed arrivals. -/
lemma arrival_old (h : SoundStates p issued states) (hid : issued < id.value) {o : GatewayState}
    (ho : o ∈ states) (hoid : o.id = (r.arrival p flows states id generation).1.id) :
    o.kind = .join ∧ o.isActive = true ∧ o.completedBranches < o.activeBranches ∧
      (r.arrival p flows states id generation).1 = o.arrived r.frames := by
  rcases r.arrival_cases p flows states id generation with
    ⟨x, hx, hjoin, heq⟩ | ⟨x, rfl, -, heq⟩
  · rw [heq] at hoid
    obtain rfl := h.eq_of_id ho hx hoid
    simp only [Store.isJoinOf, Bool.and_eq_true, beq_iff_eq] at hjoin
    obtain ⟨⟨⟨⟨hk, hactive⟩, -⟩, -⟩, -⟩ := hjoin
    exact ⟨hk, hactive, (h.joins o ho hk).active.1 hactive, by rw [heq]⟩
  · rw [heq] at hoid
    have hknown := h.known o ho
    have : o.id.value = id.value := congrArg Uid.value hoid
    omega

/-- What is come to is a join. -/
lemma kind_arrival (r : Request) (p : String) (flows : Option Nat) (states : List GatewayState)
    (id : Uid) (generation : Nat) : (r.arrival p flows states id generation).1.kind = .join := by
  rcases r.arrival_cases p flows states id generation with ⟨o, -, hjoin, heq⟩ | ⟨o, rfl, -, heq⟩
  · simp only [Store.isJoinOf, Bool.and_eq_true, beq_iff_eq] at hjoin
    rw [heq]
    exact hjoin.1.1.1.1
  · rw [heq]
    rfl

/-- The states after an arrival, before forks are retired: the join that was come to, and all that
have another id. -/
lemma mem_arrival (hknown : ∀ s ∈ states, s.id.value ≤ issued) (hid : issued < id.value)
    {s : GatewayState} :
    s ∈ (r.arrival p flows states id generation).2 ↔
      s = (r.arrival p flows states id generation).1 ∨
        s ∈ states ∧ s.id ≠ (r.arrival p flows states id generation).1.id := by
  rcases r.arrival_cases p flows states id generation with
    ⟨o, ho, -, heq⟩ | ⟨o, hopened, -, heq⟩
  · rw [heq, mem_exchanged]
    refine or_congr_left (and_iff_left ⟨o, ho, rfl⟩)
  · have hoid : (o.arrived r.frames).id = id := by rw [hopened]; rfl
    have hfresh : s ∈ states → s.id ≠ (o.arrived r.frames).id := by
      intro hs heq
      have hle := hknown s hs
      rw [heq, hoid] at hle
      omega
    rw [heq, List.mem_append, List.mem_singleton]
    tauto

/-- The joins after an arrival. -/
lemma mem_arrivalStates_join (h : SoundStates p issued states)
    (hf : ∀ f ∈ r.frames, f.Sound states) (hid : issued < id.value) {k : GatewayState}
    (hk : k.kind = .join) :
    k ∈ r.arrivalStates p flows states id generation ↔
      k = (r.arrival p flows states id generation).1 ∨
        k ∈ states ∧ k.id ≠ (r.arrival p flows states id generation).1.id := by
  rw [← mem_arrival h.known hid, arrivalStates]
  obtain ⟨hsound, -⟩ := arrival_sound flows h hf hid generation
  split_ifs
  · exact hsound.mem_retired_join (fun u hu => closing_fork flows h hf hid generation hu) hk
  · rfl

/-- The forks after an arrival: those that a released join closes are inactive. -/
lemma mem_arrivalStates_fork (h : SoundStates p issued states) (hid : issued < id.value)
    {s : GatewayState} (hs : s.kind = .fork) :
    s ∈ r.arrivalStates p flows states id generation ↔
      ∃ o ∈ states, o.kind = .fork ∧ s =
        if (r.arrival p flows states id generation).1.isFull = true ∧
            o.id ∈ (r.arrival p flows states id generation).1.closing
              (r.keyAmong states flows).closes
          then { o with isActive := false } else o := by
  set a := r.arrival p flows states id generation with ha
  have hjk : a.1.kind = .join := kind_arrival r p flows states id generation
  -- A fork is not the join that was come to, so it was there before.
  have hfork : ∀ o : GatewayState, o.kind = .fork → (o ∈ a.2 ↔ o ∈ states) := by
    intro o hok
    rw [ha, mem_arrival h.known hid, ← ha]
    constructor
    · rintro (rfl | ⟨ho, -⟩)
      · rw [hjk] at hok
        cases hok
      · exact ho
    · intro ho
      refine .inr ⟨ho, fun heq => ?_⟩
      rw [(arrival_old h hid ho heq).1] at hok
      cases hok
  rw [arrivalStates, ← ha]
  by_cases hfull : a.1.isFull = true
  · simp only [hfull, true_and, if_true]
    rw [mem_retired]
    constructor
    · rintro ⟨o, ho, rfl⟩
      have hok : o.kind = .fork := by
        split at hs <;> exact hs
      exact ⟨o, (hfork o hok).1 ho, hok, rfl⟩
    · rintro ⟨o, ho, hok, rfl⟩
      exact ⟨o, (hfork o hok).2 ho, rfl⟩
  · simp only [hfull, false_and, if_false, Bool.false_eq_true]
    constructor
    · intro hmem
      exact ⟨s, (hfork s hs).1 hmem, hs, rfl⟩
    · rintro ⟨o, ho, hok, rfl⟩
      exact (hfork _ hok).2 ho

end Arrival

/-! ## Effects -/

lemma newFork_known {states : List GatewayState} (h : SoundStates p issued states)
    (targets : List String) (generation : Nat) :
    SoundStates p (issued + 1)
      (states ++ [r.newFork p targets ⟨issued + 1⟩ generation]) :=
  h.append (r.newFork p targets ⟨issued + 1⟩ generation) (Nat.lt_succ_self issued) rfl nofun
    fun _ => ⟨rfl, rfl⟩

/-- The frames that a released join hands on are carried by the token that leaves it. -/
lemma carried_handedOn {states : List GatewayState} {j : GatewayState} (h : j.SoundJoin states) :
    ∀ f ∈ j.handedOn, f.Carried states := by
  intro f hf
  obtain ⟨hmem, hopen⟩ := List.mem_filter.1 hf
  exact ⟨shared_sound h f hmem, fun hclosed => by simp [hclosed] at hopen⟩

/-- An effect keeps the states in order, and the tokens that leave carry sound frames. -/
theorem Effect.sound {d : Decision} {issued' : Nat} {states' : List GatewayState}
    (heff : r.Effect p issued states d issued' states') (h : SoundStates p issued states)
    (hf : ∀ f ∈ r.frames, f.Carried states) :
    SoundStates p issued' states' ∧ ForksKept states states' ∧
      ∀ c ∈ d.cursors r.frames, ∀ f ∈ c.frames, f.Carried states' := by
  have hsound : ∀ f ∈ r.frames, f.Sound states := fun f hmem => (hf f hmem).toSound
  have hfresh : issued < (Uid.mk (issued + 1)).value := Nat.lt_succ_self issued
  cases heff with
  | pass hcourse =>
    refine ⟨h, .refl _, fun c hc f hfc => ?_⟩
    obtain ⟨hfork, hcontinue, -⟩ := course_pass hcourse
    rcases Decision.mem_cursors hc with hframes | ⟨fork, n, hsome, -⟩
    · rw [hframes, hcontinue] at hfc
      exact hf f hfc
    · rw [hfork] at hsome
      cases hsome
  | @split targets generation hcourse =>
    have hkept := ForksKept.append states [r.newFork p targets ⟨issued + 1⟩ generation]
    refine ⟨newFork_known h targets generation, hkept, fun c hc f hfc => ?_⟩
    rcases Decision.mem_cursors hc with hframes | ⟨fork, n, hsome, hframes⟩
    · rw [hframes] at hfc
      exact (hf f hfc).mono hkept
    · obtain rfl := Option.some.inj hsome
      rw [hframes] at hfc
      rcases List.mem_append.1 hfc with hfc | hfc
      · exact (hf f hfc).mono hkept
      · rw [List.mem_singleton.1 hfc]
        exact Frame.carried_forBranch (by simp) rfl n
  | @wait flows targets generation hcourse hfull =>
    obtain ⟨hstates, -, hkept⟩ := arrivalStates_sound flows h hsound hfresh generation
    exact ⟨hstates, hkept, by simp [Decision.cursors, Decision.waiting, Decision.to]⟩
  | @release flows targets generation hcourse hfull hone =>
    obtain ⟨hstates, hmem, hkept⟩ := arrivalStates_sound flows h hsound hfresh generation
    obtain ⟨-, -, hjk, -⟩ := arrival_sound flows h hsound hfresh generation
    refine ⟨hstates, hkept, fun c hc f hfc => ?_⟩
    rcases Decision.mem_cursors hc with hframes | ⟨fork, n, hsome, -⟩
    · rw [hframes] at hfc
      exact carried_handedOn (hstates.joins _ hmem hjk) f hfc
    · cases hsome
  | @releaseSplit flows targets generation forkGeneration hcourse hfull hmany =>
    obtain ⟨hstates, hmem, hkept⟩ := arrivalStates_sound flows h hsound hfresh generation
    obtain ⟨-, -, hjk, -⟩ := arrival_sound flows h hsound hfresh generation
    have hmore := ForksKept.append (r.arrivalStates p flows states ⟨issued + 1⟩ generation)
      [r.newFork p targets ⟨issued + 2⟩ forkGeneration]
    refine ⟨newFork_known hstates targets forkGeneration, hkept.trans hmore, fun c hc f hfc => ?_⟩
    have hhanded := carried_handedOn (hstates.joins _ hmem hjk)
    rcases Decision.mem_cursors hc with hframes | ⟨fork, n, hsome, hframes⟩
    · rw [hframes] at hfc
      exact (hhanded f hfc).mono hmore
    · obtain rfl := Option.some.inj hsome
      rw [hframes] at hfc
      rcases List.mem_append.1 hfc with hfc | hfc
      · exact (hhanded f hfc).mono hmore
      · rw [List.mem_singleton.1 hfc]
        exact Frame.carried_forBranch (by simp) rfl n

/-- A gateway that has an effect did not refuse the token. -/
lemma Effect.not_refused {d : Decision} {issued' : Nat} {states' : List GatewayState}
    (heff : r.Effect p issued states d issued' states') (e : EngineError) :
    r.course ≠ .refuse e := by
  cases heff <;> simp_all

/-- A token that is split goes on by the branches of a new fork. -/
lemma Effect.of_split {d : Decision} {issued' : Nat} {states' : List GatewayState}
    {targets : List String} (heff : r.Effect p issued states d issued' states')
    (hsplit : r.course = .split targets) :
    ∃ generation, issued' = issued + 1 ∧
      d = (Decision.to []).forked targets (r.newFork p targets ⟨issued + 1⟩ generation) ∧
        states' = states ++ [r.newFork p targets ⟨issued + 1⟩ generation] := by
  cases heff with
  | pass hcourse => rw [hsplit] at hcourse; cases hcourse
  | split generation hcourse =>
    rw [hsplit] at hcourse
    cases hcourse
    exact ⟨generation, rfl, rfl, rfl⟩
  | wait _ hcourse => rw [hsplit] at hcourse; cases hcourse
  | release _ hcourse => rw [hsplit] at hcourse; cases hcourse
  | releaseSplit _ _ hcourse => rw [hsplit] at hcourse; cases hcourse

/-- Only an event-based gateway has a token wait for candidates, the targets of its flows. -/
lemma Effect.offers {d : Decision} {issued' : Nat} {states' : List GatewayState}
    (heff : r.Effect p issued states d issued' states') (hwait : d.needsWait = true)
    (hjoin : d.isJoin = false) :
    r.gateway.kind = .eventBased ∧ d.next = r.outgoing.map Flow.target := by
  cases heff with
  | pass hcourse =>
    obtain ⟨-, -, -, hoffers⟩ := course_pass hcourse
    exact ⟨(hoffers hwait).1, (hoffers hwait).2.2⟩
  | split => cases hwait
  | wait => cases hjoin
  | release => cases hwait
  | releaseSplit => cases hwait

/-- A token that is not refused gets a decision, and everything stays in order. -/
theorem activate_accepted {w : Workspace} (hw : w.Sound) (hp : r.instanceId = some p)
    (hf : ∀ f ∈ r.frames, f.Carried (w.store.states p)) (haccepted : ∀ e, r.course ≠ .refuse e) :
    ∃ d w', r.activate w = .ok d w' ∧
      r.Effect p w.supply.issued (w.store.states p) d w'.supply.issued (w'.store.states p) ∧
      w'.Sound ∧ w.supply.issued ≤ w'.supply.issued ∧
      ForksKept (w.store.states p) (w'.store.states p) ∧
      ∀ c ∈ d.cursors r.frames, ∀ f ∈ c.frames, f.Carried (w'.store.states p) := by
  rcases activate_spec hw hp (fun f hmem => (hf f hmem).toSound) with
    ⟨e, hrefuse, -⟩ | ⟨d, w', hact, heff, hconf⟩
  · exact absurd hrefuse (haccepted e)
  · obtain ⟨hstates, hforks, hcursors⟩ := heff.sound (hw.states p) hf
    exact ⟨d, w', hact, heff, hw.confined hconf hstates, hconf.issued, hforks, hcursors⟩

/-- A token that is split gets through.  There is a new fork, and every branch carries its frame. -/
theorem split_spec {w : Workspace} {targets : List String} (hcourse : r.course = .split targets)
    (hw : w.Sound) (hp : r.instanceId = some p)
    (hf : ∀ f ∈ r.frames, f.Carried (w.store.states p)) :
    ∃ (d : Decision) (w' : Workspace) (generation : Nat), r.activate w = .ok d w' ∧ w'.Sound ∧
      w'.supply.issued = w.supply.issued + 1 ∧
      w'.store.states p =
        w.store.states p ++ [r.newFork p targets ⟨w.supply.issued + 1⟩ generation] ∧
      (∀ c ∈ d.cursors r.frames, ∀ f ∈ c.frames, f.Carried (w'.store.states p)) ∧
      d.forkFrame = some (r.newFork p targets ⟨w.supply.issued + 1⟩ generation).frame ∧
      (d.cursors r.frames).map Cursor.frames = (List.range targets.length).map fun b =>
        r.frames ++ [(r.newFork p targets ⟨w.supply.issued + 1⟩ generation).frame.forBranch
          (word32 b)] := by
  obtain ⟨d, w', hact, heff, hsound, -, -, hcursors⟩ :=
    activate_accepted hw hp hf fun e hrefuse => by
      rw [hcourse] at hrefuse
      cases hrefuse
  obtain ⟨generation, hissued, hd, hstates⟩ := heff.of_split hcourse
  refine ⟨d, w', generation, hact, hsound, hissued, hstates, hcursors, by rw [hd]; rfl, ?_⟩
  rw [hd]
  refine List.ext_getElem (by simp [Decision.cursors, Decision.forked]) fun i h₁ h₂ => ?_
  simp [Decision.cursors, Decision.forked, Decision.to]

end Request

end ProcessEngine

import ProcessEngine.Proofs.Gateway.Join

/-!
# What an activation does

`Request.course` says what a gateway is going to do with a token, as far as its kind, its flows and
the variables settle it: refuse the token, pass it on, split it, or have it meet others at a join.
`Request.Effect` says what each course comes to on the states of the instance.  `activate_spec`
shows that in a sound workspace an activation either is refused and leaves the store alone, or has
such an effect.  Everything that is proved about gateways later starts from here.
-/

namespace ProcessEngine

/-- What a gateway is going to do with a token: refuse it, pass it on, split it into a branch for
each target, or have it meet others at a join and then go on to the targets. -/
inductive Course where
  | refuse (error : EngineError)
  | pass (decision : Decision)
  | split (targets : List String)
  | meet (flows : Option Nat) (targets : List String)
deriving DecidableEq

namespace Decision

/-- The token waits at a join. -/
def waiting (j : GatewayState) : Decision :=
  { Decision.to [] with
    needsWait := true
    isJoin := true
    activeBranches := some j.activeBranches
    stateId := some j.id }

/-- The token leaves a released join. -/
def released (j : GatewayState) (targets : List String) : Decision :=
  { Decision.to targets with
    isJoin := true
    activeBranches := some j.activeBranches
    continueFrames := some j.handedOn
    stateId := some j.id }

/-- The token leaves by the branches of a new fork. -/
def forked (d : Decision) (targets : List String) (fork : GatewayState) : Decision :=
  { d with
    next := targets
    isFork := true
    activeBranches := some (word32 targets.length)
    stateId := some fork.id
    forkFrame := some fork.frame }

end Decision

namespace Request

/-! ## Courses -/

/-- The course of a token that goes on to all of the targets: several make a fork. -/
def courseTo (targets : List String) : Course :=
  if 1 < targets.length then .split targets else .pass (.to targets)

/-- The course of a token at the gateway. -/
def course (r : Request) : Course :=
  match r.gateway.kind with
  | .exclusive =>
    match r.gateway.exclusiveChoice r.outgoing r.vars with
    | some flow => .pass (.to [flow.target])
    | none => .refuse (.noSatisfiedFlow r.gateway.id)
  | .parallel =>
    if r.outgoing.isEmpty then .refuse (.noOutgoingFlow r.gateway.id)
    else
      match r.incoming with
      | some n =>
        if 1 < n then .meet (some (word32 n)) (r.outgoing.map Flow.target)
        else courseTo (r.outgoing.map Flow.target)
      | none => courseTo (r.outgoing.map Flow.target)
  | .inclusive =>
    if r.forksInclusively then
      let targets := (r.gateway.inclusiveChoice r.outgoing r.vars).map Flow.target
      if targets.isEmpty then .refuse (.noSatisfiedFlow r.gateway.id) else .split targets
    else
      match r.outgoing.head? with
      | none => .refuse (.noOutgoingFlow r.gateway.id)
      | some flow =>
        if r.incoming.any (· ≤ 1) then
          .pass { Decision.to [flow.target] with isJoin := true, activeBranches := some 1 }
        else .meet none [flow.target]
  | .eventBased =>
    if r.outgoing.isEmpty then .refuse (.noOutgoingFlow r.gateway.id)
    else .pass { Decision.to (r.outgoing.map Flow.target) with needsWait := true }

/-- What is reported while the gateway tries its guarded flows. -/
def guardEvents (r : Request) : List Event :=
  match r.gateway.kind with
  | .exclusive => r.gateway.exclusiveEvents r.outgoing r.vars
  | .inclusive =>
    if r.forksInclusively then r.gateway.inclusiveEvents r.outgoing r.vars else []
  | .parallel | .eventBased => []

/-- The instance, the execution and the frames do not matter to the course. -/
lemma course_congr {r s : Request} (hg : r.gateway = s.gateway) (ho : r.outgoing = s.outgoing)
    (hv : r.vars = s.vars) (hi : r.incoming = s.incoming) : r.course = s.course := by
  unfold course forksInclusively
  rw [hg, ho, hv, hi]

lemma guardEvents_congr {r s : Request} (hg : r.gateway = s.gateway)
    (ho : r.outgoing = s.outgoing) (hv : r.vars = s.vars) : r.guardEvents = s.guardEvents := by
  unfold guardEvents forksInclusively
  rw [hg, ho, hv]

lemma isEvaluation_guardEvents {f : Flow} {vars : Variables} :
    ∀ e ∈ f.guardEvents vars, e.isEvaluation = true := by
  intro e he
  rw [Flow.guardEvents] at he
  split at he
  · simp at he
  · rcases List.mem_cons.1 he with rfl | he
    · rfl
    · rw [List.mem_singleton.1 he]
      split <;> rfl

/-- Gateways report nothing but evaluations. -/
lemma guardEvents_evaluations (r : Request) : ∀ e ∈ r.guardEvents, e.isEvaluation = true := by
  intro e he
  rw [guardEvents] at he
  split at he
  · obtain ⟨f, -, hf⟩ := List.mem_flatMap.1 he
    exact isEvaluation_guardEvents e hf
  · split at he
    · obtain ⟨f, -, hf⟩ := List.mem_flatMap.1 he
      exact isEvaluation_guardEvents e hf
    · simp at he
  · simp at he
  · simp at he

/-! ## Effects -/

/-- The state of a fork that the gateway makes. -/
def newFork (r : Request) (p : String) (targets : List String) (id : Uid) (generation : Nat) :
    GatewayState :=
  .ofFork ⟨p, r.executionId, r.gateway.id, targets⟩ id generation

/-- The effect of an activation: by the identifiers issued before and the states of the instance
before, the decision, the identifiers issued then and the states then. -/
inductive Effect (r : Request) (p : String) (issued : Nat) (states : List GatewayState) :
    Decision → Nat → List GatewayState → Prop
  | pass {d : Decision} (hcourse : r.course = .pass d) : Effect r p issued states d issued states
  | split {targets : List String} (generation : Nat) (hcourse : r.course = .split targets) :
      Effect r p issued states
        ((Decision.to []).forked targets (r.newFork p targets ⟨issued + 1⟩ generation))
        (issued + 1) (states ++ [r.newFork p targets ⟨issued + 1⟩ generation])
  | wait {flows : Option Nat} {targets : List String} (generation : Nat)
      (hcourse : r.course = .meet flows targets)
      (hfull : (r.arrival p flows states ⟨issued + 1⟩ generation).1.isFull = false) :
      Effect r p issued states
        (.waiting (r.arrival p flows states ⟨issued + 1⟩ generation).1)
        (issued + 1) (r.arrivalStates p flows states ⟨issued + 1⟩ generation)
  | release {flows : Option Nat} {targets : List String} (generation : Nat)
      (hcourse : r.course = .meet flows targets)
      (hfull : (r.arrival p flows states ⟨issued + 1⟩ generation).1.isFull = true)
      (hone : ¬1 < targets.length) :
      Effect r p issued states
        (.released (r.arrival p flows states ⟨issued + 1⟩ generation).1 targets)
        (issued + 1) (r.arrivalStates p flows states ⟨issued + 1⟩ generation)
  | releaseSplit {flows : Option Nat} {targets : List String} (generation forkGeneration : Nat)
      (hcourse : r.course = .meet flows targets)
      (hfull : (r.arrival p flows states ⟨issued + 1⟩ generation).1.isFull = true)
      (hmany : 1 < targets.length) :
      Effect r p issued states
        ((Decision.released (r.arrival p flows states ⟨issued + 1⟩ generation).1 targets).forked
          targets (r.newFork p targets ⟨issued + 2⟩ forkGeneration))
        (issued + 2)
        (r.arrivalStates p flows states ⟨issued + 1⟩ generation ++
          [r.newFork p targets ⟨issued + 2⟩ forkGeneration])

/-! ## The specification -/

variable {r : Request} {p : String} {w : Workspace}

lemma recordFork_spec {issued : Nat} (hk : w.store.Keyed issued) (hi : issued ≤ w.supply.issued)
    (hp : r.instanceId = some p) (targets : List String) :
    ∃ generation s',
      r.recordFork targets w =
        .ok (some (r.newFork p targets w.supply.uid.1 generation).frame)
          { w with store := s', supply := w.supply.uid.2 } ∧
      s'.Keyed w.supply.uid.2.issued ∧
      ∀ q, s'.states q = if q = p then
        w.store.states q ++ [r.newFork p targets w.supply.uid.1 generation]
        else w.store.states q := by
  have hfresh : w.supply.issued < w.supply.uid.1.value := Nat.lt_succ_self _
  set new : NewFork := ⟨p, r.executionId, r.gateway.id, targets⟩
  refine ⟨w.store.generation p r.gateway.id + 1, (w.store.createFork new w.supply.uid.1).2, ?_,
    (hk.mono hi).createFork new hfresh, fun q => ?_⟩
  · rw [recordFork, hp]
    change (Action.freshUid >>= _) w = _
    rw [Action.bind_of_ok (Action.freshUid_apply w), Action.bind_of_ok (Action.onStore_of_ok rfl)]
    rfl
  · rw [Store.states_createFork (hk.mono hi) new hfresh q]
    by_cases hq : q = p
    · rw [if_pos hq, if_pos hq.symm]
      rfl
    · rw [if_neg hq, if_neg (Ne.symm hq), List.append_nil]

lemma splitAll_one (d : Decision) (hone : ¬1 < (r.outgoing.map Flow.target).length) :
    r.splitAll d w = .ok { d with next := r.outgoing.map Flow.target } w := by
  rw [splitAll, if_neg hone]
  rfl

lemma splitAll_many {issued : Nat} (hk : w.store.Keyed issued) (hi : issued ≤ w.supply.issued)
    (hp : r.instanceId = some p) (d : Decision)
    (hmany : 1 < (r.outgoing.map Flow.target).length) :
    ∃ generation s',
      r.splitAll d w =
        .ok (d.forked (r.outgoing.map Flow.target)
            (r.newFork p (r.outgoing.map Flow.target) w.supply.uid.1 generation))
          { w with store := s', supply := w.supply.uid.2 } ∧
      s'.Keyed w.supply.uid.2.issued ∧
      ∀ q, s'.states q = if q = p then
        w.store.states q ++ [r.newFork p (r.outgoing.map Flow.target) w.supply.uid.1 generation]
        else w.store.states q := by
  obtain ⟨generation, s', heq, hkeyed, hstates⟩ := recordFork_spec hk hi hp
    (r.outgoing.map Flow.target)
  refine ⟨generation, s', ?_, hkeyed, hstates⟩
  rw [splitAll, if_pos hmany, Action.bind_of_ok heq]
  rfl

/-- The action is refused and leaves the store alone, or has an effect that befits the course. -/
def Performs (r : Request) (p : String) (w : Workspace) (action : Action Decision) : Prop :=
  (∃ e, r.course = .refuse e ∧
    action w = .error e { w with bus := w.bus.publishAll r.guardEvents }) ∨
  ∃ d w', action w = .ok d w' ∧
    r.Effect p w.supply.issued (w.store.states p) d w'.supply.issued (w'.store.states p) ∧
    Confined p r.guardEvents w w'

lemma Performs.of_pass {action : Action Decision} {d : Decision} (hw : w.Sound)
    (hcourse : r.course = .pass d)
    (haction : action w = .ok d { w with bus := w.bus.publishAll r.guardEvents }) :
    r.Performs p w action :=
  .inr ⟨d, _, haction, .pass hcourse, hw.keyed, fun _ _ => rfl, Nat.le_refl _, rfl,
    r.guardEvents_evaluations, rfl⟩

lemma exclusive_spec (hw : w.Sound) (hkind : r.gateway.kind = .exclusive) :
    r.Performs p w r.exclusive := by
  have hevents : r.guardEvents = r.gateway.exclusiveEvents r.outgoing r.vars := by
    rw [guardEvents, hkind]
  have hpublish := Action.publish_apply (r.gateway.exclusiveEvents r.outgoing r.vars) w
  cases hchoice : r.gateway.exclusiveChoice r.outgoing r.vars with
  | none =>
    refine .inl ⟨.noSatisfiedFlow r.gateway.id, by rw [course, hkind]; simp [hchoice], ?_⟩
    rw [exclusive, Action.bind_of_ok hpublish, hchoice, hevents]
    rfl
  | some flow =>
    refine .of_pass hw (d := .to [flow.target]) (by rw [course, hkind]; simp [hchoice]) ?_
    rw [exclusive, Action.bind_of_ok hpublish, hchoice, hevents]
    rfl

lemma eventBased_spec (hw : w.Sound) (hkind : r.gateway.kind = .eventBased) :
    r.Performs p w r.eventBased := by
  have hevents : r.guardEvents = [] := by rw [guardEvents, hkind]
  by_cases hnone : r.outgoing.isEmpty = true
  · refine .inl ⟨.noOutgoingFlow r.gateway.id, by rw [course, hkind]; simp [hnone], ?_⟩
    rw [eventBased, if_pos hnone, hevents]
    rfl
  · refine .of_pass hw (d := { Decision.to (r.outgoing.map Flow.target) with needsWait := true })
      (by rw [course, hkind]; exact if_neg hnone) ?_
    rw [eventBased, if_neg hnone, hevents]
    rfl

lemma splitAll_spec (hw : w.Sound) (hp : r.instanceId = some p)
    (hcourse : r.course = courseTo (r.outgoing.map Flow.target)) (hevents : r.guardEvents = []) :
    r.Performs p w (r.splitAll (.to [])) := by
  by_cases hmany : 1 < (r.outgoing.map Flow.target).length
  · obtain ⟨generation, s', heq, hkeyed, hstates⟩ :=
      splitAll_many hw.keyed (Nat.le_refl _) hp (.to []) hmany
    refine .inr ⟨_, _, heq, ?_, hkeyed, fun q hq => (hstates q).trans (if_neg hq),
      Nat.le_succ _, rfl, r.guardEvents_evaluations, ?_⟩
    · rw [show s'.states p = _ from (hstates p).trans (if_pos rfl)]
      exact .split generation (hcourse.trans (if_pos hmany))
    · rw [hevents]
      rfl
  · refine .of_pass hw (hcourse.trans (if_neg hmany)) ?_
    rw [splitAll_one _ hmany, hevents]
    rfl

/-- A parallel gateway with several incoming flows: the token meets the others, and is let out by
every outgoing flow when it is the last one. -/
lemma meet_spec (hw : w.Sound) (hp : r.instanceId = some p)
    (hf : ∀ f ∈ r.frames, f.Sound (w.store.states p)) (hmany : r.incoming.any (· ≤ 1) = false)
    {flows : Option Nat} (hcourse : r.course = .meet flows (r.outgoing.map Flow.target))
    (hevents : r.guardEvents = []) :
    r.Performs p w (do
      let arrival ← r.join flows
      let d : Decision := { Decision.to [] with
        isJoin := true
        continueFrames := arrival.continueFrames
        stateId := arrival.stateId
        activeBranches := some arrival.activeBranches }
      if arrival.released then r.splitAll d else return { d with needsWait := true }) := by
  obtain ⟨generation, s₁, -, hjoin, hkeyed₁, hstates₁⟩ := join_spec hw hp hf hmany flows
  have hbus : w.bus = w.bus.publishAll r.guardEvents := by
    rw [hevents]
    rfl
  have hlist₁ := (hstates₁ p).trans (if_pos rfl)
  set j := (r.arrival p flows (w.store.states p) w.supply.uid.1 generation).1 with hj
  rcases Bool.eq_false_or_eq_true j.isFull with hfull | hfull
  · have hout : j.outcome = ⟨true, j.activeBranches, some j.id, some j.handedOn⟩ := by
      simp [GatewayState.outcome, hfull]
    rw [hout] at hjoin
    by_cases hseveral : 1 < (r.outgoing.map Flow.target).length
    · set d := Decision.released j (r.outgoing.map Flow.target)
      obtain ⟨forkGeneration, s', heq, hkeyed, hstates⟩ :=
        splitAll_many (w := { w with store := s₁, supply := w.supply.uid.2 }) hkeyed₁
          (Nat.le_refl _) hp { d with next := [] } hseveral
      refine .inr ⟨_, _, (Action.bind_of_ok hjoin _).trans heq, ?_, hkeyed, fun q hq => ?_,
        Nat.le_add_right _ 2, rfl, r.guardEvents_evaluations, hbus⟩
      · rw [show s'.states p = _ from (hstates p).trans (if_pos rfl), hlist₁]
        exact .releaseSplit generation forkGeneration hcourse hfull hseveral
      · rw [show s'.states q = _ from (hstates q).trans (if_neg hq), hstates₁ q, if_neg hq]
    · refine .inr ⟨_, _, (Action.bind_of_ok hjoin _).trans (splitAll_one _ hseveral), ?_, hkeyed₁,
        fun q hq => (hstates₁ q).trans (if_neg hq), Nat.le_succ _, rfl, r.guardEvents_evaluations,
        hbus⟩
      rw [show s₁.states p = _ from hlist₁]
      exact .release generation hcourse hfull hseveral
  · have hout : j.outcome = ⟨false, j.activeBranches, some j.id, none⟩ := by
      simp [GatewayState.outcome, hfull]
    rw [hout] at hjoin
    refine .inr ⟨.waiting j, _, Action.bind_of_ok hjoin _, ?_, hkeyed₁,
      fun q hq => (hstates₁ q).trans (if_neg hq), Nat.le_succ _, rfl, r.guardEvents_evaluations,
      hbus⟩
    rw [show s₁.states p = _ from hlist₁]
    exact .wait generation hcourse hfull

lemma parallel_spec (hw : w.Sound) (hkind : r.gateway.kind = .parallel) (hp : r.instanceId = some p)
    (hf : ∀ f ∈ r.frames, f.Sound (w.store.states p)) : r.Performs p w r.parallel := by
  have hevents : r.guardEvents = [] := by rw [guardEvents, hkind]
  have hcourse : r.course = if r.outgoing.isEmpty then .refuse (.noOutgoingFlow r.gateway.id)
      else match r.incoming with
        | some n =>
          if 1 < n then .meet (some (word32 n)) (r.outgoing.map Flow.target)
          else courseTo (r.outgoing.map Flow.target)
        | none => courseTo (r.outgoing.map Flow.target) := by
    rw [course, hkind]
  by_cases hnone : r.outgoing.isEmpty = true
  · refine .inl ⟨.noOutgoingFlow r.gateway.id, hcourse.trans (if_pos hnone), ?_⟩
    rw [parallel, if_pos hnone, hevents]
    rfl
  · rw [if_neg hnone] at hcourse
    rw [parallel, if_neg hnone]
    cases hincoming : r.incoming with
    | none =>
      rw [hincoming] at hcourse
      exact splitAll_spec hw hp hcourse hevents
    | some n =>
      rw [hincoming] at hcourse
      simp only at hcourse ⊢
      split_ifs at hcourse ⊢ with hn
      · exact meet_spec hw hp hf (by simpa [hincoming] using hn) hcourse hevents
      · exact splitAll_spec hw hp hcourse hevents

lemma inclusiveFork_spec (hw : w.Sound) (hkind : r.gateway.kind = .inclusive)
    (hp : r.instanceId = some p) (hforks : r.forksInclusively = true) :
    r.Performs p w r.inclusiveFork := by
  have hevents : r.guardEvents = r.gateway.inclusiveEvents r.outgoing r.vars := by
    rw [guardEvents, hkind]
    exact if_pos hforks
  set targets := (r.gateway.inclusiveChoice r.outgoing r.vars).map Flow.target with htargets
  have hcourse : r.course = if targets.isEmpty then .refuse (.noSatisfiedFlow r.gateway.id)
      else .split targets := by
    rw [course, hkind]
    exact if_pos hforks
  have hpublish := Action.publish_apply (r.gateway.inclusiveEvents r.outgoing r.vars) w
  by_cases hnone : targets.isEmpty = true
  · refine .inl ⟨.noSatisfiedFlow r.gateway.id, hcourse.trans (if_pos hnone), ?_⟩
    rw [inclusiveFork, Action.bind_of_ok hpublish, ← htargets, hevents]
    simp only [if_pos hnone]
    rfl
  · obtain ⟨generation, s', heq, hkeyed, hstates⟩ := recordFork_spec
      (w := { w with bus := w.bus.publishAll r.guardEvents }) hw.keyed (Nat.le_refl _) hp targets
    refine .inr ⟨(Decision.to []).forked targets (r.newFork p targets w.supply.uid.1 generation),
      ⟨s', w.bus.publishAll r.guardEvents, w.supply.uid.2⟩, ?_, ?_, hkeyed,
      fun q hq => (hstates q).trans (if_neg hq), Nat.le_succ _, rfl, r.guardEvents_evaluations,
      rfl⟩
    · rw [inclusiveFork, Action.bind_of_ok hpublish, ← htargets, ← hevents]
      simp only [if_neg hnone]
      exact Action.bind_of_ok heq _
    · rw [show s'.states p = _ from (hstates p).trans (if_pos rfl)]
      exact .split generation (hcourse.trans (if_neg hnone))

lemma inclusiveJoin_spec (hw : w.Sound) (hkind : r.gateway.kind = .inclusive)
    (hp : r.instanceId = some p) (hf : ∀ f ∈ r.frames, f.Sound (w.store.states p))
    (hforks : r.forksInclusively = false) : r.Performs p w r.inclusiveJoin := by
  have hforks' : ¬r.forksInclusively = true := by simp [hforks]
  have hevents : r.guardEvents = [] := by
    rw [guardEvents, hkind]
    exact if_neg hforks'
  have hcourse : r.course = match r.outgoing.head? with
      | none => .refuse (.noOutgoingFlow r.gateway.id)
      | some flow =>
        if r.incoming.any (· ≤ 1) then
          .pass { Decision.to [flow.target] with isJoin := true, activeBranches := some 1 }
        else .meet none [flow.target] := by
    rw [course, hkind]
    exact if_neg hforks'
  cases hhead : r.outgoing.head? with
  | none =>
    rw [hhead] at hcourse
    refine .inl ⟨.noOutgoingFlow r.gateway.id, hcourse, ?_⟩
    rw [inclusiveJoin, hhead, hevents]
    rfl
  | some flow =>
    rw [hhead] at hcourse
    simp only at hcourse
    rw [inclusiveJoin, hhead, Action.orFail_some, pure_bind]
    split_ifs at hcourse with hmany
    · refine .of_pass hw hcourse ?_
      have hjoin : r.join none w = .ok ⟨true, 1, none, none⟩ w := by
        rw [join, hp, Action.orFail_some, pure_bind, if_pos hmany]
        rfl
      rw [Action.bind_of_ok hjoin, hevents]
      rfl
    · obtain ⟨generation, s₁, -, hjoin, hkeyed, hstates⟩ :=
        join_spec hw hp hf (by simpa using hmany) none
      have hlist := (hstates p).trans (if_pos rfl)
      have hbus : w.bus = w.bus.publishAll r.guardEvents := by
        rw [hevents]
        rfl
      set j := (r.arrival p none (w.store.states p) w.supply.uid.1 generation).1 with hj
      rcases Bool.eq_false_or_eq_true j.isFull with hfull | hfull
      · have hout : j.outcome = ⟨true, j.activeBranches, some j.id, some j.handedOn⟩ := by
          simp [GatewayState.outcome, hfull]
        rw [hout] at hjoin
        refine .inr ⟨.released j [flow.target], _, Action.bind_of_ok hjoin _, ?_, hkeyed,
          fun q hq => (hstates q).trans (if_neg hq), Nat.le_succ _, rfl, r.guardEvents_evaluations,
          hbus⟩
        rw [show s₁.states p = _ from hlist]
        exact .release generation hcourse hfull (by simp)
      · have hout : j.outcome = ⟨false, j.activeBranches, some j.id, none⟩ := by
          simp [GatewayState.outcome, hfull]
        rw [hout] at hjoin
        refine .inr ⟨.waiting j, _, Action.bind_of_ok hjoin _, ?_, hkeyed,
          fun q hq => (hstates q).trans (if_neg hq), Nat.le_succ _, rfl, r.guardEvents_evaluations,
          hbus⟩
        rw [show s₁.states p = _ from hlist]
        exact .wait generation hcourse hfull

/-- In a sound workspace a token with sound frames is refused by a gateway and nothing changes in
the store, or the activation has the effect of its course. -/
theorem activate_spec (hw : w.Sound) (hp : r.instanceId = some p)
    (hf : ∀ f ∈ r.frames, f.Sound (w.store.states p)) : r.Performs p w r.activate := by
  rw [activate]
  cases hkind : r.gateway.kind with
  | exclusive => exact exclusive_spec hw hkind
  | parallel => exact parallel_spec hw hkind hp hf
  | eventBased => exact eventBased_spec hw hkind
  | inclusive =>
    cases hforks : r.forksInclusively with
    | true => exact inclusiveFork_spec hw hkind hp hforks
    | false => exact inclusiveJoin_spec hw hkind hp hf hforks

end Request

end ProcessEngine

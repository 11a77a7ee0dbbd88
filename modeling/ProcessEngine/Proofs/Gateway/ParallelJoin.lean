import ProcessEngine.Proofs.Gateway.ActiveJoins

/-!
# Arrivals at a parallel join

A parallel join is told apart by the outermost fork around the token.  `Request.Arrives.spec` says
what an arrival there does to the active join of that key: it is counted on it, or opens it; while
arrivals are missing the token waits and the join stays the active one of the key, and the last
arrival is released with the frames that have come together, less those that are closed.
-/

namespace ProcessEngine

namespace Decision

/-- The token waits at a join. -/
structure Waits (d : Decision) : Prop where
  needsWait : d.needsWait = true
  isJoin : d.isJoin = true
  next : d.next = []

/-- A join lets the token go on with the given frames. -/
structure Releases (d : Decision) (frames : List Frame) : Prop where
  needsWait : d.needsWait = false
  isJoin : d.isJoin = true
  next : d.next ≠ []
  continueFrames : d.continueFrames = some frames

end Decision

/-- Exchanging the first state that a predicate accepts for another one that it accepts. -/
lemma find?_exchanged {accepts : GatewayState → Bool} {states : List GatewayState}
    (hd : (states.map GatewayState.id).Nodup) {o j : GatewayState}
    (hfind : states.find? accepts = some o) (hj : accepts j = true) (hid : j.id = o.id) :
    (exchanged j states).find? accepts = some j := by
  induction states with
  | nil => cases hfind
  | cons s rest ih =>
    rw [List.map_cons, List.nodup_cons] at hd
    rw [exchanged, List.map_cons, ← exchanged]
    rw [List.find?_cons] at hfind
    split at hfind
    · obtain rfl := Option.some.inj hfind
      rw [if_pos hid.symm, List.find?_cons, hj]
    · next hs =>
      have hmem := List.mem_of_find?_eq_some hfind
      have hne : s.id ≠ j.id := fun heq => hd.1 (heq ▸ hid ▸ List.mem_map_of_mem hmem)
      rw [if_neg hne, List.find?_cons, hs]
      exact ih hd.2 hfind

/-- The active join that a search finds is the first one there is. -/
lemma find?_isJoinOf (p gateway : String) (key : Option Uid) (states : List GatewayState) :
    states.find? (Store.isJoinOf p gateway key) = (activeJoins p gateway key states).head? :=
  (List.head?_filter ..).symm

namespace Request

/-- The active joins of a gateway are affected only by tokens that come to it. -/
lemma Effect.find?_elsewhere {r : Request} {p gateway : String} {issued issued' : Nat}
    {key : Option Uid} {states states' : List GatewayState} {d : Decision}
    (heff : r.Effect p issued states d issued' states') (h : SoundStates p issued states)
    (hf : ∀ f ∈ r.frames, f.Sound states) (hne : r.gateway.id ≠ gateway) :
    states'.find? (Store.isJoinOf p gateway key) = states.find? (Store.isJoinOf p gateway key) := by
  rw [find?_isJoinOf, find?_isJoinOf,
    heff.activeJoins_elsewhere h hf fun flows targets hmeet => .inl hne]

/-- The token comes to a parallel gateway with several incoming flows. -/
structure Arrives (r : Request) (p gateway : String) (n : Nat) (frames : List Frame) : Prop where
  kind : r.gateway.kind = .parallel
  gateway : r.gateway.id = gateway
  instanceId : r.instanceId = some p
  incoming : r.incoming = some n
  outgoing : r.outgoing ≠ []
  frames : r.frames = frames

variable {r : Request} {p gateway : String} {n issued : Nat} {frames : List Frame}
  {states : List GatewayState} {w : Workspace}

lemma Arrives.course (hr : r.Arrives p gateway n frames) (hn : 2 ≤ n) :
    r.course = .meet (some (word32 n)) (r.outgoing.map Flow.target) := by
  have hsome : ¬r.outgoing.isEmpty = true := by simpa using hr.outgoing
  rw [Request.course, hr.kind]
  simp only [if_neg hsome, hr.incoming]
  exact if_pos hn

lemma Arrives.key (hr : r.Arrives p gateway n frames) (hn : n < 4294967296)
    (states : List GatewayState) :
    r.keyAmong states (some (word32 n)) = ⟨n, frames.head?.map Frame.forkId, none⟩ := by
  rw [keyAmong, hr.frames, word32, Nat.mod_eq_of_lt hn]

/-- A join that still waits after an arrival is the active one of its key. -/
lemma find?_arrival {flows : Option Nat} {id : Uid} {generation : Nat}
    (h : SoundStates p issued states) (hf : ∀ f ∈ r.frames, f.Sound states)
    (hid : issued < id.value)
    (hopen : (r.arrival p flows states id generation).1.isFull = false) :
    (r.arrival p flows states id generation).2.find?
        (Store.isJoinOf p r.gateway.id (r.keyAmong states flows).correlationId) =
      some (r.arrival p flows states id generation).1 := by
  obtain ⟨hsound, hmem, hk, -⟩ := arrival_sound flows h hf hid generation
  obtain ⟨hgateway, hcorrelation⟩ := arrival_key r p flows states id generation
  have hactive : (r.arrival p flows states id generation).1.isActive = true := by
    have hjoin := hsound.joins _ hmem hk
    have hne := of_decide_eq_false hopen
    have hbounded := hjoin.bounded
    exact hjoin.active.2 (by omega)
  have haccepted : Store.isJoinOf p r.gateway.id (r.keyAmong states flows).correlationId
      (r.arrival p flows states id generation).1 = true := by
    simp [Store.isJoinOf, hk, hactive, hgateway, hcorrelation, hsound.owned _ hmem]
  cases hfind : states.find?
      (Store.isJoinOf p r.gateway.id (r.keyAmong states flows).correlationId) with
  | some o =>
    rw [arrival, arrivalAmong, hfind] at haccepted ⊢
    exact find?_exchanged h.distinct hfind haccepted rfl
  | none =>
    rw [arrival, arrivalAmong, hfind] at haccepted ⊢
    rw [List.find?_append, hfind, Option.none_or, List.find?_cons, haccepted]

/-- What an arrival at a parallel join does to the active join of its key. -/
lemma Arrives.effect (hr : r.Arrives p gateway n frames) (hn : 2 ≤ n) (hlt : n < 4294967296)
    (h : SoundStates p issued states) (hf : ∀ f ∈ frames, f.Sound states) {d : Decision}
    {issued' : Nat} {states' : List GatewayState}
    (heff : r.Effect p issued states d issued' states') :
    ∃ j, ((states.find? (Store.isJoinOf p gateway (frames.head?.map Frame.forkId)) = none ∧
          j.completedBranches = 1 ∧ j.activeBranches = n ∧ j.arrivedFrames = some frames) ∨
        ∃ o, states.find? (Store.isJoinOf p gateway (frames.head?.map Frame.forkId)) = some o ∧
          j = o.arrived frames) ∧
      (j.isFull = false → d.Waits ∧
        states'.find? (Store.isJoinOf p gateway (frames.head?.map Frame.forkId)) = some j) ∧
      (j.isFull = true → d.Releases j.handedOn) := by
  have hcourse := hr.course hn
  have hkey := hr.key hlt states
  have htargets : r.outgoing.map Flow.target ≠ [] := by simpa using hr.outgoing
  have hframes : ∀ f ∈ r.frames, f.Sound states := by rwa [hr.frames]
  have hfresh : issued < (Uid.mk (issued + 1)).value := Nat.lt_succ_self _
  have hjoin : ∀ generation,
      (states.find? (Store.isJoinOf p gateway (frames.head?.map Frame.forkId)) = none ∧
        (r.arrival p (some (word32 n)) states ⟨issued + 1⟩ generation).1.completedBranches = 1 ∧
        (r.arrival p (some (word32 n)) states ⟨issued + 1⟩ generation).1.activeBranches = n ∧
        (r.arrival p (some (word32 n)) states ⟨issued + 1⟩ generation).1.arrivedFrames =
          some frames) ∨
      ∃ o, states.find? (Store.isJoinOf p gateway (frames.head?.map Frame.forkId)) = some o ∧
        (r.arrival p (some (word32 n)) states ⟨issued + 1⟩ generation).1 =
          o.arrived frames := by
    intro generation
    rw [arrival, arrivalAmong, hkey, hr.gateway, hr.frames]
    cases hfind : states.find? (Store.isJoinOf p gateway (frames.head?.map Frame.forkId)) with
    | none => exact .inl ⟨rfl, rfl, Nat.max_eq_left (show 1 ≤ n by omega), rfl⟩
    | some o => exact .inr ⟨o, rfl, rfl⟩
  cases heff with
  | pass hpass => rw [hcourse] at hpass; cases hpass
  | split generation hsplit => rw [hcourse] at hsplit; cases hsplit
  | wait generation hmeet hfull =>
    rw [hcourse] at hmeet
    cases hmeet
    refine ⟨_, hjoin generation, fun _ => ⟨⟨rfl, rfl, rfl⟩, ?_⟩, fun hfull' => ?_⟩
    · have hfind := find?_arrival h hframes hfresh hfull
      rw [hkey, hr.gateway] at hfind
      rw [arrivalStates]
      simp only [hfull, Bool.false_eq_true, if_false]
      exact hfind
    · rw [hfull] at hfull'
      cases hfull'
  | release generation hmeet hfull =>
    rw [hcourse] at hmeet
    cases hmeet
    refine ⟨_, hjoin generation, fun hopen => ?_, fun _ => ⟨rfl, rfl, htargets, rfl⟩⟩
    rw [hfull] at hopen
    cases hopen
  | releaseSplit generation forkGeneration hmeet hfull =>
    rw [hcourse] at hmeet
    cases hmeet
    refine ⟨_, hjoin generation, fun hopen => ?_, fun _ => ⟨rfl, rfl, htargets, rfl⟩⟩
    rw [hfull] at hopen
    cases hopen

/-- An arrival at a parallel join never fails.  It is counted at the active join of its key. -/
theorem Arrives.spec (hr : r.Arrives p gateway n frames) (hn : 2 ≤ n) (hlt : n < 4294967296)
    (hw : w.Sound) (hf : ∀ f ∈ frames, f.Carried (w.store.states p)) :
    ∃ d w' j, r.activate w = .ok d w' ∧ w'.Sound ∧ w.supply.issued ≤ w'.supply.issued ∧
      ForksKept (w.store.states p) (w'.store.states p) ∧
      ((w.store.activeJoin? p gateway (frames.head?.map Frame.forkId) = none ∧
          j.completedBranches = 1 ∧ j.activeBranches = n ∧ j.arrivedFrames = some frames) ∨
        ∃ o, w.store.activeJoin? p gateway (frames.head?.map Frame.forkId) = some o ∧
          j = o.arrived frames) ∧
      (j.isFull = false → d.Waits ∧
        w'.store.activeJoin? p gateway (frames.head?.map Frame.forkId) = some j) ∧
      (j.isFull = true → d.Releases j.handedOn) := by
  have hframes : ∀ f ∈ r.frames, f.Carried (w.store.states p) := by rwa [hr.frames]
  obtain ⟨d, w', hact, heff, hsound, hissued, hforks, -⟩ :=
    activate_accepted hw hr.instanceId hframes fun e hrefuse => by
      rw [hr.course hn] at hrefuse
      cases hrefuse
  obtain ⟨j, hjoin, hopen, hfull⟩ := hr.effect hn hlt (hw.states p)
    (fun f hmem => (hf f hmem).toSound) heff
  simp only [Store.activeJoin?_eq]
  exact ⟨d, w', j, hact, hsound, hissued, hforks, hjoin, hopen, hfull⟩

end Request

end ProcessEngine

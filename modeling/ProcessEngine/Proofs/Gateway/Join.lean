import ProcessEngine.Gateway.Activation
import ProcessEngine.Proofs.Gateway.Sound

/-!
# Arrivals at joins

In a sound workspace an arrival of a token with sound frames never fails.  `join_spec` says what it
comes to: the join of the token's key counts it, and if it is the last one the join is released, the
forks that it closes become inactive, and the frames that are handed on are the merged ones of the
forks that stay open.

An arrival is counted first and concluded then (`join_concludes`).  The forks that a released join
closes become inactive one after the other (`completeAll_eq`); the first one that is not stored
stops that (`completeAll_missing`), which does not happen to sound frames.
-/

namespace ProcessEngine

namespace GatewayState

/-- The frames that all arrivals at a join share. -/
def shared (j : GatewayState) : List Frame := j.arrivedFrames.getD []

/-- Whether as many tokens have arrived as the join waits for. -/
def isFull (j : GatewayState) : Bool := decide (j.completedBranches = j.activeBranches)

/-- The forks that a released join closes: the one that it is sized by, if any, and those of which
every branch is among the arrivals. -/
def closing (j : GatewayState) (sizedBy : Option Uid) : List Uid :=
  sizedBy.toList ++ (j.shared.filter (·.isClosed)).map Frame.forkId

/-- The frames that a released join hands on. -/
def handedOn (j : GatewayState) : List Frame := j.shared.filter (!·.isClosed)

/-- What the arrival that brought a join into its present state comes to. -/
def outcome (j : GatewayState) : Arrival :=
  ⟨j.isFull, j.activeBranches, some j.id, if j.isFull then some j.handedOn else none⟩

end GatewayState

namespace Request

lemma completeState_eq {w : Workspace} {issued : Nat} (h : w.store.Keyed issued) {id : Uid}
    (hid : id ∈ w.store.all.map GatewayState.id) :
    ∃ s', completeState id w = .ok () { w with store := s' } ∧ s'.Keyed issued ∧
      s'.all.map GatewayState.id = w.store.all.map GatewayState.id ∧
      ∀ q, s'.states q = retired [id] (w.store.states q) := by
  obtain ⟨s', heq, hkeyed, hids, hstates⟩ := Store.complete_eq h hid
  refine ⟨s', Action.onStore_of_ok ?_, hkeyed, hids, hstates⟩
  rw [heq]
  rfl

lemma completeState_missing {w : Workspace} {id : Uid}
    (hid : id ∉ w.store.all.map GatewayState.id) :
    completeState id w = .error (.stateNotFound id) w := by
  have hget : w.store.get? id = none := by
    rw [Store.get?_eq_find, List.find?_eq_none]
    intro o ho heq
    exact hid (List.mem_map.2 ⟨o, ho, by simpa using heq⟩)
  rw [completeState, Action.onStore, Store.complete, hget]
  rfl

/-- Marks states inactive, one after the other. -/
def completeAll : List Uid → Action Unit
  | [] => pure ()
  | id :: rest => do
    completeState id
    completeAll rest

lemma completeAll_append (ids more : List Uid) :
    completeAll (ids ++ more) = (do completeAll ids; completeAll more) := by
  induction ids with
  | nil => rfl
  | cons id ids ih =>
    rw [List.cons_append, completeAll, completeAll, ih, bind_assoc]

lemma completeAll_eq {issued : Nat} (ids : List Uid) {w : Workspace} (h : w.store.Keyed issued)
    (hids : ∀ id ∈ ids, id ∈ w.store.all.map GatewayState.id) :
    ∃ s', completeAll ids w = .ok () { w with store := s' } ∧ s'.Keyed issued ∧
      s'.all.map GatewayState.id = w.store.all.map GatewayState.id ∧
      ∀ q, s'.states q = retired ids (w.store.states q) := by
  induction ids generalizing w with
  | nil => exact ⟨w.store, rfl, h, rfl, by simp⟩
  | cons id ids ih =>
    obtain ⟨hid, hrest⟩ := List.forall_mem_cons.1 hids
    obtain ⟨s₁, heq₁, hkeyed₁, hids₁, hstates₁⟩ := completeState_eq h hid
    obtain ⟨s', heq, hkeyed, hids', hstates⟩ := ih (w := { w with store := s₁ }) hkeyed₁
      fun u hu => hids₁ ▸ hrest u hu
    refine ⟨s', ?_, hkeyed, hids'.trans hids₁, fun q => ?_⟩
    · rw [completeAll, Action.bind_of_ok heq₁, heq]
    · rw [hstates q, hstates₁ q, retired_append]
      rfl

/-- The first of the states that is not stored stops it. -/
lemma completeAll_missing {issued : Nat} {before : List Uid} {id : Uid} {w : Workspace}
    (h : w.store.Keyed issued) (hbefore : ∀ u ∈ before, u ∈ w.store.all.map GatewayState.id)
    (hid : id ∉ w.store.all.map GatewayState.id) (after : List Uid) :
    ∃ s', completeAll (before ++ id :: after) w =
        .error (.stateNotFound id) { w with store := s' } ∧
      ∀ q, s'.states q = retired before (w.store.states q) := by
  obtain ⟨s', heq, -, hids, hstates⟩ := completeAll_eq before h hbefore
  refine ⟨s', ?_, hstates⟩
  rw [completeAll_append, Action.bind_of_ok heq, completeAll]
  exact Action.bind_of_error (completeState_missing (w := { w with store := s' }) (hids ▸ hid)) _

lemma closeFrames_eq_completeAll (fs : List Frame) :
    closeFrames fs = (do
      completeAll ((fs.filter (·.isClosed)).map Frame.forkId)
      return fs.filter (!·.isClosed)) := by
  induction fs with
  | nil => rfl
  | cons f rest ih =>
    rw [closeFrames, ih]
    cases hclosed : f.isClosed <;> simp [hclosed, completeAll]

/-- The end of an arrival: the join is released if it is full. -/
def conclude (key : JoinKey) (j : GatewayState) : Action Arrival := do
  if j.completedBranches = j.activeBranches then
    match key.closes with
    | some fork => completeState fork
    | none => pure ()
    let stillOpen ← closeFrames (j.arrivedFrames.getD [])
    return ⟨true, j.activeBranches, some j.id, some stillOpen⟩
  else return ⟨false, j.activeBranches, some j.id, none⟩

lemma conclude_of_isFull (key : JoinKey) {j : GatewayState} (hfull : j.isFull = true) :
    conclude key j = (do
      completeAll (j.closing key.closes)
      return j.outcome) := by
  have hcount : j.completedBranches = j.activeBranches := of_decide_eq_true hfull
  have hout : j.outcome = ⟨true, j.activeBranches, some j.id, some j.handedOn⟩ := by
    simp [GatewayState.outcome, hfull]
  rw [conclude, if_pos hcount, closeFrames_eq_completeAll, GatewayState.closing, completeAll_append,
    hout]
  cases key.closes <;> simp [completeAll, GatewayState.shared, GatewayState.handedOn]

lemma conclude_of_not_isFull (key : JoinKey) {j : GatewayState} (hfull : j.isFull = false) :
    conclude key j = pure j.outcome := by
  have hcount : ¬j.completedBranches = j.activeBranches := of_decide_eq_false hfull
  rw [conclude, if_neg hcount]
  simp [GatewayState.outcome, hfull]

lemma conclude_eq {issued : Nat} (key : JoinKey) (j : GatewayState) {w : Workspace}
    (h : w.store.Keyed issued)
    (hids : ∀ u ∈ j.closing key.closes, u ∈ w.store.all.map GatewayState.id) :
    ∃ s', conclude key j w = .ok j.outcome { w with store := s' } ∧ s'.Keyed issued ∧
      ∀ q, s'.states q =
        if j.isFull then retired (j.closing key.closes) (w.store.states q)
        else w.store.states q := by
  cases hfull : j.isFull with
  | true =>
    obtain ⟨s', heq, hkeyed, -, hstates⟩ := completeAll_eq (j.closing key.closes) h hids
    refine ⟨s', ?_, hkeyed, hstates⟩
    rw [conclude_of_isFull key hfull, Action.bind_of_ok heq]
    rfl
  | false =>
    refine ⟨w.store, ?_, h, fun q => rfl⟩
    rw [conclude_of_not_isFull key hfull]
    rfl

/-! ## The key -/

/-- The key of the join that the token arrives at, by the states of its instance. -/
def keyAmong (r : Request) (states : List GatewayState) (flows : Option Nat) : JoinKey :=
  match flows with
  | some n => ⟨n, r.frames.head?.map Frame.forkId, none⟩
  | none =>
    match r.frames.getLast? with
    | some frame => ⟨frame.branchCount, some frame.forkId, some frame.forkId⟩
    | none =>
      match ((states.filter (·.isActive)).reverse).find? (·.kind == .fork) with
      | some fork => ⟨fork.activeBranches, some fork.id, some fork.id⟩
      | none => ⟨1, none, none⟩

variable {r : Request} {p : String} {states : List GatewayState}

/-- A join is scoped and sized by a fork around the token, or by a fork of its instance. -/
lemma keyAmong_cases (flows : Option Nat) {u : Uid}
    (hu : (r.keyAmong states flows).correlationId = some u ∨
      (r.keyAmong states flows).closes = some u) :
    (∃ f ∈ r.frames, f.forkId = u) ∨ ∃ s ∈ states, s.kind = .fork ∧ s.id = u := by
  cases flows with
  | some n =>
    simp only [keyAmong, Option.map_eq_some_iff, reduceCtorEq, or_false] at hu
    obtain ⟨f, hhead, rfl⟩ := hu
    exact .inl ⟨f, List.mem_of_head? hhead, rfl⟩
  | none =>
    simp only [keyAmong] at hu
    split at hu
    · next f hlast =>
      obtain rfl : f.forkId = u := by simpa using hu
      exact .inl ⟨f, List.mem_of_getLast? hlast, rfl⟩
    · split at hu
      · next s hfind =>
        obtain rfl : s.id = u := by simpa using hu
        have hmem := List.mem_of_find?_eq_some hfind
        rw [List.mem_reverse, List.mem_filter] at hmem
        exact .inr ⟨s, hmem.1, by simpa using List.find?_some hfind, rfl⟩
      · simp at hu

/-- A join is scoped and sized only by forks of its instance. -/
lemma keyAmong_fork (flows : Option Nat) (hf : ∀ f ∈ r.frames, f.Sound states) {u : Uid}
    (hu : (r.keyAmong states flows).correlationId = some u ∨
      (r.keyAmong states flows).closes = some u) :
    ∃ s ∈ states, s.kind = .fork ∧ s.id = u := by
  rcases keyAmong_cases flows hu with ⟨f, hmem, rfl⟩ | hfork
  · exact (hf f hmem).exists_id
  · exact hfork

/-- A join that is sized by a fork is scoped by that fork and closes it. -/
lemma keyAmong_closes (r : Request) (states : List GatewayState) (flows : Option Nat) :
    (r.keyAmong states flows).closes =
      if flows.isSome then none else (r.keyAmong states flows).correlationId := by
  cases flows with
  | some n => rfl
  | none =>
    simp only [keyAmong]
    split
    · rfl
    · split <;> rfl

/-! ## Arrivals -/

/-- An arrival at the join of the token's key: the join state after it, and the states then.  The
id and the generation are those of a join that has yet to be opened. -/
def arrival (r : Request) (p : String) (flows : Option Nat) (states : List GatewayState)
    (id : Uid) (generation : Nat) : GatewayState × List GatewayState :=
  let key := r.keyAmong states flows
  arrivalAmong (Store.isJoinOf p r.gateway.id key.correlationId)
    (.ofJoin ⟨p, r.executionId, r.gateway.id, key.expected, key.correlationId⟩ id generation)
    r.frames states

/-- The states after an arrival.  A join that is full retires the forks that it closes. -/
def arrivalStates (r : Request) (p : String) (flows : Option Nat) (states : List GatewayState)
    (id : Uid) (generation : Nat) : List GatewayState :=
  let a := r.arrival p flows states id generation
  if a.1.isFull then retired (a.1.closing (r.keyAmong states flows).closes) a.2 else a.2

/-- An arrival is counted on a state that was there, or on the one that it opened. -/
lemma arrival_cases (r : Request) (p : String) (flows : Option Nat) (states : List GatewayState)
    (id : Uid) (generation : Nat) :
    (∃ o ∈ states, Store.isJoinOf p r.gateway.id (r.keyAmong states flows).correlationId o = true ∧
      r.arrival p flows states id generation =
        (o.arrived r.frames, exchanged (o.arrived r.frames) states)) ∨
    ∃ o, o = GatewayState.ofJoin ⟨p, r.executionId, r.gateway.id,
        (r.keyAmong states flows).expected, (r.keyAmong states flows).correlationId⟩ id
          generation ∧
      (∀ s ∈ states,
        Store.isJoinOf p r.gateway.id (r.keyAmong states flows).correlationId s = false) ∧
      r.arrival p flows states id generation =
        (o.arrived r.frames, states ++ [o.arrived r.frames]) := by
  rcases arrivalAmong_cases (Store.isJoinOf p r.gateway.id (r.keyAmong states flows).correlationId)
    (.ofJoin ⟨p, r.executionId, r.gateway.id, (r.keyAmong states flows).expected,
      (r.keyAmong states flows).correlationId⟩ id generation) r.frames states with h | ⟨hnone, h⟩
  · exact .inl h
  · exact .inr ⟨_, rfl, hnone, h⟩

/-- No state of the instance is lost. -/
lemma subset_map_id_arrival (r : Request) (p : String) (flows : Option Nat)
    (states : List GatewayState) (id : Uid) (generation : Nat) :
    states.map GatewayState.id ⊆
      (r.arrival p flows states id generation).2.map GatewayState.id := by
  rcases r.arrival_cases p flows states id generation with ⟨o, -, -, heq⟩ | ⟨o, -, -, heq⟩
  · rw [heq, map_id_exchanged]
    exact List.Subset.refl _
  · rw [heq, List.map_append]
    exact List.subset_append_left _ _

section Closing

variable {id : Uid} {generation : Nat}

/-- The frames that have come together are named by the token, or by an earlier arrival at a join of
the instance. -/
lemma shared_cases (flows : Option Nat) {f : Frame}
    (hf : f ∈ (r.arrival p flows states id generation).1.shared) :
    (∃ g ∈ r.frames, g.forkId = f.forkId) ∨
      ∃ j ∈ states, j.kind = .join ∧ ∃ g ∈ j.shared, g.forkId = f.forkId := by
  rcases r.arrival_cases p flows states id generation with
    ⟨o, ho, hjoin, heq⟩ | ⟨o, hopened, -, heq⟩
  · simp only [Store.isJoinOf, Bool.and_eq_true, beq_iff_eq] at hjoin
    rw [heq, GatewayState.shared, GatewayState.arrivedFrames_arrived, Option.getD_some] at hf
    split at hf
    · next shared hshared =>
      obtain ⟨a, ha, b, -, -, rfl⟩ := Frame.mem_merge hf
      exact .inr ⟨o, ho, hjoin.1.1.1.1, a, by rwa [GatewayState.shared, hshared], rfl⟩
    · exact .inl ⟨f, hf, rfl⟩
  · rw [heq, hopened] at hf
    exact .inl ⟨f, hf, rfl⟩

/-- What a released join closes is named by the token or by an earlier arrival at a join of the
instance, or is a fork of the instance. -/
lemma closing_cases (flows : Option Nat) {u : Uid}
    (hu : u ∈ (r.arrival p flows states id generation).1.closing
      (r.keyAmong states flows).closes) :
    (∃ f ∈ r.frames, f.forkId = u) ∨
      (∃ j ∈ states, j.kind = .join ∧ ∃ f ∈ j.shared, f.forkId = u) ∨
      ∃ s ∈ states, s.kind = .fork ∧ s.id = u := by
  rw [GatewayState.closing, List.mem_append, Option.mem_toList] at hu
  rcases hu with hu | hu
  · rcases keyAmong_cases flows (.inr hu) with hframe | hfork
    · exact .inl hframe
    · exact .inr (.inr hfork)
  · obtain ⟨f, hmem, rfl⟩ := List.mem_map.1 hu
    rcases shared_cases flows (List.mem_filter.1 hmem).1 with hframe | hshared
    · exact .inl hframe
    · exact .inr (.inl hshared)

end Closing

section Arriving

variable {w : Workspace}

/-- If every active join still waits, an arrival is counted as `arrival` says; it is left to be
concluded. -/
lemma join_concludes (hk : w.store.Keyed w.supply.issued) (hp : r.instanceId = some p)
    (hopen : ∀ j ∈ w.store.states p, j.kind = .join → j.isActive = true →
      j.completedBranches < j.activeBranches)
    (hmany : r.incoming.any (· ≤ 1) = false) (flows : Option Nat) :
    let a := r.arrival p flows (w.store.states p) w.supply.uid.1
      (w.store.generation p r.gateway.id + 1)
    ∃ s₁ : Store, r.join flows w = conclude (r.keyAmong (w.store.states p) flows) a.1
        { w with store := s₁, supply := w.supply.uid.2 } ∧
      s₁.Keyed w.supply.uid.2.issued ∧
      ∀ q, s₁.states q = if q = p then a.2 else w.store.states q := by
  have hfresh : w.supply.issued < w.supply.uid.1.value := Nat.lt_succ_self _
  set key := r.keyAmong (w.store.states p) flows with hkey
  obtain ⟨opened, s₁, -, hopened, hrecord, hkeyed₁, hstates₁⟩ :=
    Store.recordArrival_createJoin hk
      ⟨p, r.executionId, r.gateway.id, key.expected, key.correlationId⟩ hfresh hopen r.frames
  have harrival : arrivalAmong (Store.isJoinOf p r.gateway.id key.correlationId) opened r.frames
      (w.store.states p) = r.arrival p flows (w.store.states p) w.supply.uid.1
        (w.store.generation p r.gateway.id + 1) := by
    rw [hopened]
    rfl
  rw [harrival] at hrecord hstates₁
  refine ⟨s₁, ?_, hkeyed₁, hstates₁⟩
  rw [join, hp, Action.orFail_some, pure_bind, if_neg (by simp [hmany]),
    Action.bind_of_ok (Action.readStore_apply w), Action.bind_of_ok (Action.freshUid_apply w),
    Action.bind_of_ok (Action.onStore_of_ok rfl)]
  exact Action.bind_of_ok (Action.onStore_of_ok hrecord) (conclude key)

/-- No stored state is lost at an arrival. -/
lemma stored_of_arrival {flows : Option Nat} {id : Uid} {generation : Nat} {s₁ : Store}
    (hstates : ∀ q, s₁.states q =
      if q = p then (r.arrival p flows (w.store.states p) id generation).2 else w.store.states q)
    {u : Uid} (hu : u ∈ w.store.all.map GatewayState.id) : u ∈ s₁.all.map GatewayState.id := by
  obtain ⟨o, ho, rfl⟩ := List.mem_map.1 hu
  have hmem : o.id ∈ (w.store.states o.instanceId).map GatewayState.id :=
    List.mem_map_of_mem (Store.mem_states.2 ⟨ho, rfl⟩)
  have hthen : o.id ∈ (s₁.states o.instanceId).map GatewayState.id := by
    rw [hstates o.instanceId]
    split_ifs with hq
    · exact subset_map_id_arrival r p flows _ _ _ ((show o.instanceId = p from hq) ▸ hmem)
    · exact hmem
  obtain ⟨t, ht, hid⟩ := List.mem_map.1 hthen
  exact hid ▸ List.mem_map_of_mem (Store.mem_states.1 ht).1

/-- An arrival at a join succeeds if all that it may have to close is stored, and is what `arrival`
says.  The store between counting and closing comes first: a join that is full then retires what it
closes, in whatever instance that is. -/
theorem join_named (hk : w.store.Keyed w.supply.issued) (hp : r.instanceId = some p)
    (hopen : ∀ j ∈ w.store.states p, j.kind = .join → j.isActive = true →
      j.completedBranches < j.activeBranches)
    (hframes : ∀ f ∈ r.frames, f.forkId ∈ w.store.all.map GatewayState.id)
    (hshared : ∀ j ∈ w.store.states p, j.kind = .join → ∀ f ∈ j.shared,
      f.forkId ∈ w.store.all.map GatewayState.id)
    (hmany : r.incoming.any (· ≤ 1) = false) (flows : Option Nat) :
    ∃ (generation : Nat) (s₁ s' : Store),
      generation = w.store.generation p r.gateway.id + 1 ∧
      let a := r.arrival p flows (w.store.states p) w.supply.uid.1 generation
      r.join flows w = .ok a.1.outcome { w with store := s', supply := w.supply.uid.2 } ∧
      s₁.Keyed w.supply.uid.2.issued ∧ s'.Keyed w.supply.uid.2.issued ∧
      (∀ q, s₁.states q = if q = p then a.2 else w.store.states q) ∧
      ∀ q, s'.states q =
        if a.1.isFull then
          retired (a.1.closing (r.keyAmong (w.store.states p) flows).closes) (s₁.states q)
        else s₁.states q := by
  obtain ⟨s₁, hjoin, hkeyed₁, hstates₁⟩ := join_concludes hk hp hopen hmany flows
  have hids : ∀ u ∈ (r.arrival p flows (w.store.states p) w.supply.uid.1
      (w.store.generation p r.gateway.id + 1)).1.closing
        (r.keyAmong (w.store.states p) flows).closes, u ∈ s₁.all.map GatewayState.id := by
    intro u hu
    refine stored_of_arrival hstates₁ ?_
    rcases closing_cases flows hu with ⟨f, hf, rfl⟩ | ⟨j, hj, hjk, f, hf, rfl⟩ | ⟨o, ho, -, rfl⟩
    · exact hframes f hf
    · exact hshared j hj hjk f hf
    · exact List.mem_map_of_mem (Store.mem_states.1 ho).1
  obtain ⟨s', hend, hkeyed, hstates⟩ := conclude_eq (r.keyAmong (w.store.states p) flows) _
    (w := { w with store := s₁, supply := w.supply.uid.2 }) hkeyed₁ hids
  exact ⟨_, s₁, s', rfl, hjoin.trans hend, hkeyed₁, hkeyed, hstates₁, hstates⟩

end Arriving

section Sound

variable {issued : Nat} {id : Uid}

/-- An arrival keeps the states of the instance in order, and leaves the join that it came to among
them. -/
lemma arrival_sound (flows : Option Nat) (h : SoundStates p issued states)
    (hf : ∀ f ∈ r.frames, f.Sound states) (hid : issued < id.value) (generation : Nat) :
    SoundStates p id.value (r.arrival p flows states id generation).2 ∧
      (r.arrival p flows states id generation).1 ∈ (r.arrival p flows states id generation).2 ∧
      (r.arrival p flows states id generation).1.kind = .join ∧
      ForksKept states (r.arrival p flows states id generation).2 := by
  rcases r.arrival_cases p flows states id generation with
    ⟨o, ho, hjoin, heq⟩ | ⟨o, hopened, -, heq⟩
  · simp only [Store.isJoinOf, Bool.and_eq_true, beq_iff_eq] at hjoin
    obtain ⟨⟨⟨⟨hk, hactive⟩, -⟩, -⟩, -⟩ := hjoin
    have hsound := (h.joins o ho hk).arrived r.frames hk hactive
    rw [heq]
    exact ⟨(h.exchange (o.arrived r.frames) ho hk hk rfl (h.owned o ho) hsound).mono hid.le,
      mem_exchanged.2 (.inl ⟨rfl, o, ho, rfl⟩), hk, .exchanged h.distinct ho hk rfl⟩
  · have hsound : (o.arrived r.frames).SoundJoin states := by
      rw [hopened]
      exact .ofJoin hf fun u hu => keyAmong_fork flows hf (.inl hu)
    have hoid : o.id = id := by rw [hopened]; rfl
    rw [heq]
    refine ⟨?_, by simp, by rw [hopened]; rfl, .append _ _⟩
    rw [← hoid] at hid ⊢
    refine h.append (o.arrived r.frames) hid (by rw [hopened]; rfl) (fun _ => hsound)
      fun hfork => ?_
    rw [hopened] at hfork
    cases hfork

/-- The frames that have come together at a join are those of forks of the instance. -/
lemma shared_sound {states : List GatewayState} {j : GatewayState} (h : j.SoundJoin states) :
    ∀ f ∈ j.shared, f.Sound states := by
  obtain ⟨fs, hfs, hsound⟩ := h.frames
  rw [GatewayState.shared, hfs]
  exact hsound

/-- What a released join closes are forks of the instance. -/
lemma closing_fork (flows : Option Nat) (h : SoundStates p issued states)
    (hf : ∀ f ∈ r.frames, f.Sound states) (hid : issued < id.value) (generation : Nat) {u : Uid}
    (hu : u ∈ (r.arrival p flows states id generation).1.closing
      (r.keyAmong states flows).closes) :
    ∃ s ∈ (r.arrival p flows states id generation).2, s.kind = .fork ∧ s.id = u := by
  obtain ⟨hsound, hmem, hk, hkept⟩ := arrival_sound flows h hf hid generation
  rw [GatewayState.closing, List.mem_append, Option.mem_toList] at hu
  rcases hu with hu | hu
  · obtain ⟨s, hs, hsk, rfl⟩ := keyAmong_fork flows hf (.inr hu)
    obtain ⟨t, ht, htk, htf⟩ := hkept s hs hsk
    exact ⟨t, ht, htk, congrArg Frame.forkId htf⟩
  · obtain ⟨f, hmemf, rfl⟩ := List.mem_map.1 hu
    exact (shared_sound (hsound.joins _ hmem hk) f (List.mem_filter.1 hmemf).1).exists_id

lemma arrivalStates_sound (flows : Option Nat) (h : SoundStates p issued states)
    (hf : ∀ f ∈ r.frames, f.Sound states) (hid : issued < id.value) (generation : Nat) :
    SoundStates p id.value (r.arrivalStates p flows states id generation) ∧
      (r.arrival p flows states id generation).1 ∈
        r.arrivalStates p flows states id generation ∧
      ForksKept states (r.arrivalStates p flows states id generation) := by
  obtain ⟨hsound, hmem, hk, hkept⟩ := arrival_sound flows h hf hid generation
  have hids := fun u => closing_fork flows h hf hid generation (u := u)
  rw [arrivalStates]
  split_ifs
  · exact ⟨hsound.retire hids, (hsound.mem_retired_join hids hk).2 hmem,
      hkept.trans (.retired _ _)⟩
  · exact ⟨hsound, hmem, hkept⟩

/-- In a sound workspace an arrival at a join succeeds, and is what `arrival` says.  The states of
other instances stay as they are. -/
theorem join_spec {w : Workspace} (hw : w.Sound) (hp : r.instanceId = some p)
    (hf : ∀ f ∈ r.frames, f.Sound (w.store.states p)) (hmany : r.incoming.any (· ≤ 1) = false)
    (flows : Option Nat) :
    ∃ generation s',
      generation = w.store.generation p r.gateway.id + 1 ∧
      r.join flows w =
        .ok (r.arrival p flows (w.store.states p) w.supply.uid.1 generation).1.outcome
          { w with store := s', supply := w.supply.uid.2 } ∧
      s'.Keyed w.supply.uid.2.issued ∧
      ∀ q, s'.states q =
        if q = p then r.arrivalStates p flows (w.store.states p) w.supply.uid.1 generation
        else w.store.states q := by
  have hjoins : ∀ j ∈ w.store.states p, j.kind = .join → ∀ f ∈ j.shared,
      ∃ o ∈ w.store.states p, o.kind = .fork ∧ o.id = f.forkId :=
    fun j hj hjk f hmem => (shared_sound (hw.joins p j hj hjk) f hmem).exists_id
  have hstored : ∀ {u : Uid}, (∃ o ∈ w.store.states p, o.kind = .fork ∧ o.id = u) →
      u ∈ w.store.all.map GatewayState.id := by
    rintro _ ⟨o, ho, -, rfl⟩
    exact List.mem_map_of_mem (Store.mem_states.1 ho).1
  obtain ⟨generation, s₁, s', hgeneration, heq, -, hkeyed, hstates₁, hstates⟩ :=
    join_named hw.keyed hp
    (fun j hj hk => (hw.joins p j hj hk).active.1) (fun f hmem => hstored (hf f hmem).exists_id)
    (fun j hj hjk f hmem => hstored (hjoins j hj hjk f hmem)) hmany flows
  refine ⟨generation, s', hgeneration, heq, hkeyed, fun q => ?_⟩
  rw [hstates q, hstates₁ q, arrivalStates]
  by_cases hq : q = p
  · rw [if_pos hq, if_pos hq]
  · rw [if_neg hq, if_neg hq]
    refine ite_eq_right_iff.2 fun _ => Store.retired_states_of_ne hw.keyed (fun u hu => ?_) hq
    rcases closing_cases flows hu with ⟨f, hmem, rfl⟩ | ⟨j, hj, hjk, f, hmem, rfl⟩ | hfork
    · obtain ⟨o, ho, -, hid⟩ := (hf f hmem).exists_id
      exact ⟨o, ho, hid⟩
    · obtain ⟨o, ho, -, hid⟩ := hjoins j hj hjk f hmem
      exact ⟨o, ho, hid⟩
    · obtain ⟨o, ho, -, hid⟩ := hfork
      exact ⟨o, ho, hid⟩

end Sound

end Request

end ProcessEngine

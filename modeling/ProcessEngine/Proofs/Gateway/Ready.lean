import ProcessEngine.Proofs.Gateway.ActiveJoins

/-!
# Ready workspaces

A sound workspace knows of every frame which fork it stands for.  Much less is needed for joins to
go on counting: a workspace is `Ready` if its active joins still wait and every frame that has come
together at a join names some fork, of whatever instance and with whatever branches.  Any activation
for a token of which the frames name forks leaves a ready workspace (`Request.activate_spares`), and
does not concern the joins of other instances, of other gateways and, where the gateway is parallel,
within other forks.
-/

namespace ProcessEngine

/-- A fork with the given id is stored. -/
def Store.HasFork (s : Store) (u : Uid) : Prop := ∃ o ∈ s.all, o.kind = .fork ∧ o.id = u

instance (s : Store) (u : Uid) : Decidable (s.HasFork u) :=
  inferInstanceAs (Decidable (∃ o ∈ s.all, o.kind = .fork ∧ o.id = u))

lemma Store.HasFork.stored {s : Store} {u : Uid} (h : s.HasFork u) :
    u ∈ s.all.map GatewayState.id := by
  obtain ⟨o, ho, -, rfl⟩ := h
  exact List.mem_map_of_mem ho

lemma Store.HasFork.mono {s s' : Store} {u : Uid} (h : s.HasFork u)
    (hkept : ∀ p, ForksKept (s.states p) (s'.states p)) : s'.HasFork u := by
  obtain ⟨o, ho, hk, rfl⟩ := h
  obtain ⟨t, ht, htk, hframe⟩ := hkept o.instanceId o (mem_states.2 ⟨ho, rfl⟩) hk
  exact ⟨t, (mem_states.1 ht).1, htk, congrArg Frame.forkId hframe⟩

namespace Workspace

/-- No id is shared, active joins still wait, and what has come together at a join names forks. -/
structure Ready (w : Workspace) : Prop where
  keyed : w.store.Keyed w.supply.issued
  waits : ∀ p, ∀ j ∈ w.store.states p, j.kind = .join → j.isActive = true →
    j.completedBranches < j.activeBranches
  named : ∀ p, ∀ j ∈ w.store.states p, j.kind = .join → ∀ f ∈ j.shared,
    w.store.HasFork f.forkId

/-- The workspace stays ready, and no fork is lost. -/
structure Grows (w w' : Workspace) : Prop where
  ready : w'.Ready
  forks : ∀ p, ForksKept (w.store.states p) (w'.store.states p)

/-- Besides, the active joins of an instance at a gateway under a key stay as they are, if the step
is one elsewhere. -/
structure Spares (elsewhere : String → String → Option Uid → Prop) (w w' : Workspace) : Prop
    extends Grows w w' where
  joins : ∀ p gateway key, elsewhere p gateway key →
    activeJoins p gateway key (w'.store.states p) = activeJoins p gateway key (w.store.states p)

variable {elsewhere : String → String → Option Uid → Prop} {w w' w'' : Workspace}

lemma Grows.trans (h : Grows w w') (h' : Grows w' w'') : Grows w w'' :=
  ⟨h'.ready, fun p => (h.forks p).trans (h'.forks p)⟩

lemma Spares.trans (h : Spares elsewhere w w') (h' : Spares elsewhere w' w'') :
    Spares elsewhere w w'' :=
  ⟨h.toGrows.trans h'.toGrows, fun p gateway key helse =>
    (h'.joins p gateway key helse).trans (h.joins p gateway key helse)⟩

/-- The bus and the supply do not matter to the store. -/
lemma Ready.spares_of_store (hw : w.Ready) (hs : w'.store = w.store)
    (hi : w.supply.issued ≤ w'.supply.issued) : Spares elsewhere w w' where
  ready := ⟨hs ▸ hw.keyed.mono hi, hs ▸ hw.waits, hs ▸ hw.named⟩
  forks q := hs ▸ ForksKept.refl _
  joins p gateway key _ := by rw [hs]

lemma Ready.spares_refl (hw : w.Ready) : Spares elsewhere w w :=
  hw.spares_of_store rfl (Nat.le_refl _)

end Workspace

open Workspace

namespace Request

variable {r : Request} {p : String} {w : Workspace}
  {elsewhere : String → String → Option Uid → Prop}

/-! ## Forks -/

/-- A fork is added to the states of its instance. -/
lemma recordFork_spares (hw : w.Ready) (targets : List String) :
    ∃ frame w', r.recordFork targets w = .ok frame w' ∧ Spares elsewhere w w' := by
  cases hp : r.instanceId with
  | none => exact ⟨none, w, by rw [recordFork, hp]; rfl, hw.spares_refl⟩
  | some p =>
    obtain ⟨generation, s', heq, hkeyed, hstates⟩ :=
      recordFork_spec hw.keyed (Nat.le_refl _) hp targets
    set fork := r.newFork p targets w.supply.uid.1 generation
    have hkept : ∀ q, ForksKept (w.store.states q) (s'.states q) := by
      intro q
      rw [hstates q]
      split_ifs
      · exact .append _ _
      · exact .refl _
    have hjoins : ∀ q, ∀ j ∈ s'.states q, j.kind = .join → j ∈ w.store.states q := by
      intro q j hj hk
      rw [hstates q] at hj
      split_ifs at hj
      · rcases List.mem_append.1 hj with hj | hj
        · exact hj
        · rw [List.mem_singleton.1 hj] at hk
          cases hk
      · exact hj
    refine ⟨_, _, heq, ⟨⟨hkeyed, ?_, ?_⟩, hkept⟩, fun q gateway key _ => ?_⟩
    · exact fun q j hj hk => hw.waits q j (hjoins q j hj hk) hk
    · exact fun q j hj hk f hf => (hw.named q j (hjoins q j hj hk) hk f hf).mono hkept
    · rw [show s'.states q = _ from hstates q]
      split_ifs with hq
      · rw [hq, activeJoins_append_fork]
      · rfl

/-- The token is let out by every flow, and nothing but a fork is added. -/
lemma splitAll_spares (hw : w.Ready) (d : Decision) :
    ∃ d' w', r.splitAll d w = .ok d' w' ∧ d'.next = r.outgoing.map Flow.target ∧
      d'.isJoin = d.isJoin ∧ d'.needsWait = d.needsWait ∧ Spares elsewhere w w' := by
  by_cases hmany : 1 < (r.outgoing.map Flow.target).length
  · obtain ⟨frame, w', heq, hspares⟩ := recordFork_spares (r := r) hw (r.outgoing.map Flow.target)
    have hsplit : r.splitAll d w = .ok { d with
        next := r.outgoing.map Flow.target
        isFork := true
        activeBranches := some (word32 (r.outgoing.map Flow.target).length)
        stateId := frame.map Frame.forkId
        forkFrame := frame } w' := by
      rw [splitAll, if_pos hmany, Action.bind_of_ok heq]
      rfl
    exact ⟨_, w', hsplit, rfl, rfl, rfl, hspares⟩
  · exact ⟨_, w, splitAll_one d hmany, rfl, rfl, rfl, hw.spares_refl⟩

/-! ## Joins -/

section Arrival

variable {flows : Option Nat} {states : List GatewayState} {id : Uid} {generation : Nat}

/-- If the join that was come to is active, it still waits. -/
lemma waits_arrival (hopen : ∀ j ∈ states, j.kind = .join → j.isActive = true →
      j.completedBranches < j.activeBranches)
    (hactive : (r.arrival p flows states id generation).1.isActive = true) :
    (r.arrival p flows states id generation).1.completedBranches <
      (r.arrival p flows states id generation).1.activeBranches := by
  rcases r.arrival_cases p flows states id generation with
    ⟨o, ho, hjoin, heq⟩ | ⟨o, hopened, -, heq⟩
  · simp only [Store.isJoinOf, Bool.and_eq_true, beq_iff_eq] at hjoin
    obtain ⟨⟨⟨⟨hk, ha⟩, -⟩, -⟩, -⟩ := hjoin
    rw [heq] at hactive ⊢
    have hmore := (o.isActive_arrived r.frames hk ha).1 hactive
    have hbefore := hopen o ho hk ha
    rw [GatewayState.completedBranches_arrived, GatewayState.activeBranches_arrived]
    omega
  · rw [heq] at hactive ⊢
    have hmore := (o.isActive_arrived r.frames (by rw [hopened]; rfl) (by rw [hopened]; rfl)).1
      hactive
    have hexpects : 1 ≤ o.activeBranches := by
      rw [hopened]
      exact Nat.le_max_right _ _
    have hnone : o.completedBranches = 0 := by
      rw [hopened]
      rfl
    rw [GatewayState.completedBranches_arrived, GatewayState.activeBranches_arrived]
    omega

/-- An arrival concerns joins only. -/
lemma forksKept_arrival (hd : (states.map GatewayState.id).Nodup) :
    ForksKept states (r.arrival p flows states id generation).2 := by
  rcases r.arrival_cases p flows states id generation with ⟨o, ho, hjoin, heq⟩ | ⟨o, -, -, heq⟩
  · simp only [Store.isJoinOf, Bool.and_eq_true, beq_iff_eq] at hjoin
    rw [heq]
    exact .exchanged hd ho hjoin.1.1.1.1 rfl
  · rw [heq]
    exact .append _ _

end Arrival

/-- Closing forks leaves the joins alone. -/
lemma spares_of_retired (hw : w.Ready) {ids : List Uid} (hids : ∀ u ∈ ids, w.store.HasFork u)
    {s' : Store} (hk : s'.Keyed w.supply.issued)
    (hstates : ∀ q, s'.states q = retired ids (w.store.states q)) :
    Spares elsewhere w { w with store := s' } := by
  have hforks : ∀ q, ∀ s ∈ w.store.states q, s.id ∈ ids → s.kind = .fork := by
    intro q s hs hmem
    obtain ⟨o, ho, hok, hid⟩ := hids _ hmem
    rwa [← hw.keyed.eq_of_id ho (Store.mem_states.1 hs).1 hid]
  have hkept : ∀ q, ForksKept (w.store.states q) (s'.states q) :=
    fun q => hstates q ▸ ForksKept.retired _ _
  have hjoins : ∀ q, ∀ j ∈ s'.states q, j.kind = .join → j ∈ w.store.states q := by
    intro q j hj hjk
    rw [hstates q] at hj
    obtain ⟨o, ho, rfl⟩ := mem_retired.1 hj
    split_ifs at hjk ⊢ with hmem
    · exact absurd ((hforks q o ho hmem).symm.trans hjk) (by decide)
    · exact ho
  refine ⟨⟨⟨hk, ?_, ?_⟩, hkept⟩, fun p gateway key _ => ?_⟩
  · exact fun q j hj hjk => hw.waits q j (hjoins q j hj hjk) hjk
  · exact fun q j hj hjk f hf => (hw.named q j (hjoins q j hj hjk) hjk f hf).mono hkept
  · rw [show s'.states p = _ from hstates p]
    exact activeJoins_retired (hforks p)

/-- Counting an arrival. -/
lemma grows_of_arrival (hw : w.Ready) (hf : ∀ f ∈ r.frames, w.store.HasFork f.forkId)
    {flows : Option Nat} {generation : Nat} {s' : Store} (hk : s'.Keyed w.supply.uid.2.issued)
    (hstates : ∀ q, s'.states q =
      if q = p then (r.arrival p flows (w.store.states p) w.supply.uid.1 generation).2
      else w.store.states q) :
    Grows w { w with store := s', supply := w.supply.uid.2 } := by
  have hjoins : ∀ q, ∀ s ∈ s'.states q, s ∈ w.store.states q ∨
      s = (r.arrival p flows (w.store.states p) w.supply.uid.1 generation).1 := by
    intro q s hs
    rw [hstates q] at hs
    split_ifs at hs with hq
    · subst hq
      rcases (mem_arrival (fun o ho => hw.keyed.known o (Store.mem_states.1 ho).1)
        (Nat.lt_succ_self _)).1 hs with hs | hs
      · exact .inr hs
      · exact .inl hs.1
    · exact .inl hs
  have hkept : ∀ q, ForksKept (w.store.states q) (s'.states q) := by
    intro q
    rw [hstates q]
    split_ifs with hq
    · subst hq
      exact forksKept_arrival (hw.keyed.distinct_states q)
    · exact .refl _
  refine ⟨⟨hk, fun q j hj hjk hactive => ?_, fun q j hj hjk f hmem => ?_⟩, hkept⟩
  · rcases hjoins q j hj with hold | rfl
    · exact hw.waits q j hold hjk hactive
    · exact waits_arrival (hw.waits p) hactive
  · refine Store.HasFork.mono ?_ hkept
    rcases hjoins q j hj with hold | rfl
    · exact hw.named q j hold hjk f hmem
    · rcases shared_cases flows hmem with ⟨g, hg, hid⟩ | ⟨k, hk, hkk, g, hg, hid⟩
      · exact hid ▸ hf g hg
      · exact hid ▸ hw.named p k hk hkk g hg

/-- An arrival at a join succeeds and is counted.  Of the active joins it concerns those of its
key only. -/
lemma join_ready (hw : w.Ready) (hp : r.instanceId = some p)
    (hf : ∀ f ∈ r.frames, w.store.HasFork f.forkId) (hmany : r.incoming.any (· ≤ 1) = false)
    (flows : Option Nat) :
    ∃ generation w',
      let a := r.arrival p flows (w.store.states p) w.supply.uid.1 generation
      r.join flows w = .ok a.1.outcome w' ∧ Grows w w' ∧
      (∀ gateway key, activeJoins p gateway key (w'.store.states p) =
        activeJoins p gateway key a.2) ∧
      ∀ q gateway key, (q ≠ p ∨ r.gateway.id ≠ gateway ∨
          (r.keyAmong (w.store.states p) flows).correlationId ≠ key) →
        activeJoins q gateway key (w'.store.states q) =
          activeJoins q gateway key (w.store.states q) := by
  obtain ⟨generation, s₁, s', -, heq, hkeyed₁, hkeyed, hstates₁, hstates⟩ :=
    join_named hw.keyed hp (hw.waits p) (fun f hmem => (hf f hmem).stored)
      (fun j hj hk f hmem => (hw.named p j hj hk f hmem).stored) hmany flows
  set a := r.arrival p flows (w.store.states p) w.supply.uid.1 generation with ha
  have hcounted := grows_of_arrival hw hf hkeyed₁ hstates₁
  have hclosing : ∀ u ∈ a.1.closing (r.keyAmong (w.store.states p) flows).closes,
      s₁.HasFork u := by
    intro u hu
    refine Store.HasFork.mono ?_ hcounted.forks
    rcases closing_cases flows hu with ⟨f, hmem, rfl⟩ | ⟨j, hj, hk, f, hmem, rfl⟩ | ⟨o, ho, hok⟩
    · exact hf f hmem
    · exact hw.named p j hj hk f hmem
    · exact ⟨o, (Store.mem_states.1 ho).1, hok⟩
  have hclosed : Spares (fun _ _ _ => True) { w with store := s₁, supply := w.supply.uid.2 }
      { w with store := s', supply := w.supply.uid.2 } := by
    by_cases hfull : a.1.isFull = true
    · exact spares_of_retired hcounted.ready hclosing hkeyed
        fun q => (hstates q).trans (if_pos hfull)
    · have hnone : ∀ u ∈ ([] : List Uid), s₁.HasFork u := by simp
      refine spares_of_retired hcounted.ready hnone hkeyed fun q => ?_
      rw [retired_nil, hstates q, if_neg hfull]
  refine ⟨generation, _, heq, hcounted.trans hclosed.toGrows, fun gateway key => ?_,
    fun q gateway key hne => ?_⟩
  · exact (hclosed.joins p gateway key trivial).trans (by rw [hstates₁ p, if_pos rfl])
  · refine (hclosed.joins q gateway key trivial).trans ?_
    rw [show s₁.states q = _ from hstates₁ q]
    split_ifs with hq
    · subst hq
      exact activeJoins_arrival_of_ne (hw.keyed.distinct_states q)
        (hne.resolve_left (not_not_intro rfl))
    · rfl

/-! ## Activations -/

/-- A sequence spares what both of its parts spare. -/
lemma spares_bind {α β : Type} {a : Action α} {f : α → Action β}
    (ha : Spares elsewhere w (a.after w))
    (hf : ∀ x w', a w = .ok x w' → w'.Ready → Spares elsewhere w' ((f x).after w')) :
    Spares elsewhere w ((a >>= f).after w) := by
  cases h : a w with
  | ok x w' =>
    rw [Action.after_of_ok h] at ha
    rw [Action.after_bind_of_ok h]
    exact ha.trans (hf x w' h ha.ready)
  | error e w' =>
    rw [Action.after_of_error h] at ha
    rwa [Action.after_of_error (Action.bind_of_error h f)]

lemma splitAll_after_spares (hw : w.Ready) (d : Decision) :
    Spares elsewhere w ((r.splitAll d).after w) := by
  obtain ⟨d', w', heq, -, -, -, hspares⟩ := splitAll_spares (r := r) hw d
  rwa [Action.after_of_ok heq]

/-- An arrival concerns the active joins of its key only. -/
lemma join_spares (hw : w.Ready) (hf : ∀ f ∈ r.frames, w.store.HasFork f.forkId) {n : Option Nat}
    (hother : ∀ p gateway key, elsewhere p gateway key → r.instanceId ≠ some p ∨
      r.gateway.id ≠ gateway ∨ (r.keyAmong (w.store.states p) n).correlationId ≠ key) :
    Spares elsewhere w ((r.join n).after w) := by
  cases hq : r.instanceId with
  | none =>
    rw [join, hq]
    exact hw.spares_refl
  | some q =>
    by_cases hone : r.incoming.any (· ≤ 1) = true
    · rw [join, hq, Action.orFail_some, pure_bind, if_pos hone]
      exact hw.spares_refl
    · obtain ⟨generation, w', heq, hgrows, -, hjoins⟩ :=
        join_ready hw hq hf (by simpa using hone) n
      rw [Action.after_of_ok heq]
      refine ⟨hgrows, fun p gateway key helse => hjoins p gateway key ?_⟩
      by_cases hpq : p = q
      · subst hpq
        exact .inr ((hother p gateway key helse).resolve_left (not_not_intro hq))
      · exact .inl hpq

/-- The token does not come to the join of the key: it is of another instance, at another gateway,
or at a parallel one and within another outermost fork. -/
def Elsewhere (r : Request) (p gateway : String) (key : Option Uid) : Prop :=
  r.instanceId ≠ some p ∨ r.gateway.id ≠ gateway ∨
    r.gateway.kind = .parallel ∧ r.frames.head?.map Frame.forkId ≠ key

/-- Whatever becomes of the token, the workspace stays ready, and the active joins that the token
does not come to stay as they are. -/
theorem activate_spares (hw : w.Ready) (hf : ∀ f ∈ r.frames, w.store.HasFork f.forkId) :
    Spares r.Elsewhere w (r.activate.after w) := by
  have hpublish : ∀ es, Spares r.Elsewhere w ((Action.publish es).after w) :=
    fun es => hw.spares_of_store rfl (Nat.le_refl _)
  rw [activate]
  split
  · rw [exclusive]
    refine spares_bind (hpublish _) fun _ w' _ hw' => ?_
    cases r.gateway.exclusiveChoice r.outgoing r.vars <;> exact hw'.spares_refl
  · rw [parallel]
    split_ifs
    · exact hw.spares_refl
    · split
      · split_ifs
        · refine spares_bind (join_spares hw hf ?_) fun arrival w' _ hw' => ?_
          · exact fun p gateway key helse => helse.imp_right (Or.imp_right And.right)
          · dsimp only
            split_ifs
            · exact splitAll_after_spares hw' _
            · exact hw'.spares_refl
        · exact splitAll_after_spares hw _
      · exact splitAll_after_spares hw _
  · next hkind =>
    split_ifs
    · rw [inclusiveFork]
      refine spares_bind (hpublish _) fun _ w' _ hw' => ?_
      dsimp only
      split_ifs
      · exact hw'.spares_refl
      · obtain ⟨frame, w'', heq, hspares⟩ := recordFork_spares (r := r) hw'
          ((r.gateway.inclusiveChoice r.outgoing r.vars).map Flow.target)
        rw [Action.after_bind_of_ok heq]
        exact hspares
    · rw [inclusiveJoin]
      cases r.outgoing.head? with
      | none => exact hw.spares_refl
      | some flow =>
        rw [Action.orFail_some, pure_bind]
        refine spares_bind (join_spares hw hf fun p gateway key helse => ?_) fun _ w' _ hw' =>
          hw'.spares_refl
        rw [Elsewhere, hkind] at helse
        exact helse.imp_right fun h => .inl (h.resolve_right fun h => by cases h.1)
  · rw [eventBased]
    split_ifs <;> exact hw.spares_refl

end Request

end ProcessEngine

import ProcessEngine.Proofs.Action
import ProcessEngine.Proofs.Frame.Merge
import ProcessEngine.Proofs.Store.Operations

/-!
# Sound bookkeeping

A frame is sound if it names a fork state of the instance and says of the fork what its state says.
A join state is sound if it has counted at least one arrival and not more than it waits for, is
active exactly while arrivals are missing, and names only forks of the instance, in the frames that
have arrived and as the scope of the join.  A workspace is sound if all its join states are.

Fork states are never dropped while an instance goes on, so soundness survives whatever else happens
to the states of the instance (`Frame.Sound.mono`, `GatewayState.SoundJoin.mono`).
-/

namespace ProcessEngine

/-- Every fork state of the first list is still there in the second one, active or not. -/
def ForksKept (states later : List GatewayState) : Prop :=
  ∀ s ∈ states, s.kind = .fork → ∃ t ∈ later, t.kind = .fork ∧ t.frame = s.frame

namespace ForksKept

variable {states later latest : List GatewayState}

lemma refl (states : List GatewayState) : ForksKept states states :=
  fun s hs hk => ⟨s, hs, hk, rfl⟩

lemma trans (h : ForksKept states later) (h' : ForksKept later latest) :
    ForksKept states latest := by
  intro s hs hk
  obtain ⟨t, ht, htk, htf⟩ := h s hs hk
  obtain ⟨u, hu, huk, huf⟩ := h' t ht htk
  exact ⟨u, hu, huk, huf.trans htf⟩

lemma append (states more : List GatewayState) : ForksKept states (states ++ more) :=
  fun s hs hk => ⟨s, List.mem_append_left _ hs, hk, rfl⟩

lemma retired (ids : List Uid) (states : List GatewayState) :
    ForksKept states (retired ids states) := by
  refine fun s hs hk => ⟨_, mem_retired.2 ⟨s, hs, rfl⟩, ?_, ?_⟩
  · split <;> exact hk
  · split <;> rfl

/-- Exchanging a join leaves the forks alone, as ids are not shared. -/
lemma exchanged {j : GatewayState} (hd : (states.map GatewayState.id).Nodup) (hj : j ∈ states)
    (hjk : j.kind = .join) {j' : GatewayState} (hid : j'.id = j.id) :
    ForksKept states (exchanged j' states) := by
  refine fun s hs hk => ⟨s, mem_exchanged.2 (.inr ⟨hs, fun heq => ?_⟩), hk, rfl⟩
  have hsj : s = j := List.inj_on_of_nodup_map hd hs hj (heq.trans hid)
  rw [hsj, hjk] at hk
  cases hk

end ForksKept

/-- A tidy frame that says of its fork what a fork state among the given ones says. -/
structure Frame.Sound (states : List GatewayState) (f : Frame) : Prop where
  tidy : f.Tidy
  fork : ∃ s ∈ states, s.kind = .fork ∧ s.frame = f.bare

namespace Frame.Sound

variable {states later : List GatewayState} {f : Frame}

lemma mono (h : f.Sound states) (hk : ForksKept states later) : f.Sound later := by
  obtain ⟨s, hs, hsk, hsf⟩ := h.fork
  obtain ⟨t, ht, htk, htf⟩ := hk s hs hsk
  exact ⟨h.tidy, t, ht, htk, htf.trans hsf⟩

lemma absorb (h : f.Sound states) (g : Frame) : (f.absorb g).Sound states :=
  ⟨h.tidy.absorb g, h.fork⟩

lemma exists_id (h : f.Sound states) : ∃ s ∈ states, s.kind = .fork ∧ s.id = f.forkId := by
  obtain ⟨s, hs, hsk, hsf⟩ := h.fork
  exact ⟨s, hs, hsk, congrArg Frame.forkId hsf⟩

lemma merge {as bs : List Frame} (ha : ∀ f ∈ as, f.Sound states) :
    ∀ f ∈ Frame.merge as bs, f.Sound states := by
  intro f hf
  obtain ⟨a, hmem, b, -, -, rfl⟩ := mem_merge hf
  exact (ha a hmem).absorb b

end Frame.Sound

/-- A join state that keeps its books in order, among the states of its instance. -/
structure GatewayState.SoundJoin (states : List GatewayState) (j : GatewayState) : Prop where
  counted : 1 ≤ j.completedBranches
  bounded : j.completedBranches ≤ j.activeBranches
  active : j.isActive = true ↔ j.completedBranches < j.activeBranches
  frames : ∃ fs, j.arrivedFrames = some fs ∧ ∀ f ∈ fs, f.Sound states
  scope : ∀ u, j.correlationId = some u → ∃ s ∈ states, s.kind = .fork ∧ s.id = u

namespace GatewayState.SoundJoin

variable {states later : List GatewayState} {j : GatewayState}

lemma mono (h : j.SoundJoin states) (hk : ForksKept states later) : j.SoundJoin later where
  counted := h.counted
  bounded := h.bounded
  active := h.active
  frames := by
    obtain ⟨fs, hfs, hsound⟩ := h.frames
    exact ⟨fs, hfs, fun f hf => (hsound f hf).mono hk⟩
  scope u hu := by
    obtain ⟨s, hs, hsk, rfl⟩ := h.scope u hu
    obtain ⟨t, ht, htk, htf⟩ := hk s hs hsk
    exact ⟨t, ht, htk, congrArg Frame.forkId htf⟩

/-- One more arrival at a join that still waits. -/
lemma arrived (h : j.SoundJoin states) (frames : List Frame) (hk : j.kind = .join)
    (ha : j.isActive = true) :
    (j.arrived frames).SoundJoin states where
  counted := Nat.le_add_left 1 _
  bounded := h.active.1 ha
  active := by
    rw [isActive_arrived j frames hk ha, completedBranches_arrived, activeBranches_arrived]
    have := h.active.1 ha
    omega
  frames := by
    obtain ⟨fs, hfs, hsound⟩ := h.frames
    refine ⟨Frame.merge fs frames, ?_, Frame.Sound.merge hsound⟩
    rw [arrivedFrames_arrived, hfs]
  scope u hu := h.scope u hu

/-- The first arrival at a join. -/
lemma ofJoin {new : NewJoin} {id : Uid} {generation : Nat} {frames : List Frame}
    (hf : ∀ f ∈ frames, f.Sound states)
    (hs : ∀ u, new.correlationId = some u → ∃ s ∈ states, s.kind = .fork ∧ s.id = u) :
    ((GatewayState.ofJoin new id generation).arrived frames).SoundJoin states where
  counted := Nat.le_refl 1
  bounded := Nat.le_max_right _ _
  active := by
    rw [isActive_arrived _ frames rfl rfl, completedBranches_arrived, activeBranches_arrived]
    simp only [GatewayState.ofJoin]
    omega
  frames := ⟨frames, rfl, hf⟩
  scope u hu := hs u hu

end GatewayState.SoundJoin

/-- A fork state is scoped by no other fork, and no frames have arrived at it. -/
structure GatewayState.SoundFork (s : GatewayState) : Prop where
  unscoped : s.correlationId = none
  unreached : s.arrivedFrames = none

/-- The states of an instance in good order: their identifiers are issued and not shared, every join
state keeps its books, and nothing is booked on a fork. -/
structure SoundStates (p : String) (issued : Nat) (states : List GatewayState) : Prop where
  distinct : (states.map GatewayState.id).Nodup
  known : ∀ s ∈ states, s.id.value ≤ issued
  owned : ∀ s ∈ states, s.instanceId = p
  joins : ∀ j ∈ states, j.kind = .join → j.SoundJoin states
  forks : ∀ s ∈ states, s.kind = .fork → s.SoundFork

namespace SoundStates

variable {p : String} {issued : Nat} {states : List GatewayState}

lemma mono (h : SoundStates p issued states) {later : Nat} (hle : issued ≤ later) :
    SoundStates p later states :=
  ⟨h.distinct, fun s hs => Nat.le_trans (h.known s hs) hle, h.owned, h.joins, h.forks⟩

lemma eq_of_id (h : SoundStates p issued states) {a b : GatewayState} (ha : a ∈ states)
    (hb : b ∈ states) (hid : a.id = b.id) : a = b :=
  List.inj_on_of_nodup_map h.distinct ha hb hid

/-- A frame in use names an issued identifier. -/
lemma known_frame (h : SoundStates p issued states) {f : Frame} (hf : f.Sound states) :
    f.forkId.value ≤ issued := by
  obtain ⟨s, hs, -, hid⟩ := hf.exists_id
  exact hid ▸ h.known s hs

/-- A sound state with a new id is added. -/
lemma append (h : SoundStates p issued states) (new : GatewayState) (hid : issued < new.id.value)
    (hp : new.instanceId = p) (hj : new.kind = .join → new.SoundJoin states)
    (hf : new.kind = .fork → new.SoundFork) :
    SoundStates p new.id.value (states ++ [new]) where
  distinct := by
    rw [List.map_append, List.nodup_append]
    refine ⟨h.distinct, by simp, ?_⟩
    simp only [List.mem_map, List.map_cons, List.map_nil, List.mem_singleton, forall_exists_index,
      and_imp, forall_apply_eq_imp_iff₂, forall_eq]
    intro s hs heq
    have := h.known s hs
    rw [heq] at this
    omega
  known s hs := by
    rcases List.mem_append.1 hs with hs | hs
    · exact Nat.le_trans (h.known s hs) hid.le
    · rw [List.mem_singleton.1 hs]
  owned s hs := by
    rcases List.mem_append.1 hs with hs | hs
    · exact h.owned s hs
    · rw [List.mem_singleton.1 hs, hp]
  joins j hmem hk := by
    have hkept := ForksKept.append states [new]
    rcases List.mem_append.1 hmem with hmem | hmem
    · exact (h.joins j hmem hk).mono hkept
    · rw [List.mem_singleton.1 hmem] at hk ⊢
      exact (hj hk).mono hkept
  forks s hs hk := by
    rcases List.mem_append.1 hs with hs | hs
    · exact h.forks s hs hk
    · rw [List.mem_singleton.1 hs] at hk ⊢
      exact hf hk

/-- A join is exchanged for a later state of it. -/
lemma exchange (h : SoundStates p issued states) {j : GatewayState} (j' : GatewayState)
    (hj : j ∈ states) (hk : j.kind = .join) (hk' : j'.kind = .join) (hid : j'.id = j.id)
    (hp : j'.instanceId = p) (hsound : j'.SoundJoin states) :
    SoundStates p issued (exchanged j' states) where
  distinct := by
    rw [map_id_exchanged]
    exact h.distinct
  known s hs := by
    rcases mem_exchanged.1 hs with ⟨rfl, -⟩ | ⟨hs, -⟩
    · exact hid ▸ h.known j hj
    · exact h.known s hs
  owned s hs := by
    rcases mem_exchanged.1 hs with ⟨rfl, -⟩ | ⟨hs, -⟩
    · exact hp
    · exact h.owned s hs
  joins s hs hsk := by
    have hkept := ForksKept.exchanged h.distinct hj hk hid
    rcases mem_exchanged.1 hs with ⟨rfl, -⟩ | ⟨hs, -⟩
    · exact hsound.mono hkept
    · exact (h.joins s hs hsk).mono hkept
  forks s hs hsk := by
    rcases mem_exchanged.1 hs with ⟨rfl, -⟩ | ⟨hs, -⟩
    · rw [hk'] at hsk
      cases hsk
    · exact h.forks s hs hsk

/-- Retiring forks changes no join. -/
lemma mem_retired_join (h : SoundStates p issued states) {ids : List Uid}
    (hids : ∀ u ∈ ids, ∃ s ∈ states, s.kind = .fork ∧ s.id = u) {j : GatewayState}
    (hk : j.kind = .join) : j ∈ retired ids states ↔ j ∈ states := by
  have hkeep : ∀ o ∈ states, o.kind = .join → o.id ∉ ids := by
    intro o ho hok hmem
    obtain ⟨s, hs, hsk, hid⟩ := hids o.id hmem
    rw [h.eq_of_id hs ho hid, hok] at hsk
    cases hsk
  rw [mem_retired]
  constructor
  · rintro ⟨o, ho, rfl⟩
    have hok : o.kind = .join := by
      split at hk <;> exact hk
    rwa [if_neg (hkeep o ho hok)]
  · intro hj
    exact ⟨j, hj, by rw [if_neg (hkeep j hj hk)]⟩

/-- Forks are retired. -/
lemma retire (h : SoundStates p issued states) {ids : List Uid}
    (hids : ∀ u ∈ ids, ∃ s ∈ states, s.kind = .fork ∧ s.id = u) :
    SoundStates p issued (retired ids states) where
  distinct := by
    rw [map_id_retired]
    exact h.distinct
  known s hs := by
    obtain ⟨o, ho, rfl⟩ := mem_retired.1 hs
    split <;> exact h.known o ho
  owned s hs := by
    obtain ⟨o, ho, rfl⟩ := mem_retired.1 hs
    split <;> exact h.owned o ho
  joins j hj hk := (h.joins j ((h.mem_retired_join hids hk).1 hj) hk).mono (.retired ids states)
  forks s hs hk := by
    obtain ⟨o, ho, rfl⟩ := mem_retired.1 hs
    have hok : o.kind = .fork := by
      split at hk <;> exact hk
    have hfork := h.forks o ho hok
    split <;> exact ⟨hfork.unscoped, hfork.unreached⟩

end SoundStates

/-- The identifiers of states are not shared, every join state keeps its books, and nothing is
booked on a fork. -/
structure Workspace.Sound (w : Workspace) : Prop where
  keyed : w.store.Keyed w.supply.issued
  joins : ∀ p, ∀ j ∈ w.store.states p, j.kind = .join → j.SoundJoin (w.store.states p)
  forks : ∀ p, ∀ s ∈ w.store.states p, s.kind = .fork → s.SoundFork

namespace Workspace.Sound

lemma states {w : Workspace} (h : w.Sound) (p : String) :
    SoundStates p w.supply.issued (w.store.states p) where
  distinct := h.keyed.distinct_states p
  known s hs := h.keyed.known s (Store.mem_states.1 hs).1
  owned _ hs := (Store.mem_states.1 hs).2
  joins := h.joins p
  forks := h.forks p

/-- Only the store and the issued identifiers matter. -/
lemma congr {w w' : Workspace} (h : w.Sound) (hs : w'.store = w.store)
    (hi : w.supply.issued ≤ w'.supply.issued) : w'.Sound := by
  refine ⟨?_, ?_, ?_⟩
  · rw [hs]
    exact h.keyed.mono hi
  · rw [hs]
    exact h.joins
  · rw [hs]
    exact h.forks

/-- An action that was confined to one instance leaves a sound workspace if it leaves the states of
that instance in order. -/
lemma confined {p : String} {es : List Event} {w w' : Workspace} (hw : w.Sound)
    (hc : Confined p es w w') {issued : Nat}
    (hs : SoundStates p issued (w'.store.states p)) : w'.Sound where
  keyed := hc.keyed
  joins q := by
    by_cases hq : q = p
    · rw [hq]
      exact hs.joins
    · rw [hc.others q hq]
      exact hw.joins q
  forks q := by
    by_cases hq : q = p
    · rw [hq]
      exact hs.forks
    · rw [hc.others q hq]
      exact hw.forks q

end Workspace.Sound

end ProcessEngine

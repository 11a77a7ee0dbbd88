import ProcessEngine.Proofs.Lists
import ProcessEngine.Proofs.Store.Operations

/-!
# What an instance sees of the store

One store holds the states of all instances and one table all generations.  Of these an instance
sees its own states, in order, and the generations of its own gateways.  `Store.Agree` says that two
stores look the same to an instance; they still do after the same fork or join is created in both.
A generation is given out for one gateway of one instance, so no other instance sees it.
-/

namespace ProcessEngine.Store

variable {s s' : Store} {p : String} {issued : Nat}

/-! ## Generations -/

/-- A generation is given out for one gateway of one instance. -/
lemma generation_nextGeneration (s : Store) (p gateway q other : String) :
    (s.nextGeneration p gateway).2.generation q other =
      if q = p ∧ other = gateway then s.generation p gateway + 1 else s.generation q other := by
  simp only [nextGeneration, generation, lookup_set, beq_iff_eq, Prod.mk.injEq]
  split_ifs <;> rfl

@[simp] lemma generation_insert (s : Store) (state : GatewayState) :
    (s.insert state).generation = s.generation := rfl

@[simp] lemma generation_update (s : Store) (state : GatewayState) :
    (s.update state).generation = s.generation := rfl

lemma generation_createFork (s : Store) (new : NewFork) (id : Uid) :
    (s.createFork new id).2.generation =
      (s.nextGeneration new.instanceId new.gatewayId).2.generation := rfl

/-- A generation is given out for a join that is opened. -/
lemma generation_createJoin (s : Store) (new : NewJoin) (id : Uid) :
    (s.createJoin new id).2.generation =
      if (s.activeJoin? new.instanceId new.gatewayId new.correlationId).isSome then s.generation
      else (s.nextGeneration new.instanceId new.gatewayId).2.generation := by
  rw [createJoin]
  split
  · next hfind => rw [hfind, Option.isSome_some, if_pos rfl]
  · next hfind =>
    rw [hfind, Option.isSome_none, if_neg Bool.false_ne_true]
    rfl

/-- Counting an arrival gives out no generation. -/
lemma generation_recordArrival {id : Uid} {frames : List Frame} {j : GatewayState}
    (h : s.recordArrival id frames = .ok (j, s')) : s'.generation = s.generation := by
  rw [recordArrival, increment] at h
  split at h
  · cases h
  · next hincrement =>
    cases h
    rw [generation_update]
    split at hincrement
    · cases hincrement
    · split_ifs at hincrement
      cases hincrement
      rfl

/-- Putting states back does not turn generations back. -/
@[simp] lemma generation_restore (s : Store) (p : String) (states : List GatewayState) :
    (s.restore p states).generation = s.generation := by
  suffices h : ∀ s : Store, (states.foldl insert s).generation = s.generation from h _
  induction states with
  | nil => exact fun s => rfl
  | cons state rest ih => exact fun s => (ih (s.insert state)).trans (generation_insert s state)

/-- The generations of an instance are forgotten with it. -/
lemma generation_deleteInstance (s : Store) (p q gateway : String) :
    (s.deleteInstance p).2.generation q gateway = if q = p then 0 else s.generation q gateway := by
  have hlookup := lookup_filter (fun key => key.1 != p) s.generations (q, gateway)
  simp only [deleteInstance, generation, hlookup, bne_iff_ne]
  by_cases hq : q = p
  · simp [hq]
  · simp [hq]

/-! ## Stores that look the same to an instance -/

/-- Two stores hold the same states of an instance in the same order, and have given out the same
generations for its gateways. -/
structure Agree (p : String) (s s' : Store) : Prop where
  states : s.states p = s'.states p
  generation : s.generation p = s'.generation p

namespace Agree

lemma refl (p : String) (s : Store) : Agree p s s := ⟨rfl, rfl⟩

lemma symm (h : Agree p s s') : Agree p s' s := ⟨h.states.symm, h.generation.symm⟩

lemma trans {t : Store} (h : Agree p s s') (h' : Agree p s' t) : Agree p s t :=
  ⟨h.states.trans h'.states, h.generation.trans h'.generation⟩

lemma nextGeneration (h : Agree p s s') (gateway : String) :
    Agree p (s.nextGeneration p gateway).2 (s'.nextGeneration p gateway).2 := by
  refine ⟨h.states, funext fun other => ?_⟩
  rw [generation_nextGeneration, generation_nextGeneration, h.generation]

/-- The same fork is created in both stores. -/
lemma createFork (h : Agree p s s') (hk : s.Keyed issued) (hk' : s'.Keyed issued) (new : NewFork)
    (hp : new.instanceId = p) {id : Uid} (hid : issued < id.value) :
    (s.createFork new id).1 = (s'.createFork new id).1 ∧
      Agree p (s.createFork new id).2 (s'.createFork new id).2 := by
  subst hp
  have hfork : (s.createFork new id).1 = (s'.createFork new id).1 := by
    change GatewayState.ofFork new id (s.generation new.instanceId new.gatewayId + 1) =
      GatewayState.ofFork new id (s'.generation new.instanceId new.gatewayId + 1)
    rw [h.generation]
  refine ⟨hfork, ?_, ?_⟩
  · rw [states_createFork hk new hid, states_createFork hk' new hid, hfork, h.states]
  · rw [generation_createFork, generation_createFork]
    exact (h.nextGeneration new.gatewayId).generation

/-- The same generations are given out when the same join is come to in both stores. -/
lemma generation_createJoin (h : Agree p s s') (new : NewJoin) (hp : new.instanceId = p)
    (id : Uid) :
    (s.createJoin new id).2.generation p = (s'.createJoin new id).2.generation p := by
  subst hp
  rw [Store.generation_createJoin, Store.generation_createJoin, activeJoin?_eq, activeJoin?_eq,
    h.states]
  split_ifs
  · exact h.generation
  · exact (h.nextGeneration new.gatewayId).generation

/-- The same instance is forgotten by both stores. -/
lemma deleteInstance (h : Agree p s s') (q : String) :
    Agree p (s.deleteInstance q).2 (s'.deleteInstance q).2 := by
  refine ⟨?_, funext fun gateway => ?_⟩
  · rw [states_deleteInstance, states_deleteInstance, h.states]
  · rw [generation_deleteInstance, generation_deleteInstance, h.generation]

end Agree

/-! ## What other instances see -/

/-- All instances but one see the same in the second store as in the first one. -/
def Spares (p : String) (s s' : Store) : Prop := ∀ q, q ≠ p → Agree q s s'

namespace Spares

lemma refl (p : String) (s : Store) : Spares p s s := fun q _ => .refl q s

lemma trans {t : Store} (h : Spares p s s') (h' : Spares p s' t) : Spares p s t :=
  fun q hq => (h q hq).trans (h' q hq)

lemma createFork (hk : s.Keyed issued) (new : NewFork) {id : Uid} (hid : issued < id.value) :
    Spares new.instanceId s (s.createFork new id).2 := fun q hq => by
  refine ⟨?_, funext fun gateway => ?_⟩
  · rw [states_createFork hk new hid, if_neg (Ne.symm hq), List.append_nil]
  · rw [generation_createFork, generation_nextGeneration, if_neg fun hkey => hq hkey.1]

/-- No generation is given out to another instance when a join is come to. -/
lemma generation_createJoin (s : Store) (new : NewJoin) (id : Uid) {q : String}
    (hq : q ≠ new.instanceId) : s.generation q = (s.createJoin new id).2.generation q := by
  funext gateway
  rw [Store.generation_createJoin]
  split_ifs
  · rfl
  · rw [generation_nextGeneration, if_neg fun hkey => hq hkey.1]

lemma deleteInstance (s : Store) (p : String) : Spares p s (s.deleteInstance p).2 :=
  fun q hq => by
    refine ⟨?_, funext fun gateway => ?_⟩
    · rw [states_deleteInstance, if_neg hq]
    · rw [generation_deleteInstance, if_neg hq]

end Spares

end ProcessEngine.Store

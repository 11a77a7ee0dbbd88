import Mathlib.Data.List.Induction
import ProcessEngine.Proofs.Store.Operations

/-!
# The store over its whole life

`Operation` lists what can be done to a store.  A `Life` is a store with all the stores that it was
before, as the states of an instance can be put back to what they were in any of them.

In every store of a life the states are `Coherent`: ids are not shared, no state counts more
branches than it has, an active join still waits for one, and no two active joins have the same key.
All of this follows from what a single operation can do to the list of states, `Change`.
-/

namespace ProcessEngine

/-! ## Coherent states -/

/-- A state that counts no more branches than it has; a join has at least one, and is not active any
more when the last one has come in. -/
structure GatewayState.Regular (s : GatewayState) : Prop where
  counted : s.completedBranches ≤ s.activeBranches
  expects : s.kind = .join → 1 ≤ s.activeBranches
  waits : s.kind = .join → s.isActive = true → s.completedBranches < s.activeBranches

/-- Regular states with ids of their own, among them at most one active join of each key. -/
structure Coherent (states : List GatewayState) : Prop where
  distinct : (states.map GatewayState.id).Nodup
  regular : ∀ s ∈ states, s.Regular
  sole : ∀ p gateway key, states.countP (Store.isJoinOf p gateway key) ≤ 1

namespace Coherent

variable {states more : List GatewayState}

lemma nil : Coherent [] := ⟨by simp, by simp, by simp⟩

lemma sublist (h : Coherent states) (hs : more.Sublist states) : Coherent more where
  distinct := h.distinct.sublist (hs.map _)
  regular s hmem := h.regular s (hs.mem hmem)
  sole p gateway key := (hs.countP_le).trans (h.sole p gateway key)

lemma of_perm (h : Coherent states) (hs : states.Perm more) : Coherent more where
  distinct := (hs.map _).nodup_iff.1 h.distinct
  regular s hmem := h.regular s (hs.mem_iff.2 hmem)
  sole p gateway key := hs.countP_eq _ ▸ h.sole p gateway key

/-- Two lists of coherent states that share neither ids nor keys of active joins. -/
lemma append (h : Coherent states) (h' : Coherent more)
    (hids : ∀ s ∈ states, ∀ t ∈ more, s.id ≠ t.id)
    (hkeys : ∀ p gateway key, ∀ s ∈ states, ∀ t ∈ more,
      Store.isJoinOf p gateway key s = true → Store.isJoinOf p gateway key t = false) :
    Coherent (states ++ more) where
  distinct := by
    rw [List.map_append, List.nodup_append]
    refine ⟨h.distinct, h'.distinct, ?_⟩
    simpa using hids
  regular s hs := (List.mem_append.1 hs).elim (h.regular s) (h'.regular s)
  sole p gateway key := by
    rw [List.countP_append]
    by_cases hany : ∃ s ∈ states, Store.isJoinOf p gateway key s = true
    · obtain ⟨s, hs, hjoin⟩ := hany
      have hnone : more.countP (Store.isJoinOf p gateway key) = 0 :=
        List.countP_eq_zero.2 fun t ht => by simp [hkeys p gateway key s hs t ht hjoin]
      rw [hnone]
      exact h.sole p gateway key
    · have hnone : states.countP (Store.isJoinOf p gateway key) = 0 :=
        List.countP_eq_zero.2 fun s hs hjoin => hany ⟨s, hs, hjoin⟩
      rw [hnone, Nat.zero_add]
      exact h'.sole p gateway key

/-- A state may be exchanged for a regular one that is no active join of another key. -/
lemma exchanged (h : Coherent states) {old new : GatewayState} (hold : old ∈ states)
    (hid : old.id = new.id) (hnew : new.Regular)
    (hkeys : ∀ p gateway key, Store.isJoinOf p gateway key new = true →
      Store.isJoinOf p gateway key old = true) :
    Coherent (exchanged new states) where
  distinct := by rw [map_id_exchanged]; exact h.distinct
  regular s hs := by
    rcases mem_exchanged.1 hs with ⟨rfl, -⟩ | ⟨hs, -⟩
    · exact hnew
    · exact h.regular s hs
  sole p gateway key := by
    rw [ProcessEngine.exchanged, List.countP_map]
    refine (List.countP_mono_left fun s hs hjoin => ?_).trans (h.sole p gateway key)
    rw [Function.comp_apply] at hjoin
    split_ifs at hjoin with heq
    · rw [List.inj_on_of_nodup_map h.distinct hs hold (heq.trans hid.symm)]
      exact hkeys p gateway key hjoin
    · exact hjoin

end Coherent

/-! ## Changes -/

/-- Every id is one that was given out for the instance of its state. -/
def OwnedBy (given : List (Uid × String)) (states : List GatewayState) : Prop :=
  ∀ s ∈ states, (s.id, s.instanceId) ∈ given

lemma OwnedBy.instanceId_eq {given : List (Uid × String)} {states more : List GatewayState}
    (hgiven : (given.map Prod.fst).Nodup) (h : OwnedBy given states) (h' : OwnedBy given more)
    {s t : GatewayState} (hs : s ∈ states) (ht : t ∈ more) (hid : s.id = t.id) :
    s.instanceId = t.instanceId :=
  congrArg Prod.snd (List.inj_on_of_nodup_map hgiven (h s hs) (h' t ht) hid)

/-- What an operation can do to the stored states: nothing, add a state, exchange one, drop those of
an instance, or put them back to what they were in an earlier store. -/
inductive Change (given : List (Uid × String)) (earlier : List Store) :
    List GatewayState → List GatewayState → Prop
  | keep {states : List GatewayState} : Change given earlier states states
  | add {states : List GatewayState} (new : GatewayState) (hids : ∀ s ∈ states, s.id ≠ new.id)
      (hgiven : (new.id, new.instanceId) ∈ given) (hnew : new.Regular)
      (hkeys : ∀ p gateway key, Store.isJoinOf p gateway key new = true → ∀ s ∈ states,
        Store.isJoinOf p gateway key s = false) :
      Change given earlier states (states ++ [new])
  | exchange {states : List GatewayState} {old new : GatewayState} (hold : old ∈ states)
      (hid : old.id = new.id) (hinstance : old.instanceId = new.instanceId) (hnew : new.Regular)
      (hkeys : ∀ p gateway key, Store.isJoinOf p gateway key new = true →
        Store.isJoinOf p gateway key old = true) :
      Change given earlier states (exchanged new states)
  | drop {states : List GatewayState} (p : String) :
      Change given earlier states (states.filter (·.instanceId != p))
  | putBack {states : List GatewayState} (p : String) {old : Store} (hold : old ∈ earlier) :
      Change given earlier states (states.filter (·.instanceId != p) ++ old.states p)

namespace Change

variable {earlier : List Store} {given : List (Uid × String)} {states states' : List GatewayState}

lemma owned (hc : Change given earlier states states') (h : OwnedBy given states)
    (hearlier : ∀ s ∈ earlier, OwnedBy given s.all) : OwnedBy given states' := by
  intro s hs
  cases hc with
  | keep => exact h s hs
  | add new _ hgiven =>
    rcases List.mem_append.1 hs with hold | hadded
    · exact h s hold
    · rwa [List.mem_singleton.1 hadded]
  | exchange hold hid hinstance =>
    rcases mem_exchanged.1 hs with ⟨rfl, -⟩ | ⟨hs, -⟩
    · rw [← hid, ← hinstance]
      exact h _ hold
    · exact h s hs
  | drop => exact h s (List.mem_filter.1 hs).1
  | putBack p hold =>
    rcases List.mem_append.1 hs with hs | hs
    · exact h s (List.mem_filter.1 hs).1
    · exact hearlier _ hold s (Store.mem_states.1 hs).1

/-- A change of coherent states leaves coherent states. -/
lemma coherent (hc : Change given earlier states states') (hgiven : (given.map Prod.fst).Nodup)
    (h : Coherent states) (hstates : OwnedBy given states)
    (hearlier : ∀ s ∈ earlier, Coherent s.all ∧ OwnedBy given s.all) : Coherent states' := by
  cases hc with
  | keep => exact h
  | add new hids _ hnew hkeys =>
    refine h.append ⟨by simp, by simpa using hnew, fun p gateway key => ?_⟩ (by simpa using hids)
      fun p gateway key s hs t ht hjoin => ?_
    · exact (List.countP_le_length).trans (Nat.le_refl 1)
    · rw [List.mem_singleton.1 ht, Bool.eq_false_iff]
      intro hnewjoin
      rw [hkeys p gateway key hnewjoin s hs] at hjoin
      cases hjoin
  | exchange hold hid _ hnew hkeys => exact h.exchanged hold hid hnew hkeys
  | drop => exact h.sublist List.filter_sublist
  | putBack p hold =>
    obtain ⟨hcoherent, howned⟩ := hearlier _ hold
    refine (h.sublist List.filter_sublist).append
      (hcoherent.sublist (Store.states_eq_filter _ p ▸ List.filter_sublist)) ?_ ?_
    · intro s hs t ht hid
      obtain ⟨hmem, hne⟩ := List.mem_filter.1 hs
      refine (by simpa using hne : s.instanceId ≠ p) ?_
      rw [hstates.instanceId_eq hgiven howned hmem (Store.mem_states.1 ht).1 hid,
        (Store.mem_states.1 ht).2]
    · intro q gateway key s hs t ht hjoin
      have hne : s.instanceId ≠ p := by simpa using (List.mem_filter.1 hs).2
      have ht : t.instanceId = p := (Store.mem_states.1 ht).2
      simp only [Store.isJoinOf, Bool.and_eq_true, beq_iff_eq] at hjoin
      have hq : q ≠ p := hjoin.1.1.2 ▸ hne
      simp [Store.isJoinOf, ht, hq.symm]

end Change

/-! ## Operations -/

/-- What can be done to a store.  Ids of new states are given from outside; an instance can be put
back to what it was a number of operations ago. -/
inductive Operation where
  | createFork (new : NewFork) (id : Uid)
  | createJoin (new : NewJoin) (id : Uid)
  | increment (id : Uid)
  | recordArrival (id : Uid) (frames : List Frame)
  | complete (id : Uid)
  | deleteInstance (instanceId : String)
  | restore (instanceId : String) (age : Nat)

namespace Operation

/-- The id that an operation gives out, and the instance that it is for. -/
def gives : Operation → Option (Uid × String)
  | createFork new id => some (id, new.instanceId)
  | createJoin new id => some (id, new.instanceId)
  | _ => none

/-- The store after an operation, by all stores so far, the latest first.  An operation that is
refused leaves it as it was. -/
def apply (op : Operation) (sofar : List Store) (s : Store) : Store :=
  match op with
  | createFork new id => (s.createFork new id).2
  | createJoin new id => (s.createJoin new id).2
  | increment id =>
    match s.increment id with
    | .ok (_, s') => s'
    | .error _ => s
  | recordArrival id frames =>
    match s.recordArrival id frames with
    | .ok (_, s') => s'
    | .error _ => s
  | complete id =>
    match s.complete id with
    | .ok s' => s'
    | .error _ => s
  | deleteInstance p => (s.deleteInstance p).2
  | restore p age =>
    match sofar[age]? with
    | some old => s.restore p (old.states p)
    | none => s

end Operation

namespace GatewayState

/-- One more branch of a state that still expects one. -/
lemma Regular.countBranch {s : GatewayState} (h : s.Regular)
    (hopen : s.completedBranches < s.activeBranches) : s.countBranch.Regular where
  counted := hopen
  expects := h.expects
  waits hk hactive := by
    simp only [GatewayState.countBranch, Bool.and_eq_true, Bool.not_eq_true', Bool.and_eq_false_iff,
      beq_eq_false_iff_ne] at hk hactive ⊢
    have hne := hactive.2.resolve_left (not_not_intro hk)
    omega

lemma regular_ofFork (new : NewFork) (id : Uid) (generation : Nat) :
    (ofFork new id generation).Regular :=
  ⟨Nat.zero_le _, by simp [ofFork], by simp [ofFork]⟩

lemma regular_ofJoin (new : NewJoin) (id : Uid) (generation : Nat) :
    (ofJoin new id generation).Regular :=
  ⟨Nat.zero_le _, fun _ => Nat.le_max_right _ _, fun _ _ => Nat.le_max_right _ _⟩

lemma Regular.fold {s : GatewayState} (h : s.Regular) (frames : List Frame) :
    (s.fold frames).Regular := ⟨h.counted, h.expects, h.waits⟩

lemma Regular.complete {s : GatewayState} (h : s.Regular) :
    ({ s with isActive := false } : GatewayState).Regular :=
  ⟨h.counted, h.expects, fun _ hactive => by cases hactive⟩

/-- An active join was the active join of its key before it counted a branch. -/
lemma isJoinOf_countBranch {s : GatewayState} {p gateway : String} {key : Option Uid}
    (h : Store.isJoinOf p gateway key s.countBranch = true) :
    Store.isJoinOf p gateway key s = true := by
  simp only [Store.isJoinOf, GatewayState.countBranch, Bool.and_eq_true] at h ⊢
  tauto

end GatewayState

namespace Store

variable {s : Store}

lemma mem_of_get? {id : Uid} {state : GatewayState} (h : s.get? id = some state) :
    state ∈ s.all ∧ state.id = id := by
  rw [get?_eq_find] at h
  exact ⟨List.mem_of_find?_eq_some h, by simpa using List.find?_some h⟩

/-- Counting one more branch exchanges the state. -/
lemma increment_eq_ok {id : Uid} {state : GatewayState} {s' : Store}
    (h : s.increment id = .ok (state, s')) :
    ∃ old ∈ s.all, state = old.countBranch ∧ s' = s.update state ∧ old.id = id ∧
      old.isActive = true ∧ old.completedBranches < old.activeBranches := by
  rw [increment] at h
  split at h
  · cases h
  · next old hget =>
    obtain ⟨hmem, hid⟩ := mem_of_get? hget
    split_ifs at h with hactive hopen
    cases h
    exact ⟨old, hmem, rfl, rfl, hid, by simpa using hactive, by omega⟩

/-- Sequence numbers are in ascending order, and none is above the last one that was given out. -/
structure Numbered (s : Store) : Prop where
  ascending : s.entries.Pairwise (·.sequence < ·.sequence)
  known : ∀ e ∈ s.entries, e.sequence ≤ s.lastSequence

namespace Numbered

lemma insert (h : s.Numbered) (state : GatewayState) : (s.insert state).Numbered where
  ascending := by
    refine List.pairwise_append.2 ⟨h.ascending.sublist List.filter_sublist, by simp, ?_⟩
    intro e he e' he'
    rw [List.mem_singleton.1 he']
    exact Nat.lt_succ_of_le (h.known e (List.mem_filter.1 he).1)
  known e he := by
    rcases List.mem_append.1 he with he | he
    · exact Nat.le_succ_of_le (h.known e (List.mem_filter.1 he).1)
    · rw [List.mem_singleton.1 he]
      exact Nat.le_refl _

lemma update (h : s.Numbered) (state : GatewayState) : (s.update state).Numbered where
  ascending := by
    refine List.pairwise_map.2 (h.ascending.imp fun {a b} hlt => ?_)
    split_ifs <;> exact hlt
  known e he := by
    obtain ⟨o, ho, rfl⟩ := List.mem_map.1 he
    split_ifs <;> exact h.known o ho

lemma dropStates (h : s.Numbered) (p : String) : (s.dropStates p).Numbered where
  ascending := h.ascending.sublist List.filter_sublist
  known e he := h.known e (List.mem_filter.1 he).1

lemma foldl_insert (states : List GatewayState) {s : Store} (h : s.Numbered) :
    (states.foldl Store.insert s).Numbered := by
  induction states generalizing s with
  | nil => exact h
  | cons o rest ih => exact ih (h.insert o)

end Numbered

lemma all_foldl_insert (states : List GatewayState) {s : Store}
    (hd : (states.map GatewayState.id).Nodup)
    (hf : ∀ o ∈ states, ∀ x ∈ s.all, x.id ≠ o.id) :
    (states.foldl insert s).all = s.all ++ states := by
  induction states generalizing s with
  | nil => simp
  | cons o rest ih =>
    rw [List.map_cons, List.nodup_cons] at hd
    have ho := hf o List.mem_cons_self
    rw [List.foldl_cons, ih hd.2, all_insert ho, List.append_assoc, List.singleton_append]
    intro x hx y hy
    rw [all_insert ho] at hy
    rcases List.mem_append.1 hy with hy | hy
    · exact hf x (List.mem_cons_of_mem _ hx) y hy
    · rw [List.mem_singleton.1 hy]
      exact fun heq => hd.1 (heq ▸ List.mem_map_of_mem hx)

/-- When the states of an instance are put back to what they were in an earlier store, no other
instance has one of their ids. -/
lemma all_restore {given : List (Uid × String)} {old : Store} {p : String}
    (hgiven : (given.map Prod.fst).Nodup) (hs : OwnedBy given s.all) (hcoherent : Coherent old.all)
    (howned : OwnedBy given old.all) :
    (s.restore p (old.states p)).all = s.all.filter (·.instanceId != p) ++ old.states p := by
  rw [restore, all_foldl_insert, all_dropStates]
  · rw [states_eq_filter]
    exact hcoherent.distinct.sublist (List.filter_sublist.map _)
  · intro o ho x hx hid
    rw [all_dropStates, List.mem_filter, bne_iff_ne] at hx
    refine hx.2 ?_
    rw [hs.instanceId_eq hgiven howned hx.1 (mem_states.1 ho).1 hid, (mem_states.1 ho).2]

end Store

namespace Change

variable {s : Store} {given : List (Uid × String)} {earlier : List Store}

lemma createFork (new : NewFork) {id : Uid} (hgiven : (id, new.instanceId) ∈ given)
    (hfresh : ∀ o ∈ s.all, o.id ≠ id) : Change given earlier s.all (s.createFork new id).2.all := by
  have hall : (s.createFork new id).2.all = s.all ++ [(s.createFork new id).1] :=
    Store.all_insert (s := (s.nextGeneration new.instanceId new.gatewayId).2) hfresh
  rw [hall]
  exact .add _ hfresh hgiven (GatewayState.regular_ofFork _ _ _) fun p gateway key hjoin => by
    simp [Store.createFork, Store.isJoinOf, GatewayState.ofFork] at hjoin

/-- A join is only added if there is no active one of its key. -/
lemma createJoin (new : NewJoin) {id : Uid} (hgiven : (id, new.instanceId) ∈ given)
    (hfresh : ∀ o ∈ s.all, o.id ≠ id) : Change given earlier s.all (s.createJoin new id).2.all := by
  rw [Store.createJoin]
  split
  · exact .keep
  · next hnone =>
    have hall : ((s.nextGeneration new.instanceId new.gatewayId).2.insert
          (.ofJoin new id (s.generation new.instanceId new.gatewayId + 1))).all =
        s.all ++ [.ofJoin new id (s.generation new.instanceId new.gatewayId + 1)] :=
      Store.all_insert hfresh
    refine hall ▸ .add _ hfresh hgiven (GatewayState.regular_ofJoin _ _ _)
      fun p gateway key hjoin o ho => ?_
    simp only [Store.isJoinOf, GatewayState.ofJoin, Bool.and_eq_true, beq_iff_eq] at hjoin
    obtain ⟨⟨⟨-, rfl⟩, rfl⟩, rfl⟩ := hjoin
    exact Bool.eq_false_iff.2 (List.find?_eq_none.1 hnone o ho)

/-- A state only counts a branch if it still waits for one. -/
lemma increment {id : Uid} {state : GatewayState} {s' : Store} (h : Coherent s.all)
    (heq : s.increment id = .ok (state, s')) : Change given earlier s.all s'.all := by
  obtain ⟨old, hold, rfl, rfl, -, hactive, hopen⟩ := Store.increment_eq_ok heq
  rw [Store.all_update]
  exact .exchange hold rfl rfl ((h.regular old hold).countBranch hopen) fun _ _ _ =>
    GatewayState.isJoinOf_countBranch

lemma recordArrival (id : Uid) (frames : List Frame) (h : Coherent s.all) :
    Change given earlier s.all
      ((Operation.recordArrival id frames).apply earlier s).all := by
  rw [Operation.apply, Store.recordArrival]
  cases hincrement : s.increment id with
  | error e => exact .keep
  | ok result =>
    obtain ⟨state, s'⟩ := result
    obtain ⟨old, hold, rfl, rfl, -, hactive, hopen⟩ := Store.increment_eq_ok hincrement
    dsimp only
    rw [Store.all_update, Store.all_update,
      Store.exchanged_exchanged old.countBranch (old.countBranch.fold frames) rfl]
    exact .exchange hold rfl rfl (((h.regular old hold).countBranch hopen).fold frames)
      fun _ _ _ hjoin => GatewayState.isJoinOf_countBranch (s := old) hjoin

lemma complete (id : Uid) (h : Coherent s.all) :
    Change given earlier s.all ((Operation.complete id).apply earlier s).all := by
  rw [Operation.apply, Store.complete]
  cases hget : s.get? id with
  | none => exact .keep
  | some old =>
    obtain ⟨hold, -⟩ := Store.mem_of_get? hget
    dsimp only
    rw [Store.all_update]
    exact .exchange hold rfl rfl (h.regular old hold).complete fun _ _ _ hjoin => by
      simp [Store.isJoinOf] at hjoin

/-- The states that are put back are all that there are of the instance. -/
lemma restore (p : String) {old : Store} (hold : old ∈ earlier)
    (hgiven : (given.map Prod.fst).Nodup) (hs : OwnedBy given s.all) (hcoherent : Coherent old.all)
    (howned : OwnedBy given old.all) :
    Change given earlier s.all (s.restore p (old.states p)).all := by
  rw [Store.all_restore hgiven hs hcoherent howned]
  exact .putBack p hold

end Change

namespace Operation

variable {s : Store} {given : List (Uid × String)} {sofar : List Store}

/-- The change that an operation makes. -/
lemma apply_change (op : Operation) (h : Coherent s.all) (hs : OwnedBy given s.all)
    (hgiven : (given.map Prod.fst).Nodup)
    (hsofar : ∀ old ∈ sofar, Coherent old.all ∧ OwnedBy given old.all)
    (hgives : ∀ id p, op.gives = some (id, p) → (id, p) ∈ given ∧ ∀ o ∈ s.all, o.id ≠ id) :
    Change given sofar s.all (op.apply sofar s).all := by
  cases op with
  | createFork new id =>
    obtain ⟨hmem, hfresh⟩ := hgives id new.instanceId rfl
    exact .createFork new hmem hfresh
  | createJoin new id =>
    obtain ⟨hmem, hfresh⟩ := hgives id new.instanceId rfl
    exact .createJoin new hmem hfresh
  | increment id =>
    rw [apply]
    split
    · next heq => exact .increment h heq
    · exact .keep
  | recordArrival id frames => exact .recordArrival id frames h
  | complete id => exact .complete id h
  | deleteInstance p =>
    rw [apply, show (s.deleteInstance p).2.all = (s.dropStates p).all from rfl,
      Store.all_dropStates]
    exact .drop p
  | restore p age =>
    rw [apply]
    split
    · next old hage =>
      have hmem := List.mem_of_getElem? hage
      obtain ⟨hcoherent, howned⟩ := hsofar old hmem
      exact .restore p hmem hgiven hs hcoherent howned
    · exact .keep

/-- Sequence numbers stay in ascending order, and none is above the last one that was given out. -/
lemma apply_numbered (op : Operation) (h : s.Numbered) : (op.apply sofar s).Numbered := by
  cases op with
  | createFork new id =>
    exact Store.Numbered.insert (s := (s.nextGeneration new.instanceId new.gatewayId).2)
      ⟨h.ascending, h.known⟩ _
  | createJoin new id =>
    rw [apply, Store.createJoin]
    split
    · exact h
    · exact Store.Numbered.insert (s := (s.nextGeneration new.instanceId new.gatewayId).2)
        ⟨h.ascending, h.known⟩ _
  | increment id =>
    rw [apply]
    split
    · next heq =>
      obtain ⟨old, -, -, rfl, -⟩ := Store.increment_eq_ok heq
      exact h.update _
    · exact h
  | recordArrival id frames =>
    rw [apply, Store.recordArrival]
    cases hincrement : s.increment id with
    | error e => exact h
    | ok result =>
      obtain ⟨state, s'⟩ := result
      obtain ⟨old, -, -, rfl, -⟩ := Store.increment_eq_ok hincrement
      exact (h.update _).update _
  | complete id =>
    rw [apply, Store.complete]
    cases s.get? id with
    | none => exact h
    | some old => exact h.update _
  | deleteInstance p => exact ⟨(h.dropStates p).ascending, (h.dropStates p).known⟩
  | restore p age =>
    rw [apply]
    split
    · exact .foldl_insert _ (h.dropStates p)
    · exact h

end Operation

/-! ## Lives -/

/-- A store with all the stores that it was before, the latest first. -/
structure Life where
  now : Store
  past : List Store

namespace Life

/-- All stores so far, the latest first. -/
def sofar (l : Life) : List Store := l.now :: l.past

/-- The life after one more operation. -/
def step (l : Life) (op : Operation) : Life := ⟨op.apply l.sofar l.now, l.sofar⟩

/-- The life of a store that was empty at first. -/
def through (ops : List Operation) : Life := ops.foldl step ⟨.empty, []⟩

@[simp] lemma through_concat (ops : List Operation) (op : Operation) :
    through (ops ++ [op]) = (through ops).step op := by
  simp [through]

end Life

/-- Ids are given out once. -/
def Fresh (ops : List Operation) : Prop := ((ops.filterMap Operation.gives).map Prod.fst).Nodup

lemma Fresh.of_append {ops more : List Operation} (h : Fresh (ops ++ more)) : Fresh ops := by
  rw [Fresh, List.filterMap_append, List.map_append] at h
  exact (List.nodup_append.1 h).1

namespace Life

/-- Every store of a life is coherent, its states are numbered in order, and its ids are among those
that were given out. -/
lemma through_sound {ops : List Operation} (hf : Fresh ops) :
    ∀ s ∈ (through ops).sofar,
      Coherent s.all ∧ s.Numbered ∧ OwnedBy (ops.filterMap Operation.gives) s.all := by
  induction ops using List.reverseRecOn with
  | nil =>
    intro s hs
    obtain rfl : s = .empty := List.mem_singleton.1 hs
    exact ⟨.nil, ⟨.nil, fun e he => by cases he⟩, fun o ho => by cases ho⟩
  | append_singleton ops op ih =>
    have hsofar := ih hf.of_append
    have hlater : ∀ {states}, OwnedBy (ops.filterMap Operation.gives) states →
        OwnedBy ((ops ++ [op]).filterMap Operation.gives) states := by
      intro states h s hs
      rw [List.filterMap_append]
      exact List.mem_append_left _ (h s hs)
    have hearlier : ∀ s ∈ (through ops).sofar, Coherent s.all ∧
        OwnedBy ((ops ++ [op]).filterMap Operation.gives) s.all :=
      fun s hs => ⟨(hsofar s hs).1, hlater (hsofar s hs).2.2⟩
    obtain ⟨hcoherent, hnumbered, howned⟩ := hsofar (through ops).now List.mem_cons_self
    have hgives : ∀ id p, op.gives = some (id, p) →
        (id, p) ∈ (ops ++ [op]).filterMap Operation.gives ∧
          ∀ o ∈ (through ops).now.all, o.id ≠ id := by
      intro id p heq
      refine ⟨by simp [heq], fun o ho hid => ?_⟩
      rw [Fresh, List.filterMap_append, List.map_append, List.nodup_append] at hf
      refine hf.2.2 o.id (List.mem_map_of_mem (howned o ho)) id (by simp [heq]) hid
    have hchange := op.apply_change hcoherent (hlater howned) hf hearlier hgives
    rw [through_concat]
    intro s hs
    rcases List.mem_cons.1 hs with rfl | hs
    · exact ⟨hchange.coherent hf hcoherent (hlater howned) hearlier, op.apply_numbered hnumbered,
        hchange.owned (hlater howned) fun s hs => (hearlier s hs).2⟩
    · obtain ⟨hc, hn, ho⟩ := hsofar s hs
      exact ⟨hc, hn, hlater ho⟩

end Life

end ProcessEngine

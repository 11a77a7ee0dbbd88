import Mathlib.Data.List.Sort
import ProcessEngine.Proofs.Lists
import ProcessEngine.Proofs.Store.Coherent

/-!
# The store in hash tables

The store lists its states in the order in which they came in.  `Tables` keeps the same data in two
hash tables, one for the states and one for the numbers of their creation, of which nothing is
promised about the order in which they are gone through: each list of `Tables` stands for one such
order, and after every operation there may be another one (`Tables.Lives`).

As the states are coherent in every store of a life, tables that went through the same operations
give the same answers as the store, in whatever order they are gone through
(`order_does_not_matter`).
-/

namespace ProcessEngine

/-- What a hash table holds by ids, in the order in which it is gone through. -/
abbrev Table (β : Type) := List (Uid × β)

namespace Table

variable {β : Type}

/-- The value under an id. -/
def get? (t : Table β) (id : Uid) : Option β := (t.find? (·.1 == id)).map Prod.snd

/-- Stores a value under an id, in place of one that is there. -/
def put (t : Table β) (id : Uid) (value : β) : Table β := (id, value) :: t.filter (·.1 != id)

/-- Changes the value under an id. -/
def set (t : Table β) (id : Uid) (value : β) : Table β :=
  t.map fun e => if e.1 == id then (e.1, value) else e

/-- Removes what is stored under the given ids. -/
def remove (t : Table β) (ids : List Uid) : Table β := t.filter (!ids.contains ·.1)

end Table

/-- The states and the numbers of their creation by ids; the last such number; and the last
generation given out for each instance and gateway. -/
structure Tables where
  states : Table GatewayState
  sequences : Table Nat
  lastSequence : Nat
  generations : List ((String × String) × Nat)

namespace Tables

/-! ## Operations -/

/-- Tables without states. -/
def empty : Tables := ⟨[], [], 0, []⟩

/-- The stored states. -/
def values (t : Tables) : List GatewayState := t.states.map Prod.snd

/-- Gives out the next generation for an instance and a gateway. -/
def nextGeneration (t : Tables) (instanceId gatewayId : String) : Nat × Tables :=
  let key := (instanceId, gatewayId)
  let next := (t.generations.lookup key).getD 0 + 1
  (next, { t with generations := (key, next) :: t.generations.filter (·.1 != key) })

/-- Stores a state with the next number. -/
def insert (t : Tables) (state : GatewayState) : Tables :=
  let sequence := t.lastSequence + 1
  { t with
    states := t.states.put state.id state
    sequences := t.sequences.put state.id sequence
    lastSequence := sequence }

/-- Removes the states of an instance, and their numbers. -/
def removeInstance (t : Tables) (instanceId : String) : Tables :=
  let ids := (t.values.filter (·.instanceId == instanceId)).map GatewayState.id
  { t with
    states := t.states.remove ids
    sequences := t.sequences.remove ids }

/-- The first active join of the key that turns up. -/
def joinState (t : Tables) (instanceId gatewayId : String) (correlationId : Option Uid) :
    Option GatewayState :=
  t.values.find? (Store.isJoinOf instanceId gatewayId correlationId)

/-- A state with the number of its creation. -/
def numbered (t : Tables) (s : GatewayState) : Nat × GatewayState :=
  ((t.sequences.get? s.id).getD 0, s)

/-- The states of an instance, sorted by their numbers. -/
def statesOf (t : Tables) (instanceId : String) : List GatewayState :=
  (((t.values.filter (·.instanceId == instanceId)).map t.numbered).mergeSort
    fun a b => decide (a.1 ≤ b.1)).map Prod.snd

/-- The active states of an instance, sorted by their numbers, the greatest first. -/
def activeStatesOf (t : Tables) (instanceId : String) : List GatewayState :=
  (((t.values.filter fun s => s.isActive && s.instanceId == instanceId).map t.numbered).mergeSort
    fun a b => decide (b.1 ≤ a.1)).map Prod.snd

/-- Stores the state of a new fork. -/
def createFork (t : Tables) (new : NewFork) (id : Uid) : GatewayState × Tables :=
  let (generation, t) := t.nextGeneration new.instanceId new.gatewayId
  let state := GatewayState.ofFork new id generation
  (state, t.insert state)

/-- Some active join of the key, or a new one. -/
def createJoin (t : Tables) (new : NewJoin) (id : Uid) : GatewayState × Tables :=
  match t.joinState new.instanceId new.gatewayId new.correlationId with
  | some state => (state, t)
  | none =>
    let (generation, t) := t.nextGeneration new.instanceId new.gatewayId
    let state := GatewayState.ofJoin new id generation
    (state, t.insert state)

/-- Changes a stored state. -/
def update (t : Tables) (state : GatewayState) : Tables :=
  { t with states := t.states.set state.id state }

/-- Counts one more branch of an active state that still expects one. -/
def increment (t : Tables) (id : Uid) : Except EngineError (GatewayState × Tables) :=
  match t.states.get? id with
  | none => .error (.stateNotFound id)
  | some state =>
    if !state.isActive then .error (.joinResolved id)
    else if state.activeBranches ≤ state.completedBranches then
      .error (.branchCountExceeded id state.activeBranches)
    else
      let state := state.countBranch
      .ok (state, t.update state)

/-- Counts one more branch and folds in the frames of the token that brought it. -/
def recordArrival (t : Tables) (id : Uid) (frames : List Frame) :
    Except EngineError (GatewayState × Tables) :=
  match t.increment id with
  | .error e => .error e
  | .ok (state, t) =>
    let state := state.fold frames
    .ok (state, t.update state)

/-- Marks a state inactive. -/
def complete (t : Tables) (id : Uid) : Except EngineError Tables :=
  match t.states.get? id with
  | none => .error (.stateNotFound id)
  | some state => .ok (t.update { state with isActive := false })

/-- Forgets an instance, its generations included. -/
def deleteInstance (t : Tables) (instanceId : String) : Tables :=
  { t.removeInstance instanceId with
    generations := t.generations.filter (·.1.1 != instanceId) }

/-- Puts the states of an instance back to an earlier list of them. -/
def restore (t : Tables) (instanceId : String) (states : List GatewayState) : Tables :=
  states.foldl insert (t.removeInstance instanceId)

/-- The tables after an operation, by all tables so far. -/
def apply (t : Tables) (sofar : List Tables) : Operation → Tables
  | .createFork new id => (t.createFork new id).2
  | .createJoin new id => (t.createJoin new id).2
  | .increment id =>
    match t.increment id with
    | .ok (_, t') => t'
    | .error _ => t
  | .recordArrival id frames =>
    match t.recordArrival id frames with
    | .ok (_, t') => t'
    | .error _ => t
  | .complete id =>
    match t.complete id with
    | .ok t' => t'
    | .error _ => t
  | .deleteInstance p => t.deleteInstance p
  | .restore p age =>
    match sofar[age]? with
    | some old => t.restore p (old.statesOf p)
    | none => t

/-- The same tables, perhaps in another order. -/
structure Reordered (t t' : Tables) : Prop where
  states : t.states.Perm t'.states
  sequences : t.sequences.Perm t'.sequences
  lastSequence : t.lastSequence = t'.lastSequence
  generations : t.generations = t'.generations

/-- The tables that a sequence of operations can lead to, and the tables before that, the latest
first. -/
inductive Lives : List Operation → Tables → List Tables → Prop
  | start : Lives [] empty []
  | step {ops : List Operation} {t t' : Tables} {past : List Tables} (op : Operation)
      (h : Lives ops t past) (horder : (t.apply (t :: past) op).Reordered t') :
      Lives (ops ++ [op]) t' (t :: past)

/-- Coherent states, each with a number of its own. -/
structure Invariant (t : Tables) : Prop where
  coherent : Coherent t.values
  numbered : (t.sequences.map Prod.fst).Perm (t.values.map GatewayState.id)
  distinct : (t.sequences.map Prod.snd).Nodup

/-- The tables give the answers of the store. -/
structure Answers (t : Tables) (s : Store) : Prop where
  createJoin : ∀ new id, (t.createJoin new id).1 = (s.createJoin new id).1
  joinState : ∀ p gateway key, t.joinState p gateway key = s.activeJoin? p gateway key
  states : ∀ p, t.statesOf p = s.states p
  activeStates : ∀ p, t.activeStatesOf p = s.activeStates p

/-! ## Tables of a store -/

/-- The tables hold what the store does. -/
structure Hold (t : Tables) (s : Store) : Prop where
  states : t.states.Perm (s.entries.map fun e => (e.state.id, e.state))
  sequences : t.sequences.Perm (s.entries.map fun e => (e.state.id, e.sequence))
  lastSequence : t.lastSequence = s.lastSequence
  generations : t.generations = s.generations

namespace Hold

variable {t t' : Tables} {s : Store}

lemma reordered (h : t.Hold s) (ht : t.Reordered t') : t'.Hold s where
  states := ht.states.symm.trans h.states
  sequences := ht.sequences.symm.trans h.sequences
  lastSequence := ht.lastSequence.symm.trans h.lastSequence
  generations := ht.generations.symm.trans h.generations

lemma values (h : t.Hold s) : t.values.Perm s.all := by
  have hmap := h.states.map Prod.snd
  rwa [List.map_map] at hmap

lemma insert (h : t.Hold s) (state : GatewayState) : (t.insert state).Hold (s.insert state) where
  states := by
    simp only [Tables.insert, Table.put, Store.insert, List.map_append, List.map_singleton]
    refine ((h.states.filter _).cons _).trans ?_
    rw [List.filter_map]
    exact (List.perm_append_singleton _ _).symm
  sequences := by
    simp only [Tables.insert, Table.put, Store.insert, List.map_append, List.map_singleton]
    rw [h.lastSequence]
    refine ((h.sequences.filter _).cons _).trans ?_
    rw [List.filter_map]
    exact (List.perm_append_singleton _ _).symm
  lastSequence := by
    simp only [Tables.insert, Store.insert, h.lastSequence]
  generations := h.generations

lemma foldl_insert (states : List GatewayState) {t : Tables} {s : Store} (h : t.Hold s) :
    (states.foldl Tables.insert t).Hold (states.foldl Store.insert s) := by
  induction states generalizing t s with
  | nil => exact h
  | cons o rest ih => exact ih (h.insert o)

lemma update (h : t.Hold s) (state : GatewayState) : (t.update state).Hold (s.update state) where
  states := by
    refine (h.states.map _).trans (.of_eq ?_)
    simp only [Store.update, List.map_map, List.map_inj_left, Function.comp_apply, beq_iff_eq]
    intro e _
    split_ifs with heq
    · rw [heq]
    · rfl
  sequences := by
    refine h.sequences.trans (.of_eq ?_)
    simp only [Store.update, List.map_map, List.map_inj_left, Function.comp_apply, beq_iff_eq]
    intro e _
    split_ifs with heq
    · rw [heq]
    · rfl
  lastSequence := h.lastSequence
  generations := h.generations

/-- Two entries with the same id are of the same instance. -/
lemma removeInstance (h : t.Hold s) (hs : Coherent s.all) (p : String) :
    (t.removeInstance p).Hold (s.dropStates p) := by
  have hids : ∀ e ∈ s.entries,
      ((t.values.filter (·.instanceId == p)).map GatewayState.id).contains e.state.id =
        (e.state.instanceId == p) := by
    intro e he
    rw [Bool.eq_iff_iff, List.contains_iff_mem, List.mem_map, beq_iff_eq]
    constructor
    · rintro ⟨o, ho, hid⟩
      obtain ⟨hmem, hp⟩ := List.mem_filter.1 ho
      rw [← List.inj_on_of_nodup_map hs.distinct (h.values.mem_iff.1 hmem)
        (List.mem_map_of_mem he) hid]
      simpa using hp
    · intro hp
      exact ⟨e.state, List.mem_filter.2 ⟨h.values.mem_iff.2 (List.mem_map_of_mem he), by simpa⟩,
        rfl⟩
  have hkept : s.entries.filter (fun e => !((t.values.filter (·.instanceId == p)).map
      GatewayState.id).contains e.state.id) = s.entries.filter (·.state.instanceId != p) :=
    List.filter_congr fun e he => by rw [hids e he]; rfl
  refine ⟨?_, ?_, h.lastSequence, h.generations⟩
  · refine (h.states.filter _).trans ?_
    rw [List.filter_map, Store.dropStates]
    exact .of_eq (congrArg (List.map _) hkept)
  · refine (h.sequences.filter _).trans ?_
    rw [List.filter_map, Store.dropStates]
    exact .of_eq (congrArg (List.map _) hkept)

/-! ### Searches -/

/-- Under an id there is at most one value, so it does not matter where it stands. -/
lemma get?_eq_find {β : Type} {table : Table β} {value : StoreEntry → β} (hs : Coherent s.all)
    (h : table.Perm (s.entries.map fun e => (e.state.id, value e))) (id : Uid) :
    table.get? id = (s.entries.find? (·.state.id == id)).map value := by
  have hone : table.countP (·.1 == id) ≤ 1 := by
    have hcount := List.nodup_iff_count_le_one.1 hs.distinct id
    rw [h.countP_eq, List.countP_map]
    rwa [List.count, List.countP_map, Store.all, List.countP_map] at hcount
  rw [Table.get?, find?_eq_of_perm h hone, List.find?_map, Option.map_map]
  rfl

lemma states_get? (h : t.Hold s) (hs : Coherent s.all) (id : Uid) :
    t.states.get? id = s.get? id :=
  get?_eq_find hs h.states id

lemma sequences_get? (h : t.Hold s) (hs : Coherent s.all) {e : StoreEntry} (he : e ∈ s.entries) :
    t.sequences.get? e.state.id = some e.sequence := by
  rw [get?_eq_find hs h.sequences]
  cases hfind : s.entries.find? (·.state.id == e.state.id) with
  | none => exact absurd (List.find?_eq_none.1 hfind e he) (by simp)
  | some o =>
    have hdistinct : (s.entries.map fun e => e.state.id).Nodup := by
      simpa [Store.all, List.map_map, Function.comp_def] using hs.distinct
    rw [List.inj_on_of_nodup_map hdistinct (List.mem_of_find?_eq_some hfind) he
      (by simpa using List.find?_some hfind)]
    rfl

/-- There is at most one active join of a key, so it does not matter where it stands. -/
lemma joinState_eq (h : t.Hold s) (hs : Coherent s.all) (p gateway : String) (key : Option Uid) :
    t.joinState p gateway key = s.activeJoin? p gateway key :=
  find?_eq_of_perm h.values (h.values.countP_eq _ ▸ hs.sole p gateway key)

/-- The selected states with their numbers, in the order of the store. -/
lemma perm_numbered (h : t.Hold s) (hs : Coherent s.all) (selects : GatewayState → Bool) :
    ((t.values.filter selects).map t.numbered).Perm
      ((s.entries.filter fun e => selects e.state).map fun e => (e.sequence, e.state)) := by
  refine ((h.values.filter selects).map _).trans (.of_eq ?_)
  rw [Store.all, List.filter_map, List.map_map]
  refine List.map_congr_left fun e he => ?_
  rw [Function.comp_apply, numbered, h.sequences_get? hs (List.mem_filter.1 he).1]
  rfl

/-- In the store, no state comes after one with a number as great as its own. -/
lemma ascending_numbered (hn : s.Numbered) (selects : GatewayState → Bool) :
    ((s.entries.filter fun e => selects e.state).map fun e => (e.sequence, e.state)).Pairwise
      fun a b => decide (b.1 ≤ a.1) = false := by
  refine List.pairwise_map.2 ((hn.ascending.sublist List.filter_sublist).imp fun {a b} hlt => ?_)
  simpa using hlt

lemma statesOf_eq (h : t.Hold s) (hs : Coherent s.all) (hn : s.Numbered) (p : String) :
    t.statesOf p = s.states p := by
  have hsort := @mergeSort_eq_of_perm _ _ _ (fun a b : Nat × GatewayState => decide (a.1 ≤ b.1))
    (fun _ _ _ hab hbc => by simpa using Nat.le_trans (by simpa using hab) (by simpa using hbc))
    (fun a b => by simpa using Nat.le_total a.1 b.1) (h.perm_numbered hs (·.instanceId == p))
    (ascending_numbered hn (·.instanceId == p))
  rw [statesOf, hsort, List.map_map]
  rfl

lemma activeStatesOf_eq (h : t.Hold s) (hs : Coherent s.all) (hn : s.Numbered) (p : String) :
    t.activeStatesOf p = s.activeStates p := by
  have hsort := @mergeSort_eq_of_perm _ _ _ (fun a b : Nat × GatewayState => decide (b.1 ≤ a.1))
    (fun _ _ _ hab hbc => by simpa using Nat.le_trans (by simpa using hbc) (by simpa using hab))
    (fun a b => by simpa using Nat.le_total b.1 a.1)
    ((h.perm_numbered hs fun s => s.isActive && s.instanceId == p).trans
      (List.reverse_perm _).symm)
    (List.pairwise_reverse.2 (ascending_numbered hn fun s => s.isActive && s.instanceId == p))
  rw [activeStatesOf, hsort, List.map_reverse, List.map_map, Store.activeStates,
    Store.states_eq_filter, List.filter_filter, Store.all, List.filter_map]
  rfl

/-! ### Operations -/

lemma nextGeneration (h : t.Hold s) (p gateway : String) :
    (t.nextGeneration p gateway).1 = (s.nextGeneration p gateway).1 ∧
      (t.nextGeneration p gateway).2.Hold (s.nextGeneration p gateway).2 := by
  have hnext : (t.nextGeneration p gateway).1 = (s.nextGeneration p gateway).1 := by
    rw [Tables.nextGeneration, h.generations]
    rfl
  refine ⟨hnext, h.states, h.sequences, h.lastSequence, ?_⟩
  rw [Tables.nextGeneration, h.generations]
  rfl

lemma createFork (h : t.Hold s) (new : NewFork) (id : Uid) :
    (t.createFork new id).2.Hold (s.createFork new id).2 := by
  obtain ⟨hnext, hhold⟩ := h.nextGeneration new.instanceId new.gatewayId
  change ((t.nextGeneration new.instanceId new.gatewayId).2.insert
    (.ofFork new id (t.nextGeneration new.instanceId new.gatewayId).1)).Hold _
  rw [hnext]
  exact hhold.insert (.ofFork new id (s.nextGeneration new.instanceId new.gatewayId).1)

lemma createJoin (h : t.Hold s) (hs : Coherent s.all) (new : NewJoin) (id : Uid) :
    (t.createJoin new id).1 = (s.createJoin new id).1 ∧
      (t.createJoin new id).2.Hold (s.createJoin new id).2 := by
  obtain ⟨hnext, hhold⟩ := h.nextGeneration new.instanceId new.gatewayId
  rw [Tables.createJoin, Store.createJoin, h.joinState_eq hs]
  cases s.activeJoin? new.instanceId new.gatewayId new.correlationId with
  | some state => exact ⟨rfl, h⟩
  | none =>
    change GatewayState.ofJoin new id (t.nextGeneration new.instanceId new.gatewayId).1 = _ ∧
      ((t.nextGeneration new.instanceId new.gatewayId).2.insert
        (.ofJoin new id (t.nextGeneration new.instanceId new.gatewayId).1)).Hold _
    rw [hnext]
    exact ⟨rfl, hhold.insert (.ofJoin new id (s.nextGeneration new.instanceId new.gatewayId).1)⟩

lemma increment (h : t.Hold s) (hs : Coherent s.all) (id : Uid) :
    (∃ e, t.increment id = .error e ∧ s.increment id = .error e) ∨
      ∃ state t' s', t.increment id = .ok (state, t') ∧ s.increment id = .ok (state, s') ∧
        t'.Hold s' := by
  rw [Tables.increment, Store.increment, h.states_get? hs]
  cases s.get? id with
  | none => exact .inl ⟨_, rfl, rfl⟩
  | some state =>
    dsimp only
    split_ifs
    · exact .inl ⟨_, rfl, rfl⟩
    · exact .inl ⟨_, rfl, rfl⟩
    · exact .inr ⟨_, _, _, rfl, rfl, h.update _⟩

lemma apply (h : t.Hold s) (hs : Coherent s.all) {past : List Tables} {earlier : List Store}
    (hpast : List.Forall₂ Hold past earlier)
    (hearlier : ∀ old ∈ earlier, Coherent old.all ∧ old.Numbered) (op : Operation) :
    (t.apply past op).Hold (op.apply earlier s) := by
  cases op with
  | createFork new id => exact h.createFork new id
  | createJoin new id => exact (h.createJoin hs new id).2
  | increment id =>
    rw [Tables.apply, Operation.apply]
    rcases h.increment hs id with ⟨e, ht, hs⟩ | ⟨state, t', s', ht, hs, hhold⟩
    · rw [ht, hs]
      exact h
    · rw [ht, hs]
      exact hhold
  | recordArrival id frames =>
    rw [Tables.apply, Operation.apply, Tables.recordArrival, Store.recordArrival]
    rcases h.increment hs id with ⟨e, ht, hs⟩ | ⟨state, t', s', ht, hs, hhold⟩
    · rw [ht, hs]
      exact h
    · rw [ht, hs]
      exact hhold.update _
  | complete id =>
    rw [Tables.apply, Operation.apply, Tables.complete, Store.complete, h.states_get? hs]
    cases s.get? id with
    | none => exact h
    | some state => exact h.update _
  | deleteInstance p =>
    have hhold := h.removeInstance hs p
    refine ⟨hhold.states, hhold.sequences, hhold.lastSequence, ?_⟩
    rw [Tables.apply, Tables.deleteInstance, h.generations]
    rfl
  | restore p age =>
    rw [Tables.apply, Operation.apply]
    rcases forall₂_getElem?_cases hpast age with ⟨ht, hs'⟩ | ⟨old, old', ht, hs', hhold⟩
    · rw [ht, hs']
      exact h
    · obtain ⟨hcoherent, hnumbered⟩ := hearlier old' (List.mem_of_getElem? hs')
      rw [ht, hs']
      dsimp only
      rw [hhold.statesOf_eq hcoherent hnumbered]
      exact (h.removeInstance hs p).foldl_insert _

end Hold

/-! ## Lives -/

/-- Tables that went through the same operations hold what the stores of the life do. -/
lemma Lives.hold {ops : List Operation} {t : Tables} {past : List Tables} (h : Lives ops t past)
    (hf : Fresh ops) : List.Forall₂ Hold (t :: past) (Life.through ops).sofar := by
  induction h with
  | start => exact .cons ⟨.nil, .nil, rfl, rfl⟩ .nil
  | @step ops t t' past op h horder ih =>
    have hsofar := ih hf.of_append
    have hsound := Life.through_sound hf.of_append
    obtain ⟨hhold, -⟩ := List.forall₂_cons.1 hsofar
    rw [Life.through_concat]
    refine .cons (Hold.reordered ?_ horder) hsofar
    exact hhold.apply (hsound _ List.mem_cons_self).1 hsofar
      (fun old hold => ⟨(hsound old hold).1, (hsound old hold).2.1⟩) op

/-- In every store of a life, and in tables that went through the same operations in whatever order
they are gone through, the states are coherent and each has a number of its own.  The tables give
the answers of the store, so these do not depend on the order. -/
theorem order_does_not_matter {ops : List Operation} {t : Tables} {past : List Tables}
    (hf : Fresh ops) (h : Lives ops t past) :
    (Coherent (Life.through ops).now.all ∧
        ((Life.through ops).now.entries.map StoreEntry.sequence).Nodup) ∧
      t.Invariant ∧ t.Answers (Life.through ops).now := by
  obtain ⟨hhold, -⟩ := List.forall₂_cons.1 (h.hold hf)
  obtain ⟨hcoherent, hnumbered, -⟩ := Life.through_sound hf _ List.mem_cons_self
  have hdistinct : ((Life.through ops).now.entries.map StoreEntry.sequence).Nodup :=
    List.pairwise_map.2 (hnumbered.ascending.imp Nat.ne_of_lt)
  refine ⟨⟨hcoherent, hdistinct⟩, ⟨?_, ?_, ?_⟩, ⟨?_, ?_, ?_, ?_⟩⟩
  · exact hcoherent.of_perm hhold.values.symm
  · refine ((hhold.sequences.map Prod.fst).trans ?_).trans (hhold.values.map _).symm
    rw [List.map_map, Store.all, List.map_map]
    exact .refl _
  · refine ((hhold.sequences.map Prod.snd).nodup_iff).2 ?_
    rw [List.map_map]
    exact hdistinct
  · exact fun new id => (hhold.createJoin hcoherent new id).1
  · exact hhold.joinState_eq hcoherent
  · exact hhold.statesOf_eq hcoherent hnumbered
  · exact hhold.activeStatesOf_eq hcoherent hnumbered

/-! ### Tables that are turned around -/

/-- The same tables, gone through the other way round. -/
def reversed (t : Tables) : Tables :=
  { t with
    states := t.states.reverse
    sequences := t.sequences.reverse }

/-- Tables that are turned around after every operation, with all tables before. -/
def turned (ops : List Operation) : Tables × List Tables :=
  ops.foldl (fun l op => ((l.1.apply (l.1 :: l.2) op).reversed, l.1 :: l.2)) (empty, [])

lemma lives_turned (ops : List Operation) : Lives ops (turned ops).1 (turned ops).2 := by
  induction ops using List.reverseRecOn with
  | nil => exact .start
  | append_singleton ops op ih =>
    rw [turned, List.foldl_append, List.foldl_cons, List.foldl_nil, ← turned]
    exact .step op ih ⟨(List.reverse_perm _).symm, (List.reverse_perm _).symm, rfl, rfl⟩

/-- A join is resolved, opened anew and put back to where it still waited, next to a join of another
instance. -/
def resolvedAndRestored : List Operation :=
  [.createFork ⟨"p", none, "f", ["x", "y"]⟩ ⟨1⟩, .createJoin ⟨"p", none, "j", 2, some ⟨1⟩⟩ ⟨2⟩,
    .recordArrival ⟨2⟩ [], .createJoin ⟨"q", none, "j", 3, none⟩ ⟨3⟩, .recordArrival ⟨2⟩ [],
    .recordArrival ⟨2⟩ [], .createJoin ⟨"p", none, "j", 2, some ⟨1⟩⟩ ⟨4⟩, .restore "p" 3,
    .createJoin ⟨"p", none, "j", 2, some ⟨1⟩⟩ ⟨5⟩]

/-- The restored join is found again in tables that are turned around all the time. -/
theorem order_does_not_matter_turned :
    Fresh resolvedAndRestored ∧
      Lives resolvedAndRestored (turned resolvedAndRestored).1 (turned resolvedAndRestored).2 ∧
      (turned resolvedAndRestored).1.Invariant ∧
      ((turned resolvedAndRestored).1.statesOf "p").map
          (fun s => (s.id.value, s.kind, s.isActive, s.completedBranches)) =
        [(1, .fork, true, 0), (2, .join, true, 1)] := by
  have hf : Fresh resolvedAndRestored := by rw [Fresh]; decide
  obtain ⟨-, hinvariant, hanswers⟩ := order_does_not_matter hf (lives_turned resolvedAndRestored)
  refine ⟨hf, lives_turned _, hinvariant, ?_⟩
  rw [hanswers.states]
  decide +kernel

end Tables

end ProcessEngine

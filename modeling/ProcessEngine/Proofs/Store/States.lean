import Mathlib.Data.List.Sort
import ProcessEngine.GatewayState.Store

/-!
# The states of one instance in the store

The store keeps the states of all instances in one list, but every operation concerns one instance
only.  This file says what each operation does to `Store.states`, the list of the states of one
instance: a new state is appended (`states_insert`), a changed one is exchanged where it stands
(`states_update`), and the lists of all other instances stay as they are.  After that no proof needs
to look into the list of entries.

The laws presuppose a `Keyed` store: no two states have the same id, and no id has a number above
the last one that was issued, so that a freshly issued id is not taken.
-/

namespace ProcessEngine

/-- The states with one of them exchanged for a state with the same id. -/
def exchanged (state : GatewayState) (states : List GatewayState) : List GatewayState :=
  states.map fun s => if s.id = state.id then state else s

/-- The states with those of the given ids made inactive. -/
def retired (ids : List Uid) (states : List GatewayState) : List GatewayState :=
  states.map fun s => if s.id ∈ ids then { s with isActive := false } else s

lemma mem_exchanged {state s : GatewayState} {states : List GatewayState} :
    s ∈ exchanged state states ↔
      (s = state ∧ ∃ o ∈ states, o.id = state.id) ∨ (s ∈ states ∧ s.id ≠ state.id) := by
  simp only [exchanged, List.mem_map]
  constructor
  · rintro ⟨o, ho, rfl⟩
    by_cases h : o.id = state.id
    · exact .inl ⟨by rw [if_pos h], o, ho, h⟩
    · rw [if_neg h]
      exact .inr ⟨ho, h⟩
  · rintro (⟨rfl, o, ho, h⟩ | ⟨hs, h⟩)
    · exact ⟨o, ho, if_pos h⟩
    · exact ⟨s, hs, if_neg h⟩

lemma mem_retired {ids : List Uid} {s : GatewayState} {states : List GatewayState} :
    s ∈ retired ids states ↔
      ∃ o ∈ states, s = if o.id ∈ ids then { o with isActive := false } else o := by
  simp only [retired, List.mem_map, eq_comm]

@[simp] lemma retired_nil (states : List GatewayState) : retired [] states = states := by
  simp [retired]

/-- Retiring twice is retiring once. -/
lemma retired_append (xs ys : List Uid) (states : List GatewayState) :
    retired ys (retired xs states) = retired (xs ++ ys) states := by
  simp only [retired, List.map_map, List.map_inj_left, Function.comp_apply, List.mem_append]
  intro s _
  by_cases hx : s.id ∈ xs <;> by_cases hy : s.id ∈ ys <;> simp [hx, hy]

@[simp] lemma map_id_retired (ids : List Uid) (states : List GatewayState) :
    (retired ids states).map GatewayState.id = states.map GatewayState.id := by
  simp only [retired, List.map_map, List.map_inj_left, Function.comp_apply]
  intro s _
  split <;> rfl

@[simp] lemma map_id_exchanged (state : GatewayState) (states : List GatewayState) :
    (exchanged state states).map GatewayState.id = states.map GatewayState.id := by
  simp only [exchanged, List.map_map, List.map_inj_left, Function.comp_apply]
  intro s _
  split <;> simp_all

namespace Store

/-- All stored states, oldest first. -/
def all (s : Store) : List GatewayState := s.entries.map StoreEntry.state

lemma states_eq_filter (s : Store) (p : String) :
    s.states p = s.all.filter (·.instanceId == p) := by
  rw [states, all, List.filter_map]
  rfl

lemma mem_states {s : Store} {p : String} {state : GatewayState} :
    state ∈ s.states p ↔ state ∈ s.all ∧ state.instanceId = p := by
  simp [states_eq_filter]

lemma get?_eq_find (s : Store) (id : Uid) : s.get? id = s.all.find? (·.id == id) := by
  rw [get?, all, List.find?_map]
  rfl

/-- No two states share an id, and every id is among the first `issued` ones. -/
structure Keyed (s : Store) (issued : Nat) : Prop where
  distinct : (s.all.map GatewayState.id).Nodup
  known : ∀ state ∈ s.all, state.id.value ≤ issued

namespace Keyed

variable {s : Store} {issued : Nat}

lemma mono (h : s.Keyed issued) {later : Nat} (hle : issued ≤ later) : s.Keyed later :=
  ⟨h.distinct, fun state hs => Nat.le_trans (h.known state hs) hle⟩

lemma eq_of_id (h : s.Keyed issued) {a b : GatewayState} (ha : a ∈ s.all) (hb : b ∈ s.all)
    (hid : a.id = b.id) : a = b :=
  List.inj_on_of_nodup_map h.distinct ha hb hid

lemma distinct_states (h : s.Keyed issued) (p : String) :
    ((s.states p).map GatewayState.id).Nodup := by
  rw [states_eq_filter]
  exact h.distinct.sublist (List.filter_sublist.map _)

lemma get?_of_mem (h : s.Keyed issued) {state : GatewayState} (hs : state ∈ s.all) :
    s.get? state.id = some state := by
  rw [get?_eq_find]
  cases hf : s.all.find? (·.id == state.id) with
  | none => exact absurd hs (by simpa using List.find?_eq_none.1 hf state)
  | some o =>
    have ho : o.id = state.id := by simpa using List.find?_some hf
    rw [h.eq_of_id (List.mem_of_find?_eq_some hf) hs ho]

lemma fresh (h : s.Keyed issued) {id : Uid} (hid : issued < id.value) :
    ∀ state ∈ s.all, state.id ≠ id := by
  rintro state hs rfl
  exact absurd (h.known state hs) (by omega)

end Keyed

/-! ## Storing a state -/

variable {s : Store} {state : GatewayState}

lemma all_insert (hf : ∀ o ∈ s.all, o.id ≠ state.id) : (s.insert state).all = s.all ++ [state] := by
  have hkept : s.entries.filter (·.state.id != state.id) = s.entries := by
    refine List.filter_eq_self.2 fun e he => ?_
    simpa using hf e.state (List.mem_map_of_mem he)
  simp [insert, all, hkept]

lemma states_insert (hf : ∀ o ∈ s.all, o.id ≠ state.id) (p : String) :
    (s.insert state).states p = s.states p ++ if state.instanceId = p then [state] else [] := by
  rw [states_eq_filter, all_insert hf, List.filter_append, ← states_eq_filter]
  by_cases hp : state.instanceId = p <;> simp [hp]

lemma Keyed.insert {issued : Nat} (h : s.Keyed issued) (hid : issued < state.id.value) :
    (s.insert state).Keyed state.id.value := by
  have hf := h.fresh hid
  refine ⟨?_, fun o ho => ?_⟩
  · rw [all_insert hf, List.map_append, List.nodup_append]
    refine ⟨h.distinct, by simp, ?_⟩
    simpa using hf
  · rw [all_insert hf] at ho
    rcases List.mem_append.1 ho with ho | ho
    · exact Nat.le_trans (h.known o ho) hid.le
    · exact (congrArg (·.id.value) (List.mem_singleton.1 ho)).le

/-! ## Exchanging a state -/

lemma all_update (s : Store) (state : GatewayState) :
    (s.update state).all = exchanged state s.all := by
  simp only [update, all, exchanged, List.map_map, List.map_inj_left, Function.comp_apply,
    beq_iff_eq]
  intro e _
  split <;> rfl

/-- A state may be exchanged for one of the same instance. -/
lemma states_update {issued : Nat} (h : s.Keyed issued) (state : GatewayState)
    {old : GatewayState} (hold : old ∈ s.all) (hid : old.id = state.id)
    (hinst : old.instanceId = state.instanceId) (p : String) :
    (s.update state).states p = exchanged state (s.states p) := by
  rw [states_eq_filter, all_update, states_eq_filter, exchanged, List.filter_map, exchanged]
  congr 1
  refine List.filter_congr fun o ho => ?_
  rw [Function.comp_apply]
  split
  · next heq => rw [h.eq_of_id ho hold (heq.trans hid.symm), hinst]
  · rfl

lemma Keyed.update {issued : Nat} (h : s.Keyed issued) (state : GatewayState) :
    (s.update state).Keyed issued := by
  refine ⟨by simpa [all_update] using h.distinct, fun o ho => ?_⟩
  rw [all_update, mem_exchanged] at ho
  rcases ho with ⟨rfl, x, hx, hid⟩ | ⟨ho, -⟩
  · exact hid ▸ h.known x hx
  · exact h.known o ho

/-- What is found under the id of an exchanged state. -/
lemma get?_update (state : GatewayState) {old : GatewayState} (h : s.get? state.id = some old) :
    (s.update state).get? state.id = some state := by
  have hids : ((fun o : GatewayState => o.id == state.id) ∘
      fun o => if o.id = state.id then state else o) = fun o => o.id == state.id := by
    funext o
    rw [Function.comp_apply]
    split_ifs with ho
    · rw [ho]
    · rfl
  have hid : old.id = state.id := by
    rw [get?_eq_find] at h
    simpa using List.find?_some h
  rw [get?_eq_find, all_update, exchanged, List.find?_map, hids, ← get?_eq_find, h,
    Option.map_some, if_pos hid]

lemma exchanged_of_not_mem {states : List GatewayState} (h : ∀ o ∈ states, o.id ≠ state.id) :
    exchanged state states = states := by
  rw [exchanged]
  conv_rhs => rw [← List.map_id states]
  exact List.map_congr_left fun o ho => if_neg (h o ho)

/-! ## Dropping the states of an instance -/

@[simp] lemma all_dropStates (s : Store) (p : String) :
    (s.dropStates p).all = s.all.filter (·.instanceId != p) := by
  rw [dropStates, all, all, List.filter_map]
  rfl

lemma states_dropStates (s : Store) (p q : String) :
    (s.dropStates p).states q = if q = p then [] else s.states q := by
  rw [states_eq_filter, all_dropStates, List.filter_filter]
  by_cases hq : q = p
  · rw [if_pos hq, List.filter_eq_nil_iff]
    simp [hq]
  · rw [if_neg hq, states_eq_filter]
    refine List.filter_congr fun o _ => ?_
    by_cases ho : o.instanceId = q
    · simp [ho, hq]
    · simp [ho]

lemma Keyed.dropStates {issued : Nat} (h : s.Keyed issued) (p : String) :
    (s.dropStates p).Keyed issued := by
  refine ⟨?_, fun o ho => h.known o ?_⟩
  · rw [all_dropStates]
    exact h.distinct.sublist (List.filter_sublist.map _)
  · rw [all_dropStates] at ho
    exact (List.mem_filter.1 ho).1

@[simp] lemma states_deleteInstance (s : Store) (p q : String) :
    (s.deleteInstance p).2.states q = if q = p then [] else s.states q :=
  states_dropStates s p q

lemma Keyed.deleteInstance {issued : Nat} (h : s.Keyed issued) (p : String) :
    (s.deleteInstance p).2.Keyed issued :=
  let k := h.dropStates p
  ⟨k.distinct, k.known⟩

/-! ## Putting states back -/

/-- Inserting states of one instance, none of which is stored yet, appends them to its list. -/
lemma foldl_insert {issued : Nat} {p : String} (states : List GatewayState) {s : Store}
    (h : s.Keyed issued) (hp : ∀ o ∈ states, o.instanceId = p)
    (hd : (states.map GatewayState.id).Nodup) (hk : ∀ o ∈ states, o.id.value ≤ issued)
    (hf : ∀ o ∈ states, ∀ x ∈ s.all, x.id ≠ o.id) :
    (states.foldl insert s).Keyed issued ∧
      ∀ q, (states.foldl insert s).states q = s.states q ++ if p = q then states else [] := by
  induction states generalizing s with
  | nil => exact ⟨h, by simp⟩
  | cons o rest ih =>
    have ho := hf o List.mem_cons_self
    rw [List.map_cons, List.nodup_cons] at hd
    have hins : (s.insert o).Keyed issued := by
      refine ⟨?_, fun x hx => ?_⟩
      · rw [all_insert ho, List.map_append, List.nodup_append]
        exact ⟨h.distinct, by simp, by simpa using ho⟩
      · rw [all_insert ho] at hx
        rcases List.mem_append.1 hx with hx | hx
        · exact h.known x hx
        · rw [List.mem_singleton.1 hx]
          exact hk o List.mem_cons_self
    obtain ⟨hkeyed, hstates⟩ := ih hins (fun x hx => hp x (List.mem_cons_of_mem _ hx)) hd.2
      (fun x hx => hk x (List.mem_cons_of_mem _ hx)) fun x hx y hy => by
        rw [all_insert ho] at hy
        rcases List.mem_append.1 hy with hy | hy
        · exact hf x (List.mem_cons_of_mem _ hx) y hy
        · rw [List.mem_singleton.1 hy]
          rintro heq
          exact hd.1 (heq ▸ List.mem_map_of_mem hx)
    refine ⟨hkeyed, fun q => ?_⟩
    rw [List.foldl_cons, hstates q, states_insert ho, hp o List.mem_cons_self]
    by_cases hq : p = q <;> simp [hq]

/-- Putting the states of an instance back to what they were in an earlier store, of which the other
instances are of no concern. -/
lemma states_restore {issued earlier : Nat} {old : Store} (hold : old.Keyed earlier)
    (h : s.Keyed issued) (hle : earlier ≤ issued) (p : String)
    (hothers : ∀ o ∈ s.all, o.instanceId ≠ p → o ∈ old.all) :
    (s.restore p (old.states p)).Keyed issued ∧
      ∀ q, (s.restore p (old.states p)).states q = if q = p then old.states p else s.states q := by
  obtain ⟨hkeyed, hstates⟩ := foldl_insert (p := p) (old.states p) (h.dropStates p)
    (fun o ho => (mem_states.1 ho).2) (hold.distinct_states p)
    (fun o ho => Nat.le_trans (hold.known o (mem_states.1 ho).1) hle) fun o ho x hx => by
      rw [all_dropStates, List.mem_filter, bne_iff_ne] at hx
      rintro heq
      refine hx.2 ?_
      rw [hold.eq_of_id (hothers x hx.1 hx.2) (mem_states.1 ho).1 heq, (mem_states.1 ho).2]
  refine ⟨hkeyed, fun q => ?_⟩
  rw [restore, hstates q, states_dropStates]
  by_cases hq : q = p
  · simp [hq]
  · simp [hq, Ne.symm hq]

end Store

end ProcessEngine

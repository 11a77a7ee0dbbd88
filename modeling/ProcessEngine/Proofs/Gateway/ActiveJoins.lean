import ProcessEngine.Proofs.Gateway.Effect
import ProcessEngine.Proofs.Lists

/-!
# The active joins of a key

Arrivals are told apart by the gateway and by the fork that scopes their join, its key.  An arrival
concerns only the active joins of its own key (`Effect.activeJoins_elsewhere`), and there is never
more than one of them: `Holds` says how many arrivals it has counted when a given number of tokens
has come in all, and `Holds.arrival` what one more arrival makes of it.
-/

namespace ProcessEngine

/-- The active joins of an instance at a gateway under a key. -/
def activeJoins (p gateway : String) (key : Option Uid) (states : List GatewayState) :
    List GatewayState :=
  states.filter (Store.isJoinOf p gateway key)

/-! ## Changes to lists of states -/

/-- Exchanging the only state that a predicate accepts. -/
lemma filter_exchanged {accepts : GatewayState → Bool} {states : List GatewayState}
    (hd : (states.map GatewayState.id).Nodup) {o j : GatewayState}
    (hone : states.filter accepts = [o]) (hid : j.id = o.id) :
    (exchanged j states).filter accepts = if accepts j then [j] else [] := by
  induction states with
  | nil => cases hone
  | cons s rest ih =>
    rw [List.map_cons, List.nodup_cons] at hd
    rw [exchanged, List.map_cons, ← exchanged, List.filter_cons]
    rw [List.filter_cons] at hone
    by_cases hs : accepts s = true
    · rw [if_pos hs] at hone
      obtain ⟨rfl, hrest⟩ := List.cons.inj hone
      have hothers : exchanged j rest = rest :=
        Store.exchanged_of_not_mem fun x hx heq =>
          hd.1 (hid ▸ heq ▸ List.mem_map_of_mem hx)
      rw [if_pos hid.symm, hothers, hrest]
    · rw [if_neg hs] at hone
      have ho : o ∈ rest := by
        have hmem : o ∈ rest.filter accepts := hone ▸ List.mem_singleton_self o
        exact (List.mem_filter.1 hmem).1
      have hne : s.id ≠ j.id := fun heq => hd.1 (heq ▸ hid ▸ List.mem_map_of_mem ho)
      rw [if_neg hne, if_neg hs]
      exact ih hd.2 hone

section States

variable {p gateway : String} {key : Option Uid} {issued : Nat} {states : List GatewayState}

/-- Forks are no joins. -/
lemma activeJoins_retired {ids : List Uid} (hids : ∀ s ∈ states, s.id ∈ ids → s.kind = .fork) :
    activeJoins p gateway key (retired ids states) = activeJoins p gateway key states := by
  refine filter_map_of_fixed fun s hs => ?_
  split_ifs with hmem
  · exact .inr ⟨by simp [Store.isJoinOf, hids s hs hmem], by simp [Store.isJoinOf]⟩
  · exact .inl rfl

/-- No join is scoped by a fork that has yet to be made. -/
lemma activeJoins_fresh (h : SoundStates p issued states) {u : Uid} (hu : issued < u.value) :
    activeJoins p gateway (some u) states = [] := by
  refine List.filter_eq_nil_iff.2 fun j hj hjoin => ?_
  simp only [Store.isJoinOf, Bool.and_eq_true, beq_iff_eq] at hjoin
  obtain ⟨⟨⟨⟨hk, -⟩, -⟩, -⟩, hcorrelation⟩ := hjoin
  obtain ⟨s, hs, -, hid⟩ := (h.joins j hj hk).scope u hcorrelation
  have hknown := h.known s hs
  rw [hid] at hknown
  omega

end States

namespace Request

variable {r : Request} {p gateway : String} {key : Option Uid} {issued : Nat}
  {states : List GatewayState} {flows : Option Nat} {id : Uid} {generation : Nat}

lemma activeJoins_append_fork (r : Request) (p gateway : String) (key : Option Uid)
    (states : List GatewayState) (targets : List String) (id : Uid) (generation : Nat) :
    activeJoins p gateway key (states ++ [r.newFork p targets id generation]) =
      activeJoins p gateway key states := by
  rw [activeJoins, List.filter_append, List.filter_cons_of_neg (by simp [Store.isJoinOf, newFork,
    GatewayState.ofFork]), List.filter_nil, List.append_nil, activeJoins]

/-- The release of a join leaves the active joins as they are after the arrival. -/
lemma activeJoins_arrivalStates (h : SoundStates p issued states)
    (hf : ∀ f ∈ r.frames, f.Sound states) (hid : issued < id.value) :
    activeJoins p gateway key (r.arrivalStates p flows states id generation) =
      activeJoins p gateway key (r.arrival p flows states id generation).2 := by
  obtain ⟨hsound, -⟩ := arrival_sound flows h hf hid generation
  rw [arrivalStates]
  split_ifs
  · refine activeJoins_retired fun s hs hmem => ?_
    obtain ⟨t, ht, htk, hts⟩ := closing_fork flows h hf hid generation hmem
    rwa [← hsound.eq_of_id ht hs hts]
  · rfl

/-- An arrival concerns only the joins of its gateway and key. -/
lemma activeJoins_arrival_of_ne (hd : (states.map GatewayState.id).Nodup)
    (hne : r.gateway.id ≠ gateway ∨ (r.keyAmong states flows).correlationId ≠ key) :
    activeJoins p gateway key (r.arrival p flows states id generation).2 =
      activeJoins p gateway key states := by
  have hother : ∀ s : GatewayState, s.gatewayId = r.gateway.id →
      s.correlationId = (r.keyAmong states flows).correlationId →
      Store.isJoinOf p gateway key s = false := by
    intro s hgateway hcorrelation
    rcases hne with hne | hne
    · simp [Store.isJoinOf, hgateway, hne]
    · simp [Store.isJoinOf, hcorrelation, hne]
  rcases r.arrival_cases p flows states id generation with
    ⟨o, ho, hjoin, heq⟩ | ⟨o, hopened, -, heq⟩
  · simp only [Store.isJoinOf, Bool.and_eq_true, beq_iff_eq] at hjoin
    rw [heq]
    refine filter_map_of_fixed fun s hs => ?_
    split_ifs with hso
    · obtain rfl : s = o := List.inj_on_of_nodup_map hd hs ho hso
      exact .inr ⟨hother s hjoin.1.2 hjoin.2, hother _ hjoin.1.2 hjoin.2⟩
    · exact .inl rfl
  · have hnew : Store.isJoinOf p gateway key (o.arrived r.frames) = false :=
      hother _ (by rw [hopened]; rfl) (by rw [hopened]; rfl)
    rw [heq, activeJoins, List.filter_append, List.filter_cons_of_neg (by simp [hnew]),
      List.filter_nil, List.append_nil, activeJoins]

/-- An activation concerns only the joins that the token meets others at. -/
lemma Effect.activeJoins_elsewhere {d : Decision} {issued' : Nat} {states' : List GatewayState}
    (heff : r.Effect p issued states d issued' states') (h : SoundStates p issued states)
    (hf : ∀ f ∈ r.frames, f.Sound states)
    (hne : ∀ flows targets, r.course = .meet flows targets →
      r.gateway.id ≠ gateway ∨ (r.keyAmong states flows).correlationId ≠ key) :
    activeJoins p gateway key states' = activeJoins p gateway key states := by
  have hfresh : issued < (Uid.mk (issued + 1)).value := Nat.lt_succ_self issued
  cases heff with
  | pass => rfl
  | split => exact activeJoins_append_fork ..
  | wait generation hcourse =>
    exact (activeJoins_arrivalStates h hf hfresh).trans
      (activeJoins_arrival_of_ne h.distinct (hne _ _ hcourse))
  | release generation hcourse =>
    exact (activeJoins_arrivalStates h hf hfresh).trans
      (activeJoins_arrival_of_ne h.distinct (hne _ _ hcourse))
  | releaseSplit generation forkGeneration hcourse =>
    rw [activeJoins_append_fork, activeJoins_arrivalStates h hf hfresh]
    exact activeJoins_arrival_of_ne h.distinct (hne _ _ hcourse)

end Request

/-! ## Counting in rounds -/

/-- The active joins of a key at which `n` tokens have arrived in all, if each join waits for `size`
of them: none if every round is complete, else one that has counted the rest. -/
inductive Holds (size n : Nat) : List GatewayState → Prop
  | idle (h : n % size = 0) : Holds size n []
  | waiting {j : GatewayState} (hpos : 0 < n % size) (hcompleted : j.completedBranches = n % size)
      (hactive : j.activeBranches = size) : Holds size n [j]

/-- The remainder of the next number. -/
lemma succ_mod_eq {n size : Nat} (hsize : 0 < size) :
    (n + 1) % size = if n % size + 1 = size then 0 else n % size + 1 := by
  have hlt := Nat.mod_lt n hsize
  have hsplit : n + 1 = size * (n / size) + (n % size + 1) := by
    rw [← Nat.add_assoc, Nat.div_add_mod]
  rw [hsplit, Nat.mul_add_mod]
  split_ifs with hfull
  · rw [hfull, Nat.mod_self]
  · exact Nat.mod_eq_of_lt (by omega)

section Arrival

variable {r : Request} {p : String} {size n : Nat} {states : List GatewayState}
  {flows : Option Nat} {id : Uid} {generation : Nat}

/-- The join that is come to accepts further arrivals just if it is not full. -/
lemma isJoinOf_arrival (r : Request) (p : String) (flows : Option Nat)
    (states : List GatewayState) (id : Uid) (generation : Nat) :
    Store.isJoinOf p r.gateway.id (r.keyAmong states flows).correlationId
        (r.arrival p flows states id generation).1 =
      !(r.arrival p flows states id generation).1.isFull := by
  have haccepts : ∀ o : GatewayState,
      Store.isJoinOf p r.gateway.id (r.keyAmong states flows).correlationId o = true →
      Store.isJoinOf p r.gateway.id (r.keyAmong states flows).correlationId (o.arrived r.frames) =
        !(o.arrived r.frames).isFull := by
    intro o hjoin
    simp only [Store.isJoinOf, Bool.and_eq_true, beq_iff_eq] at hjoin
    obtain ⟨⟨⟨⟨hk, hactive⟩, hinstance⟩, hgateway⟩, hcorrelation⟩ := hjoin
    have hstill : (o.arrived r.frames).isActive = !(o.arrived r.frames).isFull := by
      rw [Bool.eq_iff_iff, GatewayState.isActive_arrived o r.frames hk hactive,
        GatewayState.isFull, Bool.not_eq_true', decide_eq_false_iff_not]
      rfl
    simp [Store.isJoinOf, hk, hinstance, hgateway, hcorrelation, hstill]
  rcases r.arrival_cases p flows states id generation with
    ⟨o, ho, hjoin, heq⟩ | ⟨o, hopened, -, heq⟩
  · rw [heq]
    exact haccepts o hjoin
  · rw [heq]
    exact haccepts o (by simp [hopened, Store.isJoinOf, GatewayState.ofJoin])

/-- One more arrival completes the round, or is counted at the join that waits on. -/
lemma Holds.arrival (hd : (states.map GatewayState.id).Nodup)
    (hsize : max (r.keyAmong states flows).expected 1 = size)
    (hholds : Holds size n (activeJoins p r.gateway.id (r.keyAmong states flows).correlationId
      states)) :
    ((r.arrival p flows states id generation).1.isFull = true ↔ size ∣ n + 1) ∧
      Holds size (n + 1) (activeJoins p r.gateway.id (r.keyAmong states flows).correlationId
        (r.arrival p flows states id generation).2) := by
  have hpos : 0 < size := by omega
  have haccepts := isJoinOf_arrival r p flows states id generation
  -- What remains is to know its count, and that it is the only one.
  suffices hcounts : (r.arrival p flows states id generation).1.completedBranches = n % size + 1 ∧
      (r.arrival p flows states id generation).1.activeBranches = size ∧
      activeJoins p r.gateway.id (r.keyAmong states flows).correlationId
        (r.arrival p flows states id generation).2 =
        if (r.arrival p flows states id generation).1.isFull then []
        else [(r.arrival p flows states id generation).1] by
    obtain ⟨hcompleted, hactive, hlist⟩ := hcounts
    have hfull : (r.arrival p flows states id generation).1.isFull = true ↔
        n % size + 1 = size := by
      rw [GatewayState.isFull, decide_eq_true_eq, hcompleted, hactive]
    have hmod := succ_mod_eq (n := n) hpos
    refine ⟨?_, ?_⟩
    · rw [hfull, Nat.dvd_iff_mod_eq_zero, hmod]
      split_ifs with heq <;> simp [heq]
    · rw [hlist]
      split_ifs with hisFull
      · rw [if_pos (hfull.1 hisFull)] at hmod
        exact .idle hmod
      · rw [if_neg fun heq => hisFull (hfull.2 heq)] at hmod
        exact .waiting (by omega) (hcompleted.trans hmod.symm) hactive
  generalize hl : activeJoins p r.gateway.id (r.keyAmong states flows).correlationId states = l
    at hholds
  cases hholds with
  | idle hmod =>
    have hnone : states.find? (Store.isJoinOf p r.gateway.id
        (r.keyAmong states flows).correlationId) = none := by
      rw [← List.head?_filter, show states.filter _ = [] from hl, List.head?_nil]
    rw [Request.arrival, arrivalAmong, hnone] at haccepts ⊢
    refine ⟨by rw [hmod]; rfl, hsize, ?_⟩
    rw [activeJoins, List.filter_append, show states.filter _ = [] from hl, List.nil_append,
      List.filter_singleton, haccepts]
    cases (GatewayState.arrived _ _).isFull <;> rfl
  | @waiting o hpos' hcompleted hactive =>
    have hsome : states.find? (Store.isJoinOf p r.gateway.id
        (r.keyAmong states flows).correlationId) = some o := by
      rw [← List.head?_filter, show states.filter _ = [o] from hl, List.head?_cons]
    rw [Request.arrival, arrivalAmong, hsome] at haccepts ⊢
    refine ⟨by rw [GatewayState.completedBranches_arrived, hcompleted], hactive, ?_⟩
    refine (filter_exchanged hd (j := o.arrived r.frames) hl rfl).trans ?_
    rw [haccepts]
    cases (o.arrived r.frames).isFull <;> rfl

end Arrival

end ProcessEngine

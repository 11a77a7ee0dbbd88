import ProcessEngine.Proofs.Isolation.Stores
import ProcessEngine.Proofs.Renaming.Concurrence

/-!
# Actions for one instance

Two workspaces agree on an instance if it sees the same in both, and the same identifiers and times
are handed out next (`Workspace.Agree`).  `SameFor` says of an action for the instance that it comes
to the same in both: it succeeds with the same value, or fails with the same error, the workspaces
agree again, and no other instance has seen anything of it.  An action that is made of such ones is
one itself (`SameFor.bind`).  Here it is shown that all gateways are activated by such actions
(`activate_same`).
-/

namespace ProcessEngine

/-- Two workspaces in which an instance sees the same. -/
structure Workspace.Agree (p : String) (w w' : Workspace) : Prop where
  supply : w.supply = w'.supply
  store : w.store.Agree p w'.store
  keyed : w.store.Keyed w.supply.issued
  keyed' : w'.store.Keyed w'.supply.issued

/-- The same has happened to an instance in two workspaces, and in the first one no other instance
has seen anything of it. -/
structure SameStep (p : String) (w w' v v' : Workspace) : Prop where
  agree : v.Agree p v'
  spares : w.store.Spares p v.store
  news : EqualNews w w' v v'

/-- The outcomes of two actions that are the same for an instance. -/
inductive SameFor (p : String) {α : Type} (w w' : Workspace) :
    EStateM.Result EngineError Workspace α → EStateM.Result EngineError Workspace α → Prop
  | ok (x : α) {v v' : Workspace} (hstep : SameStep p w w' v v') :
      SameFor p w w' (.ok x v) (.ok x v')
  | error (e : EngineError) {v v' : Workspace} (hstep : SameStep p w w' v v') :
      SameFor p w w' (.error e v) (.error e v')

section Steps

variable {p : String} {w w' v v' u u' : Workspace}

namespace SameStep

lemma refl (h : w.Agree p w') : SameStep p w w' w w' := ⟨h, .refl p _, .refl w w'⟩

lemma trans (h : SameStep p w w' v v') (h' : SameStep p v v' u u') : SameStep p w w' u u' :=
  ⟨h'.agree, h.spares.trans h'.spares, h.news.trans h'.news⟩

/-- Only identifiers were issued and the clock was read. -/
lemma of_supply (h : w.Agree p w') {s s' : Supply} (hs : s = s')
    (hi : w.supply.issued ≤ s.issued) :
    SameStep p w w' { w with supply := s } { w' with supply := s' } where
  agree := ⟨hs, h.store, h.keyed.mono hi, h.keyed'.mono (by rw [← hs, ← h.supply]; exact hi)⟩
  spares := .refl p _
  news := ⟨[], by simp, rfl, rfl⟩

end SameStep

namespace SameFor

variable {α β : Type}

lemma pure (h : w.Agree p w') (x : α) : SameFor p w w' (.ok x w) (.ok x w') := .ok x (.refl h)

lemma throw (h : w.Agree p w') (e : EngineError) :
    SameFor p (α := α) w w' (.error e w) (.error e w') := .error e (.refl h)

/-- What came before. -/
lemma after {x x' : EStateM.Result EngineError Workspace α} (h : SameFor p v v' x x')
    (hstep : SameStep p w w' v v') : SameFor p w w' x x' := by
  cases h with
  | ok x hnext => exact .ok x (hstep.trans hnext)
  | error e hnext => exact .error e (hstep.trans hnext)

/-- Sequences are the same for an instance if their parts are, one after the other. -/
lemma bind {a a' : Action α} {f f' : α → Action β} (h : SameFor p w w' (a w) (a' w'))
    (hf : ∀ x v v', a w = .ok x v → a' w' = .ok x v' → v.Agree p v' →
      SameFor p v v' (f x v) (f' x v')) :
    SameFor p w w' ((a >>= f) w) ((a' >>= f') w') := by
  generalize ha : a w = y at h
  generalize ha' : a' w' = y' at h
  cases h with
  | ok x hstep =>
    rw [Action.bind_of_ok ha, Action.bind_of_ok ha']
    exact (hf x _ _ ha ha' hstep.agree).after hstep
  | error e hstep =>
    rw [Action.bind_of_error ha, Action.bind_of_error ha']
    exact .error e hstep

lemma freshUid (h : w.Agree p w') :
    SameFor p w w' (Action.freshUid w) (Action.freshUid w') := by
  rw [Action.freshUid_apply, Action.freshUid_apply, ← h.supply]
  exact .ok _ (.of_supply h rfl (Nat.le_succ _))

lemma now (h : w.Agree p w') : SameFor p w w' (Action.now w) (Action.now w') := by
  rw [Action.now, Action.now, ← h.supply]
  exact .ok _ (.of_supply h rfl (Nat.le_refl _))

lemma publish (h : w.Agree p w') {es : List Event} (hes : ∀ e ∈ es, e.isEvaluation = true) :
    SameFor p w w' (Action.publish es w) (Action.publish es w') := by
  rw [Action.publish_apply, Action.publish_apply]
  exact .ok () ⟨⟨h.supply, h.store, h.keyed, h.keyed'⟩, .refl p _, es, hes, rfl, rfl⟩

lemma orFail (h : w.Agree p w') (e : EngineError) (x : Option α) :
    SameFor p w w' (Action.orFail e x w) (Action.orFail e x w') := by
  cases x with
  | none => exact .throw h e
  | some x => exact .pure h x

end SameFor

end Steps

/-! ## Activations -/

namespace Request

variable {r : Request} {p : String} {w w' v : Workspace}

lemma recordFork_eq (hp : r.instanceId = some p) (targets : List String) (w : Workspace) :
    r.recordFork targets w =
      let x := w.store.createFork ⟨p, r.executionId, r.gateway.id, targets⟩ w.supply.uid.1
      .ok (some x.1.frame) { w with store := x.2, supply := w.supply.uid.2 } := by
  rw [recordFork, hp]
  change (Action.freshUid >>= _) w = _
  rw [Action.bind_of_ok (Action.freshUid_apply w), Action.bind_of_ok (Action.onStore_of_ok rfl)]
  rfl

lemma recordFork_same (h : w.Agree p w') (hp : r.instanceId = some p) (targets : List String) :
    SameFor p w w' (r.recordFork targets w) (r.recordFork targets w') := by
  have hid : w.supply.issued < w.supply.uid.1.value := Nat.lt_succ_self _
  have hkeyed' : w'.store.Keyed w.supply.issued := h.supply ▸ h.keyed'
  rw [recordFork_eq hp, recordFork_eq hp, ← h.supply]
  obtain ⟨new, hnew⟩ : ∃ new : NewFork, new = ⟨p, r.executionId, r.gateway.id, targets⟩ := ⟨_, rfl⟩
  have hnewp : new.instanceId = p := by rw [hnew]
  obtain ⟨hfork, hstore⟩ := h.store.createFork h.keyed hkeyed' new hnewp hid
  rw [← hnew]
  simp only [← hfork]
  exact .ok _ ⟨⟨rfl, hstore, h.keyed.createFork new hid, hkeyed'.createFork new hid⟩,
    hnewp ▸ .createFork h.keyed new hid, [], by simp, rfl, rfl⟩

/-! ### Joins -/

/-- Completing states gives out no generation. -/
lemma generation_completeState {id : Uid} (h : completeState id w = .ok () v) :
    v.store.generation = w.store.generation := by
  rw [completeState, Action.onStore, Store.complete] at h
  cases hget : w.store.get? id with
  | none =>
    rw [hget] at h
    cases h
  | some o =>
    rw [hget] at h
    cases h
    rfl

lemma generation_closeFrames {fs stillOpen : List Frame}
    (h : closeFrames fs w = .ok stillOpen v) :
    v.store.generation = w.store.generation := by
  induction fs generalizing w stillOpen with
  | nil =>
    cases h
    rfl
  | cons f rest ih =>
    rw [closeFrames] at h
    split_ifs at h
    · obtain ⟨_, w₁, hcomplete, hrest⟩ := Action.bind_eq_ok.1 h
      rw [ih hrest, generation_completeState hcomplete]
    · obtain ⟨_, w₁, hrest, hpure⟩ := Action.bind_eq_ok.1 h
      cases hpure
      exact ih hrest

lemma generation_conclude {key : JoinKey} {j : GatewayState} {arrival : Arrival}
    (h : conclude key j w = .ok arrival v) : v.store.generation = w.store.generation := by
  have hframes : ∀ {u : Workspace}, (do
      let stillOpen ← closeFrames (j.arrivedFrames.getD [])
      return ⟨true, j.activeBranches, some j.id, some stillOpen⟩ : Action Arrival) u =
        .ok arrival v → v.store.generation = u.store.generation := by
    intro u hu
    obtain ⟨stillOpen, w₁, hclose, hpure⟩ := Action.bind_eq_ok.1 hu
    cases hpure
    exact generation_closeFrames hclose
  rw [conclude] at h
  split_ifs at h
  · cases hcloses : key.closes with
    | none =>
      rw [hcloses] at h
      exact hframes h
    | some fork =>
      rw [hcloses] at h
      obtain ⟨_, w₁, hcomplete, hrest⟩ := Action.bind_eq_ok.1 h
      rw [hframes hrest, generation_completeState hcomplete]
  · cases h
    rfl

/-- An arrival gives out a generation only if it opens a join. -/
lemma generation_join {flows : Option Nat} {arrival : Arrival} (hp : r.instanceId = some p)
    (hmany : r.incoming.any (· ≤ 1) = false) (h : r.join flows w = .ok arrival v) :
    ∃ new : NewJoin, new = ⟨p, r.executionId, r.gateway.id,
        (r.keyAmong (w.store.states p) flows).expected,
        (r.keyAmong (w.store.states p) flows).correlationId⟩ ∧
      v.store.generation = (w.store.createJoin new w.supply.uid.1).2.generation := by
  refine ⟨_, rfl, ?_⟩
  rw [join, hp, Action.orFail_some, pure_bind, if_neg (by simp [hmany]),
    Action.bind_of_ok (Action.readStore_apply w), Action.bind_of_ok (Action.freshUid_apply w),
    Action.bind_of_ok (Action.onStore_of_ok rfl)] at h
  obtain ⟨j, w₁, hrecord, hconclude⟩ := Action.bind_eq_ok.1 h
  rw [generation_conclude hconclude]
  rw [Action.onStore] at hrecord
  split at hrecord
  · next hrecorded =>
    cases hrecord
    exact Store.generation_recordArrival hrecorded
  · cases hrecord

/-- Arrivals at joins are the same for an instance. -/
lemma join_same (hw : w.Sound) (hw' : w'.Sound) (h : w.Agree p w') (hp : r.instanceId = some p)
    (hf : ∀ f ∈ r.frames, f.Sound (w.store.states p)) (flows : Option Nat) :
    SameFor p w w' (r.join flows w) (r.join flows w') := by
  by_cases hone : r.incoming.any (· ≤ 1) = true
  · rw [join, hp, Action.orFail_some, pure_bind, if_pos hone]
    exact .pure h _
  have hmany : r.incoming.any (· ≤ 1) = false := by simpa using hone
  -- Which join is met and how it is sized is read off the states of the instance alone, which are
  -- the same in both; it remains to see what becomes of the generations.
  obtain ⟨_, s₁, rfl, heq, hkeyed, hstates⟩ := join_spec hw hp hf hmany flows
  obtain ⟨_, s₁', rfl, heq', hkeyed', hstates'⟩ :=
    join_spec hw' hp (h.store.states ▸ hf) hmany flows
  obtain ⟨new, hnew, hgeneration⟩ := generation_join hp hmany heq
  obtain ⟨new', hnew', hgeneration'⟩ := generation_join hp hmany heq'
  rw [← h.store.states, ← hnew] at hnew'
  rw [hnew', ← h.supply] at hgeneration'
  have hnewp : new.instanceId = p := by rw [hnew]
  simp only at hgeneration hgeneration'
  rw [heq, heq', ← h.supply, ← h.store.states, ← h.store.generation]
  refine .ok _ ⟨⟨rfl, ⟨?_, ?_⟩, hkeyed, h.supply ▸ hkeyed'⟩, fun q hq => ⟨?_, ?_⟩, [], by simp, rfl,
    rfl⟩
  · rw [hstates p, hstates' p, if_pos rfl, if_pos rfl, ← h.supply, ← h.store.states,
      ← h.store.generation]
  · rw [hgeneration, hgeneration', h.store.generation_createJoin new hnewp]
  · rw [hstates q, if_neg hq]
  · rw [hgeneration]
    exact Store.Spares.generation_createJoin w.store new _ (hnewp ▸ hq)

/-! ### The four kinds -/

lemma splitAll_same (h : w.Agree p w') (hp : r.instanceId = some p) (d : Decision) :
    SameFor p w w' (r.splitAll d w) (r.splitAll d w') := by
  rw [splitAll]
  split_ifs
  · exact (recordFork_same h hp _).bind fun _ _ _ _ _ hagree => .pure hagree _
  · exact .pure h _

lemma parallel_same (hw : w.Sound) (hw' : w'.Sound) (h : w.Agree p w') (hp : r.instanceId = some p)
    (hf : ∀ f ∈ r.frames, f.Sound (w.store.states p)) :
    SameFor p w w' (r.parallel w) (r.parallel w') := by
  rw [parallel]
  split_ifs
  · exact .throw h _
  cases r.incoming with
  | none => exact splitAll_same h hp _
  | some n =>
    simp only
    split_ifs
    · refine (join_same hw hw' h hp hf _).bind fun arrival v v' _ _ hagree => ?_
      split_ifs
      · exact splitAll_same hagree hp _
      · exact .pure hagree _
    · exact splitAll_same h hp _

lemma inclusiveFork_same (h : w.Agree p w') (hp : r.instanceId = some p)
    (hes : ∀ e ∈ r.gateway.inclusiveEvents r.outgoing r.vars, e.isEvaluation = true) :
    SameFor p w w' (r.inclusiveFork w) (r.inclusiveFork w') := by
  refine (SameFor.publish h hes).bind fun _ v v' _ _ hagree => ?_
  simp only
  split_ifs
  · exact .throw hagree _
  · exact (recordFork_same hagree hp _).bind fun _ _ _ _ _ hrecorded => .pure hrecorded _

lemma inclusiveJoin_same (hw : w.Sound) (hw' : w'.Sound) (h : w.Agree p w')
    (hp : r.instanceId = some p) (hf : ∀ f ∈ r.frames, f.Sound (w.store.states p)) :
    SameFor p w w' (r.inclusiveJoin w) (r.inclusiveJoin w') := by
  rw [inclusiveJoin]
  cases r.outgoing.head? with
  | none => exact .throw h _
  | some flow =>
    rw [Action.orFail_some, pure_bind]
    exact (join_same hw hw' h hp hf none).bind fun _ _ _ _ _ hagree => .pure hagree _

/-- Activations are the same for an instance. -/
theorem activate_same (hw : w.Sound) (hw' : w'.Sound) (h : w.Agree p w')
    (hp : r.instanceId = some p) (hf : ∀ f ∈ r.frames, f.Sound (w.store.states p)) :
    SameFor p w w' (r.activate w) (r.activate w') := by
  have hevents := r.guardEvents_evaluations
  rw [guardEvents] at hevents
  rw [activate]
  cases hkind : r.gateway.kind with
  | exclusive =>
    rw [hkind] at hevents
    exact (SameFor.publish h hevents).bind fun _ _ _ _ _ hagree =>
      (SameFor.orFail hagree _ _).bind fun _ _ _ _ _ hchosen => .pure hchosen _
  | parallel => exact parallel_same hw hw' h hp hf
  | inclusive =>
    rw [hkind] at hevents
    simp only at hevents ⊢
    split_ifs at hevents ⊢
    · exact inclusiveFork_same h hp hevents
    · exact inclusiveJoin_same hw hw' h hp hf
  | eventBased =>
    simp only [eventBased]
    split_ifs
    · exact .throw h _
    · exact .pure h _

end Request

end ProcessEngine

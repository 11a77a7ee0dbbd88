import ProcessEngine.Proofs.Engine.Runs
import ProcessEngine.Proofs.Lists
import ProcessEngine.Proofs.Supply

/-!
# Sound engines

`Engine.Sound` is the invariant of every run of calls: the store is in order and holds states for
live instances only, registered instances have ids that were issued, every live instance is kept
together with its states, and no token is parked in an ended one.  Here it is shown for the three
ways in which a call can end: nothing has changed that anybody could see (`Sound.unseen`), a run is
committed (`Sound.commit`), or an instance is dropped (`Sound.terminate`).
-/

namespace ProcessEngine

namespace Engine

/-! ## The registry -/

section Registry

variable {e : Engine} {id : String}

lemma registered?_register (e : Engine) (i : Instance) (d : Definition) (id : String) :
    (e.register i d).registered? id = if id = i.id then some ⟨i, d⟩ else e.registered? id := by
  rw [registered?, register, lookup_set, registered?]
  simp only [beq_iff_eq]

lemma registered?_unregister (e : Engine) (gone id : String) :
    (e.unregister gone).registered? id = if id = gone then none else e.registered? id := by
  rw [registered?, unregister, lookup_filter (· != gone), registered?]
  by_cases hid : id = gone <;> simp [hid]

end Registry

lemma perform_ok {α : Type} {e : Engine} {a : Action α} {x : α} {w : Workspace}
    (h : a e.workspace = .ok x w) : e.perform a = (.ok x, { e with workspace := w }) := by
  rw [perform, EStateM.run, h]

lemma perform_error {α : Type} {e : Engine} {a : Action α} {err : EngineError} {w : Workspace}
    (h : a e.workspace = .error err w) :
    e.perform a = (.error err, { e with workspace := w }) := by
  rw [perform, EStateM.run, h]

section Live

variable {e : Engine} {id : String} {r : Registered}

lemma live_unknown (h : e.registered? id = none) : e.live id = .error (.instanceNotFound id) := by
  rw [live, h]

lemma live_ended (h : e.registered? id = some r) (hended : r.current.isEnded = true) :
    e.live id = .error (.instanceEnded id) := by
  rw [live, h]
  exact if_pos hended

lemma live_running (h : e.registered? id = some r) (hlive : r.current.isEnded = false) :
    e.live id = .ok r := by
  rw [live, h]
  exact if_neg (by simp [hlive])

end Live

/-! ## Commits -/

section Commit

variable (e : Engine) (d : Definition) (run : Run)

@[simp] lemma registry_settle : (e.settle run).registry = e.registry := by
  rw [settle]
  split_ifs <;> rfl

@[simp] lemma supply_settle : (e.settle run).workspace.supply = e.workspace.supply := by
  rw [settle]
  split_ifs <;> rfl

@[simp] lemma bus_settle :
    (e.settle run).workspace.bus = e.workspace.bus.publishAll run.events := by
  rw [settle]
  split_ifs <;> rfl

@[simp] lemma config_settle : (e.settle run).config = e.config := by
  rw [settle]
  split_ifs <;> rfl

@[simp] lemma coordinator_settle :
    (e.settle run).coordinator = e.coordinator.map fun c =>
      run.completions.foldl (fun c completion => (c.recordExecution completion).2) c := by
  rw [settle]
  split_ifs <;> rfl

/-- The states of an ended instance are dropped. -/
lemma store_settle :
    (e.settle run).workspace.store =
      if run.current.isEnded then (e.workspace.store.deleteInstance run.current.id).2
      else e.workspace.store := by
  rw [settle]
  split_ifs <;> rfl

lemma states_settle (q : String) :
    (e.settle run).workspace.store.states q =
      if run.current.isEnded = true ∧ q = run.current.id then []
      else e.workspace.store.states q := by
  rw [store_settle]
  by_cases hended : run.current.isEnded = true
  · rw [if_pos hended, Store.states_deleteInstance]
    simp [hended]
  · rw [if_neg hended, if_neg fun h => hended h.1]

variable {e}

lemma sound_settle (hw : e.workspace.Sound) : (e.settle run).workspace.Sound := by
  refine ⟨?_, fun q => ?_, fun q => ?_⟩
  · rw [store_settle, supply_settle]
    split_ifs
    · exact hw.keyed.deleteInstance _
    · exact hw.keyed
  · rw [states_settle]
    split_ifs
    · simp
    · exact hw.joins q
  · rw [states_settle]
    split_ifs
    · simp
    · exact hw.forks q

end Commit

/-! ## The invariant -/

/-- An engine in good order. -/
structure Sound (e : Engine) : Prop where
  workspace : e.workspace.Sound
  known : ∀ id r, e.registered? id = some r →
    r.current.id = id ∧ Issued e.workspace.supply.issued id
  stored : ∀ id, e.workspace.store.states id ≠ [] →
    ∃ r, e.registered? id = some r ∧ r.current.isEnded = false
  kept : ∀ id r, e.registered? id = some r → r.current.isEnded = false →
    Kept r.definition r.current (e.workspace.store.states id)
  ended : ∀ id r, e.registered? id = some r → r.current.isEnded = true → r.current.tokens = []

namespace Sound

variable {e : Engine}

lemma new (config : Config) (clock : Nat → Instant) : (new config (.start clock)).Sound where
  workspace := ⟨⟨List.nodup_nil, nofun⟩, nofun, nofun⟩
  known := nofun
  stored _ h := absurd rfl h
  kept := nofun
  ended := nofun

/-- Neither the bus nor the coordinator matters. -/
lemma congr {e' : Engine} (h : e.Sound) (hs : e'.workspace.store = e.workspace.store)
    (hi : e'.workspace.supply = e.workspace.supply) (hr : e'.registry = e.registry) :
    e'.Sound := by
  have hregistered : ∀ id, e'.registered? id = e.registered? id := fun id => by
    rw [registered?, hr, registered?]
  refine ⟨h.workspace.congr hs (by rw [hi]), fun id r hid => ?_, fun id => ?_, fun id r hid => ?_,
    fun id r hid => h.ended id r (hregistered id ▸ hid)⟩
  · rw [hi]
    exact h.known id r (hregistered id ▸ hid)
  · rw [hs, hregistered]
    exact h.stored id
  · rw [hs]
    exact h.kept id r (hregistered id ▸ hid)

lemma unseen (h : e.Sound) {w : Workspace} (hu : Unseen e.workspace w) :
    Sound { e with workspace := w } where
  workspace := hu.sound h.workspace
  known id r hid := ⟨(h.known id r hid).1, (h.known id r hid).2.mono hu.issued⟩
  stored id := by
    simp only [hu.states]
    exact h.stored id
  kept id r hid := by
    simp only [hu.states]
    exact h.kept id r hid
  ended := h.ended

/-- The id of the next instance is not taken, and no state is stored for it. -/
lemma states_instanceId (h : e.Sound) :
    e.workspace.store.states e.workspace.supply.instanceId.1 = [] := by
  by_contra hne
  obtain ⟨r, hr, -⟩ := h.stored _ hne
  exact (h.known _ r hr).2.ne_instanceId rfl

/-- A run in good order is committed. -/
lemma commit (h : e.Sound) {w : Workspace} {p : String} {es : List Event} {d : Definition}
    {run : Run} (hw : w.Sound) (hc : Confined p es e.workspace w) (hp : run.current.id = p)
    (hissued : Issued w.supply.issued p) (hk : Kept d run.current (w.store.states p))
    (hend : run.current.isEnded = true → run.current.tokens = []) :
    (({ e with workspace := w }.commit d run).2).Sound := by
  set e₁ := Engine.register { e with workspace := w } run.current d with he₁
  change (e₁.settle run).Sound
  have hregistered : ∀ id, (e₁.settle run).registered? id =
      if id = p then some ⟨run.current, d⟩ else e.registered? id := by
    intro id
    rw [registered?, registry_settle, ← registered?, he₁, registered?_register, hp]
    rfl
  refine ⟨sound_settle run hw, fun id r hid => ?_, fun id hne => ?_, fun id r hid hlive => ?_,
    fun id r hid hended => ?_⟩
  · rw [hregistered] at hid
    rw [supply_settle]
    split_ifs at hid with heq
    · obtain rfl := Option.some.inj hid
      exact ⟨hp.trans heq.symm, heq ▸ hissued⟩
    · exact ⟨(h.known id r hid).1, (h.known id r hid).2.mono hc.issued⟩
  · rw [states_settle] at hne
    split_ifs at hne with hended
    · exact absurd rfl hne
    · rw [hregistered]
      by_cases heq : id = p
      · rw [if_pos heq]
        exact ⟨_, rfl, by simpa [heq, hp] using hended⟩
      · rw [if_neg heq]
        refine h.stored id ?_
        rw [← hc.others id heq]
        exact hne
  · rw [hregistered] at hid
    rw [states_settle]
    split_ifs at hid with heq
    · obtain rfl := Option.some.inj hid
      rw [if_neg fun hand => by simp [hand.1] at hlive, heq]
      exact hk
    · rw [if_neg fun hand => heq (hand.2.trans hp), show e₁.workspace.store.states id = _ from
        hc.others id heq]
      exact h.kept id r hid hlive
  · rw [hregistered] at hid
    split_ifs at hid with heq
    · obtain rfl := Option.some.inj hid
      exact hend hended
    · exact h.ended id r hid hended

/-- An instance is dropped with its states. -/
lemma terminate (h : e.Sound) {id : String} {supply : Supply} {run : Run}
    (hi : supply.issued = e.workspace.supply.issued) (hid : run.current.id = id)
    (hended : run.current.isEnded = true) :
    ((Engine.unregister { e with workspace := { e.workspace with supply } } id).settle
      run).Sound := by
  set e₁ := Engine.unregister { e with workspace := { e.workspace with supply } } id with he₁
  have hregistered : ∀ q, (e₁.settle run).registered? q =
      if q = id then none else e.registered? q := by
    intro q
    rw [registered?, registry_settle, ← registered?, he₁, registered?_unregister]
    rfl
  have hstates : ∀ q, (e₁.settle run).workspace.store.states q =
      if q = id then [] else e.workspace.store.states q := by
    intro q
    rw [states_settle, hid]
    simp only [hended, true_and]
    rfl
  have hsound : e₁.workspace.Sound := h.workspace.congr rfl (Nat.le_of_eq hi.symm)
  refine ⟨sound_settle run hsound, fun q r hq => ?_, fun q hne => ?_, fun q r hq hlive => ?_,
    fun q r hq => ?_⟩
  · rw [hregistered] at hq
    split_ifs at hq with heq
    rw [supply_settle]
    exact ⟨(h.known q r hq).1, (h.known q r hq).2.mono (Nat.le_of_eq hi.symm)⟩
  · rw [hstates] at hne
    split_ifs at hne with heq
    · exact absurd rfl hne
    · rw [hregistered, if_neg heq]
      exact h.stored q hne
  · rw [hregistered] at hq
    split_ifs at hq with heq
    rw [hstates, if_neg heq]
    exact h.kept q r hq hlive
  · rw [hregistered] at hq
    split_ifs at hq
    exact h.ended q r hq

end Sound

end Engine

end ProcessEngine

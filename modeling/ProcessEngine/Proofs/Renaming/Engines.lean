import ProcessEngine.Proofs.Engine.Reachable
import ProcessEngine.Proofs.Renaming.Runs

/-!
# Engines that look the same

`Engine.Alike` says that two engines look the same through a renaming: what is registered with them
and what is stored for each instance.  A call to the one and the renamed call to the other come to
the same then, and the engines look the same afterwards (`call_alike`).  A start adds one pair of
instances to the renaming; the ids that were handed out before keep their counterparts
(`Renaming.Extends`).
-/

namespace ProcessEngine

open Compensation (Completion)

/-! ## Extending a renaming -/

namespace Renaming

/-- The second renaming agrees with the first one on all ids of instances that both engines may have
handed out, and on all other identifiers. -/
structure Extends (κ κ' : Renaming) (e e' : Engine) : Prop where
  names : ∀ id, Issued e.workspace.supply.issued id →
    Issued e'.workspace.supply.issued (κ.names id) → κ'.names id = κ.names id
  uid : κ'.uid = κ.uid

lemma Extends.refl (κ : Renaming) (e e' : Engine) : κ.Extends κ e e' := ⟨fun _ _ _ => rfl, rfl⟩

/-- The renaming with one more pair of instances. -/
def pair (κ : Renaming) (p q : String) : Renaming :=
  { κ with names := κ.names.trans (Equiv.swap (κ.names p) q) }

@[simp] lemma names_pair (κ : Renaming) (p q : String) : (κ.pair p q).names p = q :=
  Equiv.swap_apply_left (κ.names p) q

/-- A start pairs the two new instances. -/
lemma extends_pair (κ : Renaming) (e e' : Engine) :
    κ.Extends (κ.pair e.workspace.supply.instanceId.1 e'.workspace.supply.instanceId.1) e e' where
  names id hid hid' := by
    refine Equiv.swap_apply_of_ne_of_ne (fun heq => ?_) hid'.ne_instanceId
    exact hid.ne_instanceId (κ.names_inj.1 heq)
  uid := rfl

end Renaming

section Congr

variable {κ κ' : Renaming} (h : κ'.uid = κ.uid)

include h

lemma Frame.seen_congr : Frame.seen κ' = Frame.seen κ := by
  funext f
  rw [seen, seen, h]

lemma GatewayState.seen_congr {s : GatewayState}
    (hname : κ'.names s.instanceId = κ.names s.instanceId) : s.seen κ' = s.seen κ := by
  rw [seen, seen, h, hname, Frame.seen_congr h]

lemma Registered.seen_congr {r : Registered}
    (hname : κ'.names r.current.id = κ.names r.current.id) : r.seen κ' = r.seen κ := by
  have htokens : Token.seen κ' = Token.seen κ := by
    funext t
    rw [Token.seen, Token.seen, Frame.seen_congr h]
  rw [seen, seen, Instance.seen, Instance.seen, hname, htokens]

end Congr

/-! ## Engines -/

namespace Engine

variable {κ κ' : Renaming} {e e' : Engine}

/-- Engines that look the same. -/
structure Alike (κ : Renaming) (e e' : Engine) : Prop where
  config : e.config = e'.config
  registered : ∀ id, (e.registered? id).map (Registered.seen κ) =
    (e'.registered? (κ.names id)).map (Registered.seen .same)
  workspace : e.workspace.Alike κ e'.workspace

namespace Alike

/-- An instance and its counterpart. -/
lemma of_registered (h : e.Alike κ e') {id : String} {r : Registered}
    (hr : e.registered? id = some r) :
    ∃ r', e'.registered? (κ.names id) = some r' ∧ r.seen κ = r'.seen .same := by
  have hboth := h.registered id
  rw [hr, Option.map_some, eq_comm, Option.map_eq_some_iff] at hboth
  obtain ⟨r', hr', hsame⟩ := hboth
  exact ⟨r', hr', hsame.symm⟩

lemma none_iff (h : e.Alike κ e') (id : String) :
    e.registered? id = none ↔ e'.registered? (κ.names id) = none := by
  rw [← Option.map_eq_none_iff (f := Registered.seen κ), h.registered id, Option.map_eq_none_iff]

/-- The registered instances correspond. -/
lemma mem_instanceIds (h : e.Alike κ e') (id : String) :
    id ∈ e.instanceIds ↔ κ.names id ∈ e'.instanceIds := by
  have hmem : ∀ (e : Engine) (id : String), id ∈ e.instanceIds ↔ ¬e.registered? id = none := by
    intro e id
    rw [instanceIds, List.mem_mergeSort, registered?, List.lookup_eq_none_iff]
    simp only [List.mem_map, Prod.exists, exists_and_right, exists_eq_right, not_forall,
      Prod.forall, bne_iff_ne, ne_eq, Decidable.not_not]
    constructor
    · rintro ⟨r, hr⟩
      exact ⟨id, r, hr, rfl⟩
    · rintro ⟨q, r, hr, rfl⟩
      exact ⟨r, hr⟩
  rw [hmem, hmem, h.none_iff]

/-- Engines still look the same when a renaming is extended: all ids in them were handed out before.
-/
lemma extend (h : e.Alike κ e') (hs : e.Sound) (hs' : e'.Sound) (hκ : κ.Extends κ' e e') :
    e.Alike κ' e' := by
  have hname : ∀ id r, e.registered? id = some r → κ'.names id = κ.names id := by
    intro id r hr
    obtain ⟨r', hr', -⟩ := h.of_registered hr
    exact hκ.names id (hs.known id r hr).2 (hs'.known _ r' hr').2
  have hnone : ∀ id, e.registered? id = none → e'.registered? (κ'.names id) = none := by
    intro id hid
    by_contra hsome
    -- The instance of the second engine has a counterpart already.
    obtain ⟨q, hq⟩ : ∃ q, κ.names q = κ'.names id := ⟨_, κ.names.apply_symm_apply _⟩
    rw [← hq, ← h.none_iff, ← ne_eq, Option.ne_none_iff_exists'] at hsome
    obtain ⟨r, hr⟩ := hsome
    obtain rfl : q = id := κ'.names_inj.1 ((hname q r hr).trans hq)
    rw [hid] at hr
    cases hr
  refine ⟨h.config, fun id => ?_, fun q => ?_, fun k => ?_⟩
  · cases hr : e.registered? id with
    | none =>
      rw [hnone id hr]
      rfl
    | some r =>
      rw [hname id r hr, ← h.registered id, hr, Option.map_some, Option.map_some,
        Registered.seen_congr hκ.uid]
      rw [(hs.known id r hr).1]
      exact hname id r hr
  · cases hr : e.registered? q with
    | none =>
      have hempty : ∀ (e : Engine) (id : String), e.Sound → e.registered? id = none →
          e.workspace.store.states id = [] := by
        intro e id hs hid
        by_contra hne
        obtain ⟨r, hr, -⟩ := hs.stored id hne
        rw [hid] at hr
        cases hr
      rw [hempty e q hs hr, hempty e' _ hs' (hnone q hr)]
      rfl
    | some r =>
      rw [hname q r hr, ← h.workspace.states q]
      refine List.map_congr_left fun s hmem => GatewayState.seen_congr hκ.uid ?_
      rw [(hs.workspace.states q).owned s hmem]
      exact hname q r hr
  · rw [hκ.uid]
    exact h.workspace.fresh k

end Alike

/-! ## Outcomes of calls -/

/-- The result of a call as it is seen. -/
def seenResult (κ : Renaming) : Except EngineError Instance → Except EngineError Instance
  | .ok i => .ok (i.seen κ)
  | .error err => .error (err.seen κ)

/-- What has been made known between two states of an engine: the events that were published and the
completed tasks that were recorded. -/
structure Discloses (e later : Engine) (events : List Event) (completions : List Completion) :
    Prop where
  bus : later.workspace.bus = e.workspace.bus.publishAll events
  coordinator : later.coordinator = (e.recordCompletions completions).coordinator

/-- Two calls that come to the same: the results, what is made known, and the engines look the same.
-/
structure SameOutcome (κ : Renaming) (e e' : Engine)
    (x x' : Except EngineError Instance × Engine) : Prop where
  result : seenResult κ x.1 = seenResult .same x'.1
  disclosed : ∃ events events' completions completions',
    e.Discloses x.2 events completions ∧ e'.Discloses x'.2 events' completions' ∧
      events.map (Event.seen κ) = events'.map (Event.seen .same) ∧
      completions.map (Completion.seen κ) = completions'.map (Completion.seen .same)
  alike : x.2.Alike κ x'.2

/-- Nothing is recorded. -/
lemma coordinator_recordCompletions_nil (e : Engine) :
    (e.recordCompletions []).coordinator = e.coordinator := by
  rw [recordCompletions]
  cases e.coordinator <;> rfl

lemma discloses_evaluations {e : Engine} {v : Workspace} {es : List Event}
    (h : v.bus = e.workspace.bus.publishAll es) :
    e.Discloses { e with workspace := v } es [] :=
  ⟨h, (coordinator_recordCompletions_nil e).symm⟩

namespace SameOutcome

variable {v v' : Workspace}

/-- Both calls fail. -/
lemma failed {err err' : EngineError} (herror : err.seen κ = err'.seen .same)
    (hnews : EqualNews e.workspace e'.workspace v v')
    (h : Alike κ { e with workspace := v } { e' with workspace := v' }) :
    SameOutcome κ e e' (.error err, { e with workspace := v })
      (.error err', { e' with workspace := v' }) := by
  obtain ⟨es, hes, hbus, hbus'⟩ := hnews
  refine ⟨congrArg Except.error herror, ⟨es, es, [], [], discloses_evaluations hbus,
    discloses_evaluations hbus', ?_, rfl⟩, h⟩
  rw [map_seen_evaluations κ hes, map_seen_evaluations .same hes]

/-- What both calls made known before they settled their runs. -/
lemma disclosed_settle {run run' : Run} (hrun : SameRun κ run run')
    (hnews : EqualNews e.workspace e'.workspace v v') {e₁ e₁' : Engine}
    (hw : e₁.workspace.bus = v.bus) (hw' : e₁'.workspace.bus = v'.bus)
    (hc : e₁.coordinator = e.coordinator) (hc' : e₁'.coordinator = e'.coordinator) :
    ∃ events events' completions completions',
      e.Discloses (e₁.settle run) events completions ∧
        e'.Discloses (e₁'.settle run') events' completions' ∧
        events.map (Event.seen κ) = events'.map (Event.seen .same) ∧
        completions.map (Completion.seen κ) = completions'.map (Completion.seen .same) := by
  obtain ⟨es, hes, hbus, hbus'⟩ := hnews
  obtain ⟨-, hevents, hcompletions⟩ := Run.mk.inj hrun
  refine ⟨es ++ run.events, es ++ run'.events, run.completions, run'.completions, ⟨?_, ?_⟩,
    ⟨?_, ?_⟩, ?_, hcompletions⟩
  · rw [bus_settle, hw, hbus, EventBus.publishAll_append]
  · rw [coordinator_settle, hc]
    rfl
  · rw [bus_settle, hw', hbus', EventBus.publishAll_append]
  · rw [coordinator_settle, hc']
    rfl
  · rw [List.map_append, List.map_append, hevents, map_seen_evaluations κ hes,
      map_seen_evaluations .same hes]

/-- States look the same after both runs are settled. -/
lemma workspace_settle {run run' : Run} (hrun : SameRun κ run run') {e₁ e₁' : Engine}
    (h : e₁.workspace.Alike κ e₁'.workspace) :
    (e₁.settle run).workspace.Alike κ (e₁'.settle run').workspace := by
  refine h.issue (n := 0) (by rw [supply_settle]; rfl) (by rw [supply_settle]; rfl) fun q => ?_
  rw [states_settle, states_settle, ← Run.isEnded_of_seen hrun, ← Run.names_of_seen hrun]
  simp only [κ.names_inj]
  split_ifs
  · rfl
  · exact h.states q

/-- Both calls commit. -/
lemma committed {run run' : Run} {d : Definition} (h : e.Alike κ e') (hrun : SameRun κ run run')
    (hw : v.Alike κ v') (hnews : EqualNews e.workspace e'.workspace v v') :
    SameOutcome κ e e' (.ok run.current, (commit { e with workspace := v } d run).2)
      (.ok run'.current, (commit { e' with workspace := v' } d run').2) := by
  have hcurrent : run.current.seen κ = run'.current.seen .same := congrArg Run.current hrun
  refine ⟨congrArg Except.ok hcurrent, disclosed_settle hrun hnews rfl rfl rfl rfl, ?_,
    fun id => ?_, workspace_settle hrun hw⟩
  · rw [commit, commit, config_settle, config_settle]
    exact h.config
  · simp only [commit, registered?, registry_settle]
    rw [← registered?, ← registered?, registered?_register, registered?_register,
      ← Run.names_of_seen hrun]
    simp only [κ.names_inj]
    split_ifs
    · rw [Option.map_some, Option.map_some, Registered.seen, Registered.seen, hcurrent]
    · exact h.registered id

/-- Both calls terminate an instance. -/
lemma terminated {run run' : Run} (h : e.Alike κ e') (hrun : SameRun κ run run') (id : String)
    (hw : v.Alike κ v') (hnews : EqualNews e.workspace e'.workspace v v') :
    SameOutcome κ e e'
      (.ok run.current, (unregister { e with workspace := v } id).settle run)
      (.ok run'.current, (unregister { e' with workspace := v' } (κ.names id)).settle run') := by
  refine ⟨congrArg Except.ok (congrArg Run.current hrun),
    disclosed_settle hrun hnews rfl rfl rfl rfl, ?_, fun q => ?_, workspace_settle hrun hw⟩
  · rw [config_settle, config_settle]
    exact h.config
  · simp only [registered?, registry_settle]
    rw [← registered?, ← registered?, registered?_unregister, registered?_unregister]
    simp only [κ.names_inj]
    split_ifs
    · rfl
    · exact h.registered q

end SameOutcome

end Engine

end ProcessEngine

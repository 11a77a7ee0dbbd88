import ProcessEngine.Proofs.Renaming.Engines

/-!
# Calls to engines that look the same

A call to an engine and the renamed call to one that looks the same come to the same, and the
engines look the same afterwards (`call_alike`).  So no sequence of calls ever tells them apart
(`Alike.sameCourse`).
-/

namespace ProcessEngine

/-- A call as it is made to an engine that looks the same: about the counterpart of its instance. -/
def Call.renamed (κ : Renaming) : Call → Call
  | .start d businessKey vars => .start d businessKey vars
  | .proceed id task updates => .proceed (κ.names id) task updates
  | .suspend id element => .suspend (κ.names id) element
  | .resume id element => .resume (κ.names id) element
  | .terminate id reason => .terminate (κ.names id) reason

namespace Engine

variable {κ : Renaming} {e e' : Engine}

/-- A call that is refused at once. -/
lemma SameOutcome.refused (h : e.Alike κ e') {err err' : EngineError}
    (herror : err.seen κ = err'.seen .same) :
    SameOutcome κ e e' (.error err, e) (.error err', e') :=
  SameOutcome.failed (v := e.workspace) herror (.refl _ _) h

/-- Both calls carry out actions that go on alike. -/
lemma SameOutcome.carryOut (h : e.Alike κ e') (d : Definition) {action action' : Action Run}
    (haction : Outcomes κ (SameRun κ) e.workspace e'.workspace (action e.workspace)
      (action' e'.workspace)) :
    SameOutcome κ e e' (e.carryOut d action) (e'.carryOut d action') := by
  generalize hx : action e.workspace = x at haction
  generalize hx' : action' e'.workspace = x' at haction
  cases haction with
  | ok hrun hw hnews =>
    rw [Engine.carryOut, Engine.carryOut, perform_ok hx, perform_ok hx']
    exact .committed h hrun hw hnews
  | error herror hw hnews =>
    rw [Engine.carryOut, Engine.carryOut, perform_error hx, perform_error hx']
    exact .failed herror hnews ⟨h.config, h.registered, hw⟩

/-- Calls on a live instance and on its counterpart. -/
lemma onLive_alike (h : e.Alike κ e') (id : String) {action action' : Registered → Action Run}
    (haction : ∀ r r', e.registered? id = some r → e'.registered? (κ.names id) = some r' →
      r.current.isEnded = false → r'.current.isEnded = false → r.seen κ = r'.seen .same →
        Outcomes κ (SameRun κ) e.workspace e'.workspace (action r e.workspace)
          (action' r' e'.workspace)) :
    SameOutcome κ e e' (e.onLive id action) (e'.onLive (κ.names id) action') := by
  cases hr : e.registered? id with
  | none =>
    have hr' := (h.none_iff id).1 hr
    rw [onLive, onLive, live_unknown hr, live_unknown hr']
    exact .refused h rfl
  | some r =>
    obtain ⟨r', hr', hseen⟩ := h.of_registered hr
    obtain ⟨hcurrent, hdefinition⟩ := Registered.mk.inj hseen
    have hsame : r'.current.isEnded = r.current.isEnded := by
      rw [← Instance.isEnded_seen κ r.current, hcurrent, Instance.isEnded_seen]
    cases hended : r.current.isEnded with
    | true =>
      rw [onLive, onLive, live_ended hr hended, live_ended hr' (hsame.trans hended)]
      exact .refused h rfl
    | false =>
      have hended' := hsame.trans hended
      rw [onLive, onLive, live_running hr hended, live_running hr' hended']
      simp only [← hdefinition]
      exact .carryOut h r.definition (haction r r' hr hr' hended hended' hseen)

/-- The new instances of two starts. -/
lemma sameRun_opening {p p' : String} (hp : κ.names p = p') (d : Definition) (businessKey : String)
    (vars : Variables) (now now' : Instant) :
    SameRun κ
      ((Run.on (.fresh p d.id businessKey vars now)).emit (.processStart p d.id businessKey))
      ((Run.on (.fresh p' d.id businessKey vars now')).emit
        (.processStart p' d.id businessKey)) := by
  rw [SameRun, Run.seen_emit, Run.seen_emit]
  simp only [Run.on, Run.seen, Instance.fresh, Instance.seen, Event.seen, hp, List.map_nil]
  rfl

lemma opening_eq (supply : Supply) (d : Definition) (businessKey : String) (vars : Variables) :
    opening supply d businessKey vars =
      ((Run.on (.fresh supply.instanceId.1 d.id businessKey
        (Fields.insert vars businessKeyName (.string businessKey)) supply.instanceId.2.now.1)).emit
          (.processStart supply.instanceId.1 d.id businessKey), supply.instanceId.2.now.2) := rfl

/-- What was stored for a new instance is forgotten again when its start fails. -/
lemma alike_forgotten {v v' : Workspace} (h : v.Alike κ v') {p p' : String} (hp : κ.names p = p') :
    Workspace.Alike κ { v with store := (v.store.deleteInstance p).2 }
      { v' with store := (v'.store.deleteInstance p').2 } := by
  refine h.issue (n := 0) rfl rfl fun q => ?_
  simp only [Store.states_deleteInstance, ← hp, κ.names_inj]
  split_ifs
  · rfl
  · exact h.states q

/-- Starts of the same process come to the same, up to the ids of the new instances. -/
lemma start_alike (h : e.Alike κ e') (hs : e.Sound) (hs' : e'.Sound) (d : Definition)
    (businessKey : String) (vars : Option Variables) :
    ∃ κ', κ.Extends κ' e e' ∧
      SameOutcome κ' e e' (e.start d businessKey vars) (e'.start d businessKey vars) := by
  have hextends := κ.extends_pair e e'
  obtain ⟨κ', hκ'⟩ : ∃ κ', κ' = κ.pair e.workspace.supply.instanceId.1
      e'.workspace.supply.instanceId.1 := ⟨_, rfl⟩
  rw [← hκ'] at hextends
  have hpair : κ'.names e.workspace.supply.instanceId.1 = e'.workspace.supply.instanceId.1 := by
    rw [hκ', Renaming.names_pair]
  have h' := h.extend hs hs' hextends
  refine ⟨κ', hextends, ?_⟩
  cases hstart : d.startEvents with
  | nil =>
    rw [start, start, hstart]
    exact .refused h' rfl
  | cons first rest =>
    have hopening := opening_eq e.workspace.supply d businessKey (vars.getD [])
    have hopening' := opening_eq e'.workspace.supply d businessKey (vars.getD [])
    have hrun := sameRun_opening hpair d businessKey
      (Fields.insert (vars.getD []) businessKeyName (.string businessKey))
      e.workspace.supply.instanceId.2.now.1 e'.workspace.supply.instanceId.2.now.1
    have hsound : Workspace.Sound { e.workspace with
        supply := e.workspace.supply.instanceId.2.now.2 } :=
      hs.workspace.congr rfl (Nat.le_succ _)
    have hsound' : Workspace.Sound { e'.workspace with
        supply := e'.workspace.supply.instanceId.2.now.2 } :=
      hs'.workspace.congr rfl (Nat.le_succ _)
    have hwalk := (firstWalk_concurs (d := d) e.config.maxTraversalSteps first hsound hsound'
      (h'.workspace.supply (n := 1) rfl rfl) hrun (hs.states_instanceId ▸ .fresh rfl rfl)
      (hs'.states_instanceId ▸ .fresh rfl rfl)).after ⟨[], by simp, rfl, rfl⟩
    have hlimit : e'.config.maxTraversalSteps = e.config.maxTraversalSteps := by rw [h.config]
    rw [start_eq e hstart hopening, start_eq e' hstart hopening', hlimit]
    generalize firstWalk _ d e.config.maxTraversalSteps first { e.workspace with
      supply := e.workspace.supply.instanceId.2.now.2 } = x at hwalk
    generalize firstWalk _ d e.config.maxTraversalSteps first { e'.workspace with
      supply := e'.workspace.supply.instanceId.2.now.2 } = x' at hwalk
    cases hwalk with
    | ok hrun hw hnews => exact SameOutcome.committed h' hrun hw hnews
    | @error err err' v v' herror hw hnews =>
      have hforgotten : EqualNews e.workspace e'.workspace
          { v with store := (v.store.deleteInstance e.workspace.supply.instanceId.1).2 }
          { v' with store := (v'.store.deleteInstance e'.workspace.supply.instanceId.1).2 } := hnews
      exact SameOutcome.failed herror hforgotten
        ⟨h'.config, h'.registered, alike_forgotten hw hpair⟩

/-- Terminations of an instance and of its counterpart come to the same. -/
lemma terminate_alike (h : e.Alike κ e') (id : String) (reason : Option String) :
    SameOutcome κ e e' (e.terminate id reason) (e'.terminate (κ.names id) reason) := by
  cases hr : e.registered? id with
  | none =>
    have hr' := (h.none_iff id).1 hr
    rw [terminate, terminate, hr, hr']
    exact .refused h rfl
  | some r =>
    obtain ⟨r', hr', hseen⟩ := h.of_registered hr
    rw [terminate, terminate, hr, hr']
    have hrun := terminateRun_concurs reason h.workspace hseen
    generalize hx : terminateRun r reason e.workspace = x at hrun
    generalize hx' : terminateRun r' reason e'.workspace = x' at hrun
    cases hrun with
    | ok hrun hw hnews =>
      simp only [perform_ok hx, perform_ok hx']
      exact .terminated h hrun id hw hnews
    | error herror hw hnews =>
      simp only [perform_error hx, perform_error hx']
      exact .failed herror hnews ⟨h.config, h.registered, hw⟩

/-- A call and the renamed call come to the same. -/
theorem call_alike (h : e.Alike κ e') (hs : e.Sound) (hs' : e'.Sound) (c : Call) :
    ∃ κ', κ.Extends κ' e e' ∧ SameOutcome κ' e e' (e.call c) (e'.call (c.renamed κ)) := by
  have hkept : ∀ {e : Engine} {id : String} {r : Registered}, e.Sound → e.registered? id = some r →
      r.current.isEnded = false →
        Kept r.definition r.current (e.workspace.store.states r.current.id) := by
    intro e id r hs hr hlive
    rw [(hs.known id r hr).1]
    exact hs.kept id r hr hlive
  cases c with
  | start d businessKey vars => exact start_alike h hs hs' d businessKey vars
  | proceed id task updates =>
    refine ⟨κ, .refl κ e e', ?_⟩
    rw [call, Call.renamed, call, continueInstance_eq, continueInstance_eq, ← h.config]
    exact onLive_alike h id fun r r' hr hr' hlive hlive' hseen =>
      continuation_concurs _ task updates hs.workspace hs'.workspace h.workspace hseen
        (hkept hs hr hlive) (hkept hs' hr' hlive')
  | suspend id element =>
    exact ⟨κ, .refl κ e e', onLive_alike h id fun r r' _ _ _ _ hseen =>
      suspendRun_concurs element h.workspace hseen⟩
  | resume id element =>
    exact ⟨κ, .refl κ e e', onLive_alike h id fun r r' _ _ _ _ hseen =>
      resumeRun_concurs element h.workspace hseen⟩
  | terminate id reason => exact ⟨κ, .refl κ e e', terminate_alike h id reason⟩

/-! ## Sequences of calls -/

/-- Calls in order, and the renamed calls to another engine, that come to the same one after the
other. A start may add a pair of instances to the renaming. -/
inductive SameCourse : Renaming → Engine → Engine → List Call → Prop
  | nil {κ : Renaming} {e e' : Engine} : SameCourse κ e e' []
  | cons {κ κ' : Renaming} {e e' : Engine} {c : Call} {rest : List Call}
      (hextends : κ.Extends κ' e e')
      (houtcome : SameOutcome κ' e e' (e.call c) (e'.call (c.renamed κ)))
      (hrest : SameCourse κ' (e.call c).2 (e'.call (c.renamed κ)).2 rest) :
      SameCourse κ e e' (c :: rest)

/-- No calls tell engines apart that look the same. -/
theorem Alike.sameCourse (h : e.Alike κ e') (hs : e.Sound) (hs' : e'.Sound) (cs : List Call) :
    SameCourse κ e e' cs := by
  induction cs generalizing κ e e' with
  | nil => exact .nil
  | cons c rest ih =>
    obtain ⟨κ', hextends, houtcome⟩ := call_alike h hs hs' c
    exact .cons hextends houtcome (ih houtcome.alike (hs.call c) (hs'.call (c.renamed κ)))

end Engine

end ProcessEngine

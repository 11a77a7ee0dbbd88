import ProcessEngine.Proofs.Engine.EventLifecycle
import ProcessEngine.Proofs.Isolation.Runs
import ProcessEngine.Proofs.Renaming.Calls

/-!
# Calls about one instance

Two engines agree on an instance if they hold the same of it and have the same surroundings to come
(`Engine.Agree`).  A call about the instance then comes to the same with both (`call_same`): the
same result, events and completed tasks, and the engines agree again.  A call about another instance
changes nothing that the instance could see (`call_elsewhere`).
-/

namespace ProcessEngine

open Compensation (Completion)

/-- The instance that a call is about.  A start is about the instance that gets the next id. -/
def Call.target (supply : Supply) : Call → String
  | .start .. => supply.instanceId.1
  | .proceed id .. | .suspend id _ | .resume id _ | .terminate id _ => id

namespace Engine

/-- Two engines that hold the same of an instance, and have the same surroundings to come. -/
structure Agree (p : String) (e e' : Engine) : Prop where
  config : e.config = e'.config
  registered : e.registered? p = e'.registered? p
  workspace : e.workspace.Agree p e'.workspace

/-- What a call about an instance comes to with two engines that agree on it: the results are the
same, and so is what is made known, the engines agree again, and other instances see nothing. -/
structure SameCall (p : String) (e e' : Engine) (x x' : Except EngineError Instance × Engine) :
    Prop where
  result : x.1 = x'.1
  agree : x.2.Agree p x'.2
  told : ∃ events completions, e.Discloses x.2 events completions ∧
    e'.Discloses x'.2 events completions
  config : x.2.config = e.config
  spares : e.workspace.store.Spares p x.2.workspace.store
  registered : ∀ q, q ≠ p → e.registered? q = x.2.registered? q

variable {p : String} {e e' : Engine} {v v' : Workspace} {run : Run} {d : Definition}

/-! ## Settling -/

/-- The same run is settled by engines that agree on its instance. -/
lemma agree_settle (h : e.workspace.Agree p e'.workspace) (run : Run) :
    (e.settle run).workspace.Agree p (e'.settle run).workspace := by
  refine ⟨?_, ?_, ?_, ?_⟩
  · rw [supply_settle, supply_settle, h.supply]
  · rw [store_settle, store_settle]
    split_ifs
    · exact h.store.deleteInstance _
    · exact h.store
  · rw [store_settle, supply_settle]
    split_ifs
    · exact h.keyed.deleteInstance _
    · exact h.keyed
  · rw [store_settle, supply_settle]
    split_ifs
    · exact h.keyed'.deleteInstance _
    · exact h.keyed'

/-- Settling a run is not seen by other instances. -/
lemma spares_settle (e : Engine) (run : Run) :
    e.workspace.store.Spares run.current.id (e.settle run).workspace.store := by
  rw [store_settle]
  split_ifs
  · exact .deleteInstance _ _
  · exact .refl _ _

/-- What a run makes known is made known to both engines. -/
lemma discloses_settle (hnews : EqualNews e.workspace e'.workspace v v') (e₁ e₁' : Engine)
    (hw : e₁.workspace.bus = v.bus) (hw' : e₁'.workspace.bus = v'.bus)
    (hc : e₁.coordinator = e.coordinator) (hc' : e₁'.coordinator = e'.coordinator) (run : Run) :
    ∃ events completions, e.Discloses (e₁.settle run) events completions ∧
      e'.Discloses (e₁'.settle run) events completions := by
  obtain ⟨es, -, hbus, hbus'⟩ := hnews
  refine ⟨es ++ run.events, run.completions, ⟨?_, ?_⟩, ⟨?_, ?_⟩⟩
  · rw [bus_settle, hw, hbus, EventBus.publishAll_append]
  · rw [coordinator_settle, hc]
    rfl
  · rw [bus_settle, hw', hbus', EventBus.publishAll_append]
  · rw [coordinator_settle, hc']
    rfl

namespace SameCall

/-- A call that is refused at once. -/
lemma refused (h : e.Agree p e') (err : EngineError) :
    SameCall p e e' (.error err, e) (.error err, e') where
  result := rfl
  agree := h
  told := ⟨[], [], discloses_evaluations rfl, discloses_evaluations rfl⟩
  config := rfl
  spares := .refl p _
  registered _ _ := rfl

/-- Both calls fail. -/
lemma failed (h : e.Agree p e') (hstep : SameStep p e.workspace e'.workspace v v')
    (err : EngineError) :
    SameCall p e e' (.error err, { e with workspace := v })
      (.error err, { e' with workspace := v' }) := by
  obtain ⟨es, -, hbus, hbus'⟩ := hstep.news
  exact ⟨rfl, ⟨h.config, h.registered, hstep.agree⟩,
    ⟨es, [], discloses_evaluations hbus, discloses_evaluations hbus'⟩, rfl, hstep.spares,
    fun _ _ => rfl⟩

/-- Both calls commit. -/
lemma committed (h : e.Agree p e') (hstep : SameStep p e.workspace e'.workspace v v')
    (hid : run.current.id = p) (d : Definition) :
    SameCall p e e' (.ok run.current, (commit { e with workspace := v } d run).2)
      (.ok run.current, (commit { e' with workspace := v' } d run).2) := by
  refine ⟨rfl, ⟨?_, ?_, agree_settle hstep.agree run⟩,
    discloses_settle hstep.news (register { e with workspace := v } run.current d)
      (register { e' with workspace := v' } run.current d) rfl rfl rfl rfl run,
    config_settle _ _,
    hstep.spares.trans (hid ▸ spares_settle (register { e with workspace := v } run.current d) run),
    fun q hq => ?_⟩
  · rw [commit, commit, config_settle, config_settle]
    exact h.config
  · rw [Lasting.registered?_commit, Lasting.registered?_commit, if_pos hid.symm, if_pos hid.symm]
  · rw [Lasting.registered?_commit, if_neg fun heq => hq (heq.trans hid)]
    rfl

/-- Both calls terminate the instance. -/
lemma terminated (h : e.Agree p e') (hstep : SameStep p e.workspace e'.workspace v v')
    (hid : run.current.id = p) :
    SameCall p e e'
      (.ok run.current, (unregister { e with workspace := v } p).settle run)
      (.ok run.current, (unregister { e' with workspace := v' } p).settle run) := by
  refine ⟨rfl, ⟨?_, ?_, agree_settle hstep.agree run⟩,
    discloses_settle hstep.news (unregister { e with workspace := v } p)
      (unregister { e' with workspace := v' } p) rfl rfl rfl rfl run,
    config_settle _ _,
    hstep.spares.trans (hid ▸ spares_settle (unregister { e with workspace := v } p) run),
    fun q hq => ?_⟩
  · rw [config_settle, config_settle]
    exact h.config
  · simp only [registered?, registry_settle]
    rw [← registered?, ← registered?, registered?_unregister, registered?_unregister, if_pos rfl,
      if_pos rfl]
  · simp only [registered?, registry_settle]
    rw [← registered?, ← registered?, registered?_unregister, if_neg hq]
    rfl

/-- Both calls carry out the same action for the instance. -/
lemma carryOut (h : e.Agree p e') {action : Action Run}
    (haction : SameFor p e.workspace e'.workspace (action e.workspace) (action e'.workspace))
    (hid : ∀ run v, action e.workspace = .ok run v → run.current.id = p) :
    SameCall p e e' (e.carryOut d action) (e'.carryOut d action) := by
  generalize hx : action e.workspace = x at haction
  generalize hx' : action e'.workspace = x' at haction
  cases haction with
  | ok run hstep =>
    rw [Engine.carryOut, Engine.carryOut, perform_ok hx, perform_ok hx']
    exact .committed h hstep (hid run _ hx) d
  | error err hstep =>
    rw [Engine.carryOut, Engine.carryOut, perform_error hx, perform_error hx']
    exact .failed h hstep err

end SameCall

/-- The events of an instance after more were published. -/
lemma eventsOf_of_bus {es : List Event}
    (hbus : e'.workspace.bus = e.workspace.bus.publishAll es) (p : String) :
    e'.eventsOf p = e.eventsOf p ++ es.filter (·.instanceId? == some p) := by
  rw [eventsOf, hbus, EventBus.published_publishAll, List.filter_append, eventsOf]

/-! ## Calls about the instance -/

/-- An action that advances an instance yields a run of the instance. -/
lemma id_of_advances {w v : Workspace} {action : Action Run} (h : Advances d p w action)
    (hok : action w = .ok run v) : run.current.id = p := by
  rcases h with ⟨err, w', herror, -⟩ | ⟨run', w', es, hok', hid, -⟩
  · rw [hok] at herror
    cases herror
  · rw [hok] at hok'
    cases hok'
    exact hid

/-- Calls on a live instance. -/
lemma onLive_same (h : e.Agree p e') {action : Registered → Action Run}
    (haction : ∀ r, e.registered? p = some r → r.current.isEnded = false →
      SameFor p e.workspace e'.workspace (action r e.workspace) (action r e'.workspace) ∧
        Advances r.definition p e.workspace (action r)) :
    SameCall p e e' (e.onLive p action) (e'.onLive p action) := by
  have hr' := h.registered
  cases hr : e.registered? p with
  | none =>
    rw [hr] at hr'
    rw [onLive, onLive, live_unknown hr, live_unknown hr'.symm]
    exact .refused h _
  | some r =>
    rw [hr] at hr'
    cases hended : r.current.isEnded with
    | true =>
      rw [onLive, onLive, live_ended hr hended, live_ended hr'.symm hended]
      exact .refused h _
    | false =>
      obtain ⟨hsame, hadvances⟩ := haction r hr hended
      rw [onLive, onLive, live_running hr hended, live_running hr'.symm hended]
      exact .carryOut h hsame fun run v hok => id_of_advances hadvances hok

lemma start_same (hs : e.Sound) (hs' : e'.Sound) (h : e.Agree e.workspace.supply.instanceId.1 e')
    (d : Definition) (businessKey : String) (vars : Option Variables) :
    SameCall e.workspace.supply.instanceId.1 e e' (e.start d businessKey vars)
      (e'.start d businessKey vars) := by
  cases hstart : d.startEvents with
  | nil =>
    rw [start, start, hstart]
    exact .refused h _
  | cons first rest =>
    obtain ⟨run, supply, hopening⟩ :
        ∃ run supply, opening e.workspace.supply d businessKey (vars.getD []) = (run, supply) :=
      ⟨_, _, rfl⟩
    have hopening' := hopening
    rw [h.workspace.supply] at hopening'
    obtain ⟨htokens, hhistory, hnone, hsound⟩ := opening_spec hs hopening
    obtain ⟨-, -, -, hsound'⟩ := opening_spec hs' hopening'
    obtain ⟨hid, hlive, -, -, hissued⟩ := opening_puts_off hopening
    have hopened : SameStep run.current.id e.workspace e'.workspace
        { e.workspace with supply } { e'.workspace with supply } :=
      .of_supply (hid ▸ h.workspace) rfl hissued
    have hfresh : Kept d run.current (e.workspace.store.states run.current.id) := by
      rw [hnone]
      exact .fresh htokens hhistory
    have hwalk := (firstWalk_same (d := d) e.config.maxTraversalSteps first hsound hsound'
      hopened.agree hfresh).after hopened
    have hfirst := firstWalk_spec (d := d) first hsound hlive hfresh e.config.maxTraversalSteps
    have hlimit : e'.config.maxTraversalSteps = e.config.maxTraversalSteps := by rw [h.config]
    rw [start_eq e hstart hopening, start_eq e' hstart hopening', hlimit]
    generalize hx : firstWalk run d e.config.maxTraversalSteps first
      { e.workspace with supply } = x at hwalk
    generalize hx' : firstWalk run d e.config.maxTraversalSteps first
      { e'.workspace with supply } = x' at hwalk
    rw [← hid] at h ⊢
    cases hwalk with
    | ok run' hstep =>
      refine SameCall.committed h hstep ?_ d
      rcases hfirst with ⟨err, w', es, herror, -⟩ | ⟨run₁, w', es, hok, hid', -⟩
      · rw [hx] at herror
        cases herror
      · rw [hx] at hok
        cases hok
        exact hid'
    | error err hstep =>
      -- The instance had no states before, so they are dropped and not put back.
      have hforgotten : ∀ {u u' : Workspace},
          SameStep run.current.id e.workspace e'.workspace u u' →
          SameStep run.current.id e.workspace e'.workspace
            { u with store := (u.store.deleteInstance run.current.id).2 }
            { u' with store := (u'.store.deleteInstance run.current.id).2 } := fun hstep =>
        ⟨⟨hstep.agree.supply, hstep.agree.store.deleteInstance _,
          hstep.agree.keyed.deleteInstance _, hstep.agree.keyed'.deleteInstance _⟩,
          hstep.spares.trans (.deleteInstance _ _), hstep.news⟩
      exact SameCall.failed h (hforgotten hstep) err

lemma terminate_same (hs : e.Sound) (h : e.Agree p e') (reason : Option String) :
    SameCall p e e' (e.terminate p reason) (e'.terminate p reason) := by
  rw [terminate, terminate, ← h.registered]
  cases hr : e.registered? p with
  | none => exact .refused h _
  | some r =>
    have hrun := terminateRun_same (r := r) reason h.workspace
    obtain ⟨run, supply, hok, -, -, hid, -⟩ := terminateRun_spec r reason e.workspace
    rw [hok] at hrun
    generalize hx' : terminateRun r reason e'.workspace = x' at hrun
    cases hrun with
    | ok _ hstep =>
      simp only [perform_ok hok, perform_ok hx']
      exact .terminated h hstep (hid.trans (hs.known p r hr).1)

/-- A call about an instance comes to the same with two engines that agree on it. -/
theorem call_same (hs : e.Sound) (hs' : e'.Sound) {c : Call}
    (h : e.Agree (c.target e.workspace.supply) e') :
    SameCall (c.target e.workspace.supply) e e' (e.call c) (e'.call c) := by
  have hkept : ∀ {id r}, e.registered? id = some r → r.current.isEnded = false →
      Kept r.definition r.current (e.workspace.store.states r.current.id) := by
    intro id r hr hlive
    rw [(hs.known id r hr).1]
    exact hs.kept id r hr hlive
  cases c with
  | start d businessKey vars => exact start_same hs hs' h d businessKey vars
  | proceed id task updates =>
    rw [call, call, continueInstance_eq, continueInstance_eq, ← h.config]
    refine onLive_same h fun r hr hlive => ?_
    rw [← show r.current.id = id from (hs.known id r hr).1] at h ⊢
    exact ⟨continuation_same _ _ task updates hs.workspace hs'.workspace h.workspace
      (hkept hr hlive), continuation_advances hs.workspace (hkept hr hlive) hlive _ _ task updates⟩
  | suspend id element =>
    refine onLive_same h fun r hr hlive => ⟨suspendRun_same element h.workspace, ?_⟩
    rw [← (hs.known id r hr).1]
    exact suspendRun_advances hs.workspace (hkept hr hlive) hlive element
  | resume id element =>
    refine onLive_same h fun r hr hlive => ⟨resumeRun_same element h.workspace, ?_⟩
    rw [← (hs.known id r hr).1]
    exact resumeRun_advances hs.workspace (hkept hr hlive) hlive element
  | terminate id reason => exact terminate_same hs h reason

/-! ## Calls about other instances -/

/-- A call that succeeds has done something to the instance that it is about. -/
lemma Success.target {c : Call} {issued : Nat} {ts : List Token} {es : List HistoryEntry}
    (h : e.Success c d run issued ts es) : c.target e.workspace.supply = run.current.id := by
  have htells := h.tells
  have hconcerns := h.concerns
  generalize d.creations run.current.id ts = created, run.events = told at htells
  cases c with
  | start =>
    generalize run.current.id = id at hconcerns
    cases hconcerns with
    | new => rfl
    | known hc => cases hc
  | proceed =>
    cases htells with
    | proceed _ _ hid => exact hid.symm
  | suspend =>
    cases htells with
    | suspend _ _ hid => exact hid.symm
  | resume =>
    cases htells with
    | resume _ _ hid => exact hid.symm
  | terminate =>
    cases htells with
    | terminate _ hid => exact hid.symm

/-- What a call about one instance does not change of another one: what is registered and stored of
it, and the events that were published of it.  No completed task of it is recorded. -/
structure Elsewhere (p : String) (e e' : Engine) : Prop where
  config : e'.config = e.config
  registered : e.registered? p = e'.registered? p
  store : e.workspace.store.Agree p e'.workspace.store
  events : e'.eventsOf p = e.eventsOf p
  coordinator : ∃ completions : List Completion, (∀ x ∈ completions, x.instanceId ≠ p) ∧
    e'.coordinator = (e.recordCompletions completions).coordinator
  issued : e.workspace.supply.issued ≤ e'.workspace.supply.issued

/-- An instance does not see the calls about other instances. -/
theorem call_elsewhere (hs : e.Sound) {c : Call} (hp : p ≠ c.target e.workspace.supply) :
    Elsewhere p e (e.call c).2 := by
  have hsame := call_same hs hs (c := c)
    ⟨rfl, rfl, rfl, .refl _ _, hs.workspace.keyed, hs.workspace.keyed⟩
  have hregistered := hsame.registered p hp
  have hstore := hsame.spares p hp
  have hconfig := hsame.config
  have hcomes := call_comes hs c
  have hevaluation : ∀ x : Event, x.isEvaluation = true → x.instanceId? ≠ some p := by
    intro x hx
    rw [(Event.instanceId?_of_isEvaluation hx).1]
    nofun
  have hevents : ∀ {e' : Engine} {es : List Event}, (∀ x ∈ es, x.instanceId? ≠ some p) →
      e'.workspace.bus = e.workspace.bus.publishAll es → e'.eventsOf p = e.eventsOf p := by
    intro e' es hes hbus
    rw [eventsOf_of_bus hbus, List.filter_eq_nil_iff.2 fun x hx => by simpa using hes x hx,
      List.append_nil]
  generalize e.call c = result at hregistered hstore hconfig hcomes
  cases hcomes with
  | failed hunseen =>
    obtain ⟨es, hes, hbus⟩ := hunseen.published
    exact ⟨hconfig, hregistered, hstore, hevents (fun x hx => hevaluation x (hes x hx)) hbus,
      ⟨[], nofun, (coordinator_recordCompletions_nil e).symm⟩, hunseen.issued⟩
  | @succeeded d run e' ts entries hsuccess hsettled =>
    have hne : run.current.id ≠ p := hsuccess.target ▸ hp.symm
    obtain ⟨evaluations, hevaluations, hbus⟩ := hsettled.bus
    refine ⟨hconfig, hregistered, hstore, hevents (fun x hx => ?_) hbus,
      ⟨run.completions, fun x hx => ?_, hsettled.coordinator⟩, hsettled.issued⟩
    · rcases List.mem_append.1 hx with hx | hx
      · exact hevaluation x (hevaluations x hx)
      · rw [hsuccess.tells.instanceId? x hx]
        exact fun heq => hne (Option.some.inj heq)
    · rw [hsuccess.noted.instanceId x hx]
      exact hne

end Engine

end ProcessEngine

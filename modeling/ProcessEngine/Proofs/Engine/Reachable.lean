import ProcessEngine.Proofs.Engine.Sound

/-!
# Reachable engines

The calls to an engine, and the engines that calls lead to.  `call_outcome` says what a call to a
sound engine comes to: it fails and nothing has changed that anybody could see, or the run that it
has come to is committed, or an instance is terminated.  So every reachable engine is sound.
-/

namespace ProcessEngine

/-- A call to the engine. -/
inductive Call where
  | start (d : Definition) (businessKey : String) (vars : Option Variables)
  | proceed (id : String) (task : Option String) (updates : Option Variables)
  | suspend (id : String) (element : Option String)
  | resume (id : String) (element : Option String)
  | terminate (id : String) (reason : Option String)

namespace Engine

/-- Makes a call. -/
def call (e : Engine) : Call → Except EngineError Instance × Engine
  | .start d businessKey vars => e.start d businessKey vars
  | .proceed id task updates => e.continueInstance id task updates
  | .suspend id element => e.suspend id element
  | .resume id element => e.resume id element
  | .terminate id reason => e.terminate id reason

/-- The engine after calls in order. -/
def after (e : Engine) (cs : List Call) : Engine := cs.foldl (fun e c => (e.call c).2) e

/-- The engines that calls lead to.  Between calls the coordinator may be used for compensation, and
listeners may come to the bus and go. -/
inductive Reachable : Engine → Prop
  | new (config : Config) (clock : Nat → Instant) : Reachable (.new config (.start clock))
  | call {e : Engine} (h : Reachable e) (c : Call) : Reachable (e.call c).2
  | withCoordinator {e : Engine} (h : Reachable e) (c : Compensation.Coordinator) :
      Reachable (e.withCoordinator c)
  | withBus {e : Engine} (h : Reachable e) (b : EventBus) : Reachable (e.withBus b)

/-! ## What a call is about to commit -/

/-- The run that an action on a live instance has come to, with the definition of the instance and
the engine as the action has left it. -/
def pendingOnLive (e : Engine) (id : String) (action : Registered → Action Run) :
    Option (Definition × Run × Engine) :=
  match e.live id with
  | .error _ => none
  | .ok r =>
    match e.perform (action r) with
    | (.ok run, e) => some (r.definition, run, e)
    | (.error _, _) => none

/-- What a call is about to commit: the definition, the run that it has come to, and the engine
before the commit.  There is nothing to commit if the call fails.  A termination commits nothing. -/
def pending (e : Engine) : Call → Option (Definition × Run × Engine)
  | .start d businessKey vars =>
    match d.startEvents with
    | [] => none
    | first :: _ =>
      let (run, supply) := opening e.workspace.supply d businessKey (vars.getD [])
      match (e.withSupply supply).perform (firstWalk run d e.config.maxTraversalSteps first) with
      | (.ok run, e) => some (d, run, e)
      | (.error _, _) => none
  | .proceed id task updates =>
    e.pendingOnLive id (continuation e.config.maxTraversalSteps id task updates)
  | .suspend id element => e.pendingOnLive id (suspendRun · element)
  | .resume id element => e.pendingOnLive id (resumeRun · element)
  | .terminate _ _ => none

lemma continueInstance_eq (e : Engine) (id : String) (task : Option String)
    (updates : Option Variables) :
    e.continueInstance id task updates =
      e.onLive id (continuation e.config.maxTraversalSteps id task updates) := by
  cases task <;> rfl

lemma onLive_of_pendingOnLive {e e₁ : Engine} {id : String} {action : Registered → Action Run}
    {d : Definition} {run : Run} (h : e.pendingOnLive id action = some (d, run, e₁)) :
    e.onLive id action = (.ok run.current, (e₁.commit d run).2) := by
  rw [pendingOnLive] at h
  rw [onLive]
  cases hlive : e.live id with
  | error err =>
    rw [hlive] at h
    cases h
  | ok r =>
    rw [hlive] at h
    simp only at h ⊢
    rw [carryOut]
    split at h
    · next run₁ e₂ hperform =>
      rw [hperform]
      obtain ⟨rfl, rfl, rfl⟩ : r.definition = d ∧ run₁ = run ∧ e₂ = e₁ := by simpa using h
      rfl
    · cases h

/-- What a start does with the outcome of the first walk: it forgets the states of an instance that
has failed, and commits one that has not. -/
lemma start_eq (e : Engine) {d : Definition} {businessKey : String} {vars : Option Variables}
    {first : Node} {rest : List Node} (hstart : d.startEvents = first :: rest) {run : Run}
    {supply : Supply}
    (hopening : opening e.workspace.supply d businessKey (vars.getD []) = (run, supply)) :
    e.start d businessKey vars =
      match firstWalk run d e.config.maxTraversalSteps first { e.workspace with supply } with
      | .ok run' w => (.ok run'.current, (commit { e with workspace := w } d run').2)
      | .error err w => (.error err, { e with
          workspace := { w with store := (w.store.deleteInstance run.current.id).2 } }) := by
  rw [start, hstart]
  simp only [hopening]
  cases hwalk : firstWalk run d e.config.maxTraversalSteps first { e.workspace with supply } with
  | ok run' w =>
    rw [perform_ok (e := e.withSupply supply) hwalk]
    rfl
  | error err w =>
    rw [perform_error (e := e.withSupply supply) hwalk]
    rfl

/-- A call that has come to a run succeeds, and commits the run. -/
theorem call_of_pending {e e₁ : Engine} {c : Call} {d : Definition} {run : Run}
    (h : e.pending c = some (d, run, e₁)) :
    e.call c = (.ok run.current, (e₁.commit d run).2) := by
  cases c with
  | start d' businessKey vars =>
    rw [pending] at h
    cases hstart : d'.startEvents with
    | nil =>
      rw [hstart] at h
      cases h
    | cons first rest =>
      obtain ⟨run₀, supply, hopening⟩ : ∃ run supply,
          opening e.workspace.supply d' businessKey (vars.getD []) = (run, supply) := ⟨_, _, rfl⟩
      rw [hstart] at h
      simp only [hopening] at h
      rw [call, start_eq e hstart hopening]
      cases hwalk : firstWalk run₀ d' e.config.maxTraversalSteps first
          { e.workspace with supply } with
      | ok run' w =>
        rw [perform_ok (e := e.withSupply supply) hwalk] at h
        obtain ⟨rfl, rfl, rfl⟩ : d' = d ∧ run' = run ∧ { e.withSupply supply with workspace := w } =
          e₁ := by simpa using h
        rfl
      | error err w =>
        rw [perform_error (e := e.withSupply supply) hwalk] at h
        cases h
  | proceed id task updates =>
    rw [call, continueInstance_eq]
    exact onLive_of_pendingOnLive h
  | suspend id element => exact onLive_of_pendingOnLive h
  | resume id element => exact onLive_of_pendingOnLive h
  | terminate id reason => cases h

/-! ## The outcome of a call -/

/-- What a call to a sound engine comes to. -/
inductive Outcome (e : Engine) : Call → Except EngineError Instance × Engine → Prop
  | failed {c : Call} {err : EngineError} {w : Workspace} (hpending : e.pending c = none)
      (hunseen : Unseen e.workspace w) :
      Outcome e c (.error err, { e with workspace := w })
  | committed {c : Call} {d : Definition} {run : Run} {w : Workspace} {es : List Event}
      (hpending : e.pending c = some (d, run, { e with workspace := w })) (hsound : w.Sound)
      (hconfined : Confined run.current.id es e.workspace w)
      (hissued : Issued w.supply.issued run.current.id)
      (hkept : Kept d run.current (w.store.states run.current.id))
      (hended : run.current.isEnded = true →
        run.current.tokens = [] ∧ .processEnd run.current.id ∈ run.events) :
      Outcome e c (.ok run.current, ({ e with workspace := w }.commit d run).2)
  | terminated {id : String} {reason : Option String} {r : Registered} {run : Run}
      {supply : Supply} (hregistered : e.registered? id = some r)
      (hissued : supply.issued = e.workspace.supply.issued)
      (hclock : supply.clock = e.workspace.supply.clock) (hid : run.current.id = id)
      (hended : run.current.isEnded = true) :
      Outcome e (.terminate id reason)
        (.ok run.current,
          (Engine.unregister { e with workspace := { e.workspace with supply } } id).settle run)

variable {e : Engine}

/-- A call on a live instance fails unseen, or commits. -/
lemma onLive_outcome (h : e.Sound) {c : Call} {id : String} {action : Registered → Action Run}
    (hcall : e.call c = e.onLive id action)
    (hpending : e.pending c = e.pendingOnLive id action)
    (haction : ∀ r, e.registered? id = some r → r.current.isEnded = false →
      Advances r.definition r.current.id e.workspace (action r)) : Outcome e c (e.call c) := by
  have hnothing : Unseen e.workspace e.workspace := .refl h.workspace.keyed
  cases hregistered : e.registered? id with
  | none =>
    have hlive := live_unknown hregistered
    rw [hcall, onLive, hlive]
    exact .failed (by rw [hpending, pendingOnLive, hlive]) hnothing
  | some r =>
    cases hended : r.current.isEnded with
    | true =>
      have hlive := live_ended hregistered hended
      rw [hcall, onLive, hlive]
      exact .failed (by rw [hpending, pendingOnLive, hlive]) hnothing
    | false =>
      have hlive := live_running hregistered hended
      rcases haction r hregistered hended with
        ⟨err, w, hfail, hunseen⟩ | ⟨run, w, es, hok, hid, hsound, hconf, hkept, hend⟩
      · have hperform := perform_error hfail
        have hpending' : e.pending c = none := by
          rw [hpending, pendingOnLive, hlive]
          simp only [hperform]
        rw [hcall, onLive, hlive]
        simp only [carryOut, hperform]
        exact .failed hpending' hunseen
      · have hperform := perform_ok hok
        have hpending' : e.pending c = some (r.definition, run, { e with workspace := w }) := by
          rw [hpending, pendingOnLive, hlive]
          simp only [hperform]
        rw [call_of_pending hpending']
        rw [← hid] at hconf hkept hend
        obtain ⟨hrid, hissued⟩ := h.known id r hregistered
        refine .committed hpending' hsound hconf ?_ hkept hend
        rw [hid, hrid]
        exact hissued.mono hconf.issued

/-- A start fails unseen, or commits. -/
lemma start_outcome (h : e.Sound) (d : Definition) (businessKey : String)
    (vars : Option Variables) :
    Outcome e (.start d businessKey vars) (e.call (.start d businessKey vars)) := by
  cases hstart : d.startEvents with
  | nil =>
    have hcall : e.call (.start d businessKey vars) = (.error (.noStartEvent d.id), e) := by
      rw [call, start, hstart]
    rw [hcall]
    exact .failed (by rw [pending, hstart]) (.refl h.workspace.keyed)
  | cons first rest =>
    obtain ⟨run, supply, hopening⟩ :
        ∃ run supply, opening e.workspace.supply d businessKey (vars.getD []) = (run, supply) :=
      ⟨_, _, rfl⟩
    have hrun : run = (opening e.workspace.supply d businessKey (vars.getD [])).1 := by
      rw [hopening]
    have hsupply : supply = (opening e.workspace.supply d businessKey (vars.getD [])).2 := by
      rw [hopening]
    have hid : run.current.id = e.workspace.supply.instanceId.1 := by rw [hrun]; rfl
    have hissued : supply.issued = e.workspace.supply.issued + 1 := by rw [hsupply]; rfl
    have hclock : supply.clock = e.workspace.supply.clock := by rw [hsupply]; rfl
    have hlive : run.current.isEnded = false := by rw [hrun]; rfl
    have hnone : e.workspace.store.states run.current.id = [] := by
      rw [hid]
      exact h.states_instanceId
    set w₁ : Workspace := { e.workspace with supply } with hw₁
    have hle : e.workspace.supply.issued ≤ w₁.supply.issued := by
      rw [hw₁, hissued]
      exact Nat.le_succ _
    have hunseen₁ : Unseen e.workspace w₁ := .of_supply h.workspace.keyed hle hclock
    have hconf₁ : Confined run.current.id [] e.workspace w₁ :=
      .of_supply h.workspace.keyed hle hclock
    have hfresh : Kept d run.current (w₁.store.states run.current.id) := by
      rw [hw₁, hnone, hrun]
      exact .fresh rfl rfl
    rcases firstWalk_spec first (hunseen₁.sound h.workspace) hlive hfresh
        e.config.maxTraversalSteps with
      ⟨err, w, es, hfail, hconf⟩ | ⟨run', w, es, hok, hid', hsound, hconf, hkept, hend⟩
    · have hperform := perform_error (e := e.withSupply supply) hfail
      have hpending : e.pending (.start d businessKey vars) = none := by
        rw [pending, hstart]
        simp only [hopening, hperform]
      have hcall : e.call (.start d businessKey vars) = (.error err,
          { e with workspace := { w with store := (w.store.deleteInstance run.current.id).2 } }) := by
        rw [call, start_eq e hstart hopening, hfail]
      rw [hcall]
      exact .failed hpending (hunseen₁.trans (.of_forget hconf hnone))
    · have hperform := perform_ok (e := e.withSupply supply) hok
      have hpending : e.pending (.start d businessKey vars) =
          some (d, run', { e with workspace := w }) := by
        rw [pending, hstart]
        simp only [hopening, hperform]
        rfl
      rw [call_of_pending hpending]
      rw [← hid'] at hconf hconf₁ hkept hend
      refine .committed hpending hsound (hconf₁.trans hconf) ?_ hkept hend
      have hnew : Issued w₁.supply.issued run.current.id := by
        rw [hid, hw₁, hissued]
        exact .instanceId e.workspace.supply
      rw [hid']
      exact hnew.mono hconf.issued

/-- What a call to a sound engine comes to. -/
theorem call_outcome (h : e.Sound) (c : Call) : Outcome e c (e.call c) := by
  cases c with
  | start d businessKey vars => exact start_outcome h d businessKey vars
  | proceed id task updates =>
    refine onLive_outcome h (continueInstance_eq e id task updates) rfl fun r hr hlive => ?_
    have hid := (h.known id r hr).1
    exact continuation_advances h.workspace (hid ▸ h.kept id r hr hlive) hlive _ id task updates
  | suspend id element =>
    refine onLive_outcome h rfl rfl fun r hr hlive => ?_
    have hid := (h.known id r hr).1
    exact suspendRun_advances h.workspace (hid ▸ h.kept id r hr hlive) hlive element
  | resume id element =>
    refine onLive_outcome h rfl rfl fun r hr hlive => ?_
    have hid := (h.known id r hr).1
    exact resumeRun_advances h.workspace (hid ▸ h.kept id r hr hlive) hlive element
  | terminate id reason =>
    cases hr : e.registered? id with
    | none =>
      have hcall : e.call (.terminate id reason) = (.error (.instanceNotFound id), e) := by
        rw [call, terminate, hr]
      rw [hcall]
      exact .failed rfl (.refl h.workspace.keyed)
    | some r =>
      obtain ⟨run, supply, hrun, hissued, hclock, hid, hended⟩ :=
        terminateRun_spec r reason e.workspace
      have hcall : e.call (.terminate id reason) = (.ok run.current,
          (Engine.unregister { e with workspace := { e.workspace with supply } } id).settle run) := by
        rw [call, terminate, hr]
        simp only [perform_ok hrun]
      rw [hcall]
      exact .terminated hr hissued hclock (hid.trans (h.known id r hr).1) hended

/-- An instance that a call yields is what the call was about to commit, or what is left of a
registered instance that was terminated. -/
lemma yielded_cases (h : e.Sound) {c : Call} {i : Instance} (hok : (e.call c).1 = .ok i) :
    (∃ d run e₁, e.pending c = some (d, run, e₁) ∧ run.current = i) ∨
      ∃ id reason r run w, c = .terminate id reason ∧ e.registered? id = some r ∧
        terminateRun r reason e.workspace = .ok run w ∧ run.current = i := by
  have houtcome := call_outcome h c
  generalize hresult : e.call c = result at houtcome hok
  cases houtcome with
  | failed => cases hok
  | committed hpending => exact .inl ⟨_, _, _, hpending, Except.ok.inj hok⟩
  | @terminated id reason r _ _ hr =>
    obtain ⟨run, supply, hrun, -⟩ := terminateRun_spec r reason e.workspace
    have hcall : (e.call (.terminate id reason)).1 = .ok run.current := by
      rw [call, terminate, hr]
      simp only [perform_ok hrun]
    rw [hresult] at hcall
    exact .inr ⟨id, reason, r, run, _, rfl, hr, hrun, Except.ok.inj (hcall.symm.trans hok)⟩

/-- A call keeps the engine in order. -/
theorem Sound.call (h : e.Sound) (c : Call) : (e.call c).2.Sound := by
  have houtcome := call_outcome h c
  generalize e.call c = result at houtcome
  cases houtcome with
  | failed hpending hunseen => exact h.unseen hunseen
  | committed hpending hsound hconf hissued hkept hended =>
    exact h.commit hsound hconf rfl hissued hkept fun hend => (hended hend).1
  | terminated hregistered hissued hclock hid hended => exact h.terminate hissued hid hended

lemma Reachable.after (h : e.Reachable) (cs : List Call) : (e.after cs).Reachable := by
  induction cs generalizing e with
  | nil => exact h
  | cons c rest ih => exact ih (h.call c)

/-- Every engine that calls lead to is in good order. -/
theorem Reachable.sound (h : e.Reachable) : e.Sound := by
  induction h with
  | new config clock => exact .new config clock
  | call h c ih => exact ih.call c
  | withCoordinator h c ih => exact ih.congr rfl rfl rfl
  | withBus h b ih => exact ih.congr rfl rfl rfl

end Engine

end ProcessEngine

import ProcessEngine.Proofs.Engine.Additions
import ProcessEngine.Proofs.Engine.Ending

/-!
# What a call that succeeds comes to

`Success` says of every kind of call that succeeds what it did to its instance: which tokens were
parked before and which are new, which entries were made in the history, what is noted for
compensation, and what is published, from the first event to the last.  By `call_comes` a call to a
sound engine either fails and nothing has changed that anybody could see, or comes to a success,
which the engine keeps, records and publishes (`Settled`).
-/

namespace ProcessEngine

/-- Whether a call moves tokens on. -/
def Call.moves : Call → Bool
  | .start .. | .proceed .. => true
  | _ => false

/-- Whether a call starts an instance. -/
def Call.starts : Call → Bool
  | .start .. => true
  | _ => false

/-- What a call publishes of its instance if it succeeds, in order: the events that open and close
it, and in between the tasks that are created. -/
inductive Call.Tells : Call → Instance → List Event → List Event → Prop
  | start (d : Definition) (businessKey : String) (vars : Option Variables) (i : Instance)
      (created : List Event) :
      Tells (.start d businessKey vars) i created
        ([.processStart i.id d.id businessKey] ++ created ++ [.processStarted i.id] ++ i.ending)
  | proceed (task : Option String) (updates : Option Variables) {id : String} {i : Instance}
      (hid : i.id = id) (created : List Event) :
      Tells (.proceed id task updates) i created ([.processContinue id task] ++ created ++ i.ending)
  | suspend (element : Option String) (elements : List String) {id : String} {i : Instance}
      (hid : i.id = id) (hlive : i.isEnded = false) :
      Tells (.suspend id element) i []
        [.processSuspend id element, .processSuspended id elements]
  | resume (element : Option String) (elements : List String) {id : String} {i : Instance}
      (hid : i.id = id) (hlive : i.isEnded = false) :
      Tells (.resume id element) i [] [.processResume id element, .processResumed id elements]
  | terminate (reason : Option String) {id : String} {i : Instance} (hid : i.id = id)
      (hended : i.isEnded = true) :
      Tells (.terminate id reason) i []
        [.processTerminate id reason, .processTerminated id reason]

namespace Engine

/-- The parked tokens of an instance, if it is registered. -/
def tokensOf (e : Engine) (id : String) : List Token := ((e.get? id).map Instance.tokens).getD []

/-- The history of an instance, if it is registered. -/
def historyOf (e : Engine) (id : String) : List HistoryEntry :=
  ((e.get? id).map Instance.history).getD []

/-- The instance that a call is about, with its definition: a start is about a new one, any other
call about a registered one that has not ended, unless it is to be terminated. -/
inductive Concerns (e : Engine) : Call → Definition → String → Prop
  | new (d : Definition) (businessKey : String) (vars : Option Variables) :
      Concerns e (.start d businessKey vars) d e.workspace.supply.instanceId.1
  | known {c : Call} {id : String} {r : Registered} (hc : c.starts = false)
      (hr : e.registered? id = some r)
      (hlive : c.isTermination = false → r.current.isEnded = false) : Concerns e c r.definition id

/-- What a call that succeeds did to its instance. -/
structure Success (e : Engine) (c : Call) (d : Definition) (run : Run) (issued : Nat)
    (parked : List Token) (entries : List HistoryEntry) : Prop where
  concerns : e.Concerns c d run.current.id
  tokens : ∃ kept, run.current.tokens = kept ++ parked ∧
    ∀ t ∈ kept, ∃ o ∈ e.tokensOf run.current.id, o.id = t.id
  fresh : ∀ t ∈ parked, e.workspace.supply.issued < t.id.value ∧ t.id.value ≤ issued
  history : run.current.history = e.historyOf run.current.id ++ entries
  noted : AllNoted d run.current.id run.current.vars entries run.completions
  tells : c.Tells run.current (d.creations run.current.id parked) run.events

variable {e : Engine} {d : Definition} {run : Run} {w : Workspace}

lemma get?_of_registered {id : String} {r : Registered} (hr : e.registered? id = some r) :
    e.get? id = some r.current := by
  rw [get?, hr]
  rfl

lemma tokensOf_of_registered {id : String} {r : Registered} (hr : e.registered? id = some r) :
    e.tokensOf id = r.current.tokens := by
  rw [tokensOf, get?_of_registered hr]
  rfl

lemma historyOf_of_registered {id : String} {r : Registered} (hr : e.registered? id = some r) :
    e.historyOf id = r.current.history := by
  rw [historyOf, get?_of_registered hr]
  rfl

/-- The id of the next instance is not registered. -/
lemma Sound.registered?_instanceId (h : e.Sound) :
    e.registered? e.workspace.supply.instanceId.1 = none := by
  cases hr : e.registered? e.workspace.supply.instanceId.1 with
  | none => rfl
  | some r => exact absurd rfl (h.known _ r hr).2.ne_instanceId

/-- A call succeeds if its run adds something to a run that has noted nothing yet, and then
concludes. -/
lemma Success.of_adds {c : Call} {run₀ run₁ : Run} {issued₀ issued : Nat} {ts : List Token}
    {es : List HistoryEntry} {told : List Event} (hconcerns : e.Concerns c d run₀.current.id)
    (hissued : e.workspace.supply.issued ≤ issued₀)
    (hkept : ∀ t ∈ run₀.current.tokens, ∃ o ∈ e.tokensOf run₀.current.id, o.id = t.id)
    (hhistory : run₀.current.history = e.historyOf run₀.current.id)
    (hnone : run₀.completions = []) (hadds : run₀.Adds d issued₀ issued run₁ ts es)
    (hconcludes : run₁.Concludes told run)
    (htells : c.Tells run.current (d.creations run.current.id ts)
      (run₀.events ++ d.creations run.current.id ts ++ told)) :
    e.Success c d run issued ts es := by
  have hid : run.current.id = run₀.current.id := hconcludes.id.trans hadds.id
  obtain ⟨notes, hnotes, hall⟩ := hadds.completions
  refine ⟨?_, ⟨run₀.current.tokens, ?_, ?_⟩, fun t ht => ⟨?_, (hadds.fresh t ht).2⟩, ?_, ?_, ?_⟩
  · rw [hid]
    exact hconcerns
  · exact hconcludes.tokens.trans hadds.tokens
  · rw [hid]
    exact hkept
  · exact Nat.lt_of_le_of_lt hissued (hadds.fresh t ht).1
  · rw [hconcludes.history, hadds.history, hhistory, hid]
  · rw [hconcludes.completions, hnotes, hnone, hid, hconcludes.vars, hadds.vars]
    exact hall
  · rw [hconcludes.events, hadds.events, ← hid]
    exact htells

/-! ## Starting -/

/-- A walk goes on from a start event. -/
lemma firstWalk_adds {run₀ : Run} {limit : Nat} {first : Node} {w' : Workspace} (hw : w.Sound)
    (hk : (run₀.stage [⟨first.id, []⟩] w).Kept d) (hlive : run₀.current.isEnded = false)
    (h : firstWalk run₀ d limit first w = .ok run w') :
    ∃ run₁ ts es, Run.Adds d w.supply.issued run₀ w'.supply.issued run₁ ts es ∧
      run₁.Concludes (.processStarted run.current.id :: run.current.ending) run := by
  obtain ⟨run₁, w₁, hwalk, hfinish⟩ := Action.bind_eq_ok.1 h
  obtain ⟨ts, es, hadds⟩ := (Run.walks_of_traverse hwalk).adds hw hk
  have hlive₁ : run₁.current.isEnded = false := by
    rw [Instance.isEnded, hadds.endedAt]
    exact hlive
  obtain ⟨hconcludes, hissued⟩ :
      Run.Concludes (run₁.emit (.processStarted run₁.current.id)) run.current.ending run ∧
        w'.supply.issued = w₁.supply.issued := Run.finish_concludes hlive₁ hfinish
  have hid : run.current.id = run₁.current.id := hconcludes.id
  rw [hid]
  exact ⟨run₁, ts, es, hadds.mono (Nat.le_of_eq hissued.symm), hconcludes.of_emit⟩

/-- What is put off when an instance is opened. -/
lemma opening_puts_off {supply supply' : Supply} {businessKey : String} {vars : Variables}
    (h : opening supply d businessKey vars = (run, supply')) :
    run.current.id = supply.instanceId.1 ∧ run.current.isEnded = false ∧ run.completions = [] ∧
      run.events = [.processStart run.current.id d.id businessKey] ∧
      supply.issued ≤ supply'.issued := by
  cases h
  exact ⟨rfl, rfl, rfl, rfl, Nat.le_succ _⟩

/-- What a start is about to commit. -/
lemma start_success (h : e.Sound) {d' : Definition} {businessKey : String}
    {vars : Option Variables} {e₁ : Engine}
    (hpending : e.pending (.start d' businessKey vars) = some (d, run, e₁)) :
    ∃ ts es, e.Success (.start d' businessKey vars) d run e₁.workspace.supply.issued ts es := by
  obtain ⟨first, rest, run₀, supply, -, rfl, hopening, hfirst⟩ :=
    Lasting.ok_of_pendingStart hpending
  obtain ⟨htokens, hhistory, hnone, hsound⟩ := opening_spec h hopening
  obtain ⟨hid₀, hlive, hnotes, hevents, hissued⟩ := opening_puts_off hopening
  obtain ⟨run₁, ts, es, hadds, hconcludes⟩ := firstWalk_adds hsound
    (.fresh hsound htokens hhistory hnone first.id) hlive hfirst
  have hid : run.current.id = run₀.current.id := hconcludes.id.trans hadds.id
  have hnew : e.get? run₀.current.id = none := by
    rw [hid₀, get?, h.registered?_instanceId]
    rfl
  refine ⟨ts, es, .of_adds ?_ hissued ?_ ?_ hnotes hadds hconcludes ?_⟩
  · rw [hid₀]
    exact .new d' businessKey vars
  · rw [htokens]
    nofun
  · rw [hhistory, historyOf, hnew]
    rfl
  · rw [hevents, ← hid, List.append_cons]
    exact .start d' businessKey vars run.current _

/-! ## Calls on a registered instance -/

section Registered

variable {r : Registered} {id : String} {task : Option String} {updates : Option Variables}
  {limit : Nat} {w' : Workspace}

/-- A call on a registered instance succeeds if its run adds something to what is left of the
instance, and then concludes. -/
lemma Success.of_registered {c : Call} (run₀ : Run) {run₁ : Run} {issued : Nat} {ts : List Token}
    {es : List HistoryEntry} {told : List Event} (h : e.Sound) (hc : c.starts = false)
    (hr : e.registered? id = some r)
    (hlive : c.isTermination = false → r.current.isEnded = false)
    (hid : run₀.current.id = r.current.id)
    (hkept : ∀ t ∈ run₀.current.tokens, ∃ o ∈ r.current.tokens, o.id = t.id)
    (hhistory : run₀.current.history = r.current.history) (hnone : run₀.completions = [])
    (hadds : run₀.Adds r.definition e.workspace.supply.issued issued run₁ ts es)
    (hconcludes : run₁.Concludes told run)
    (htells : run.current.id = id → c.Tells run.current (r.definition.creations id ts)
      (run₀.events ++ r.definition.creations id ts ++ told)) :
    e.Success c r.definition run issued ts es := by
  have hid₀ : run₀.current.id = id := hid.trans (h.known id r hr).1
  have hid' : run.current.id = id := (hconcludes.id.trans hadds.id).trans hid₀
  refine .of_adds ?_ (Nat.le_refl _) ?_ ?_ hnone hadds hconcludes ?_
  · rw [hid₀]
    exact .known hc hr hlive
  · rw [hid₀, tokensOf_of_registered hr]
    exact hkept
  · rw [hid₀, historyOf_of_registered hr]
    exact hhistory
  · rw [hid']
    exact htells hid'

/-- A task is completed and a walk goes on from it. -/
lemma continueFrom_adds {run' : Run} {task : String} (hw : w.Sound)
    (hk : Kept d run.current (w.store.states run.current.id))
    (hlive : run.current.isEnded = false) (h : continueFrom run d limit task w = .ok run' w') :
    ∃ run₁ ts es,
      Run.Adds d w.supply.issued
        { run with
          current := { run.current with tokens := run.current.tokens.eraseP (·.accepts task) } }
        w'.supply.issued run₁ ts es ∧
      run₁.Concludes run'.current.ending run' := by
  obtain ⟨token, run₁, w₁, run₂, w₂, htask, hwalks, hfinish⟩ := continueFrom_ok h
  obtain ⟨hw₁, hstage, -, -⟩ := completeTask_kept hw hk htask
  obtain ⟨-, element, helement, rfl, rfl⟩ := completeTask_ok htask
  obtain ⟨entry, hentry⟩ := adds_taken w.supply.issued run helement token w.supply.now.1
  obtain ⟨ts, es, hadds⟩ := hwalks.adds hw₁ hstage
  have hall := hentry.trans hadds
  have hlive₂ : run₂.current.isEnded = false := by
    rw [Instance.isEnded, hall.endedAt]
    exact hlive
  obtain ⟨hconcludes, hissued⟩ := Run.finish_concludes hlive₂ hfinish
  exact ⟨run₂, _, _, hall.mono (Nat.le_of_eq hissued.symm), hconcludes⟩

/-- What a continuation is about to commit. -/
lemma continuation_success (h : e.Sound) (hr : e.registered? id = some r)
    (hlive : r.current.isEnded = false)
    (hok : continuation limit id task updates r e.workspace = .ok run w) :
    ∃ ts es, e.Success (.proceed id task updates) r.definition run w.supply.issued ts es := by
  cases task with
  | none =>
    cases hok
    obtain ⟨i, hi⟩ : ∃ i, i = r.current.mergeVariables (updates.getD []) := ⟨_, rfl⟩
    have hending : i.ending = [] := by
      rw [hi]
      exact Instance.ending_of_live hlive
    rw [← hi]
    refine ⟨[], [], .of_registered _ h rfl hr (fun _ => hlive) ?_ ?_ ?_ rfl (.refl _ _ _) (.refl _)
      fun hid => ?_⟩
    · rw [hi]
      rfl
    · rw [hi]
      exact fun t ht => ⟨t, ht, rfl⟩
    · rw [hi]
      rfl
    · have htells := Call.Tells.proceed none updates hid []
      rw [show ((Run.on i).emit (.processContinue id none)).current = i from rfl, hending] at htells
      exact htells
  | some task =>
    have hkept := h.kept id r hr hlive
    rw [← (h.known id r hr).1] at hkept
    obtain ⟨run₁, ts, es, hadds, hconcludes⟩ := continueFrom_adds h.workspace
      (hkept.mergeVariables _) hlive hok
    exact ⟨ts, es, .of_registered _ h rfl hr (fun _ => hlive) rfl
      (fun t ht => ⟨t, List.mem_of_mem_eraseP ht, rfl⟩) rfl rfl hadds hconcludes
      fun hid => .proceed (some task) updates hid _⟩

/-- What a suspension is about to commit. -/
lemma suspendRun_success {element : Option String} (h : e.Sound)
    (hr : e.registered? id = some r) (hlive : r.current.isEnded = false)
    (hok : suspendRun r element e.workspace = .ok run w) :
    ∃ es, e.Success (.suspend id element) r.definition run w.supply.issued [] es := by
  rw [suspendRun_eq] at hok
  split at hok
  · cases hok
  · obtain ⟨run₁, w₁, hrecord, hrun⟩ := Action.bind_eq_ok.1 hok
    cases hrun
    obtain ⟨es, hadds⟩ := Run.recordTokens_adds r.definition (by decide) _ hrecord
    refine ⟨es, .of_registered _ h rfl hr (fun _ => hlive) rfl (fun t ht => ?_) rfl rfl hadds
      ⟨rfl, rfl, rfl, rfl, rfl, rfl⟩ fun hid => ?_⟩
    · obtain ⟨o, ho, rfl⟩ := List.mem_map.1 ht
      refine ⟨o, ho, ?_⟩
      split <;> rfl
    · have hlive' : (settleSuspension r element run₁).current.isEnded = false := by
        rw [Instance.isEnded, show (settleSuspension r element run₁).current.endedAt =
          r.current.endedAt from hadds.endedAt]
        exact hlive
      rw [← (h.known id r hr).1] at hid ⊢
      exact .suspend element _ hid hlive'

/-- What a resumption is about to commit. -/
lemma resumeRun_success {element : Option String} (h : e.Sound)
    (hr : e.registered? id = some r) (hlive : r.current.isEnded = false)
    (hok : resumeRun r element e.workspace = .ok run w) :
    e.Success (.resume id element) r.definition run w.supply.issued [] [] := by
  rw [resumeRun_eq] at hok
  split_ifs at hok
  cases hok
  refine .of_registered { (resuming r element) with
    events := [.processResume r.current.id element] } h rfl hr (fun _ => hlive) rfl
    (fun t ht => ?_) rfl rfl (.refl _ _ _) ⟨rfl, rfl, rfl, rfl, rfl, rfl⟩ fun hid => ?_
  · obtain ⟨o, ho, rfl⟩ := List.mem_map.1 ht
    refine ⟨o, ho, ?_⟩
    split <;> rfl
  · rw [← (h.known id r hr).1] at hid ⊢
    exact .resume element _ hid hlive

/-- What is left of an instance that is terminated. -/
lemma terminateRun_success {reason : Option String} (h : e.Sound)
    (hr : e.registered? id = some r) (hok : terminateRun r reason e.workspace = .ok run w) :
    ∃ es, e.Success (.terminate id reason) r.definition run w.supply.issued [] es := by
  obtain ⟨run₁, w₁, hrecord, hrest⟩ := Action.bind_eq_ok.1 hok
  obtain ⟨run₂, w₂, hclose, hrun⟩ := Action.bind_eq_ok.1 hrest
  obtain ⟨ended, supply, hclosed, hissued, -⟩ := Run.close_spec run₁ w₁
  rw [hclosed] at hclose
  cases hclose
  cases hrun
  obtain ⟨es, hadds⟩ := Run.recordTokens_adds r.definition (by decide) _ hrecord
  refine ⟨es, .of_registered (terminating r reason) h rfl hr nofun rfl nofun rfl rfl
    (hadds.mono (Nat.le_of_eq hissued.symm)) ⟨rfl, rfl, rfl, rfl, rfl, rfl⟩ fun hid => ?_⟩
  have hevents : (terminating r reason).events = [.processTerminate id reason] := by
    rw [← (h.known id r hr).1]
    rfl
  rw [hevents, (h.known id r hr).1]
  exact .terminate reason hid rfl

end Registered

/-- What a call is about to commit. -/
theorem pending_success (h : e.Sound) {c : Call} {e₁ : Engine}
    (hpending : e.pending c = some (d, run, e₁)) :
    ∃ ts es, e.Success c d run e₁.workspace.supply.issued ts es := by
  cases c with
  | start d' businessKey vars => exact start_success h hpending
  | proceed id task updates =>
    obtain ⟨r, hr, hlive, rfl, hok⟩ := Lasting.ok_of_pendingOnLive hpending
    exact continuation_success h hr hlive hok
  | suspend id element =>
    obtain ⟨r, hr, hlive, rfl, hok⟩ := Lasting.ok_of_pendingOnLive hpending
    exact ⟨[], suspendRun_success h hr hlive hok⟩
  | resume id element =>
    obtain ⟨r, hr, hlive, rfl, hok⟩ := Lasting.ok_of_pendingOnLive hpending
    exact ⟨[], [], resumeRun_success h hr hlive hok⟩
  | terminate id reason => cases hpending

/-! ## What becomes of it -/

/-- What the engine makes of a call that succeeds: it keeps the instance unless it was terminated,
publishes its events behind evaluations, and records what it has noted. -/
structure Settled (e : Engine) (c : Call) (d : Definition) (run : Run) (e' : Engine) : Prop where
  registered : ∀ id, e'.registered? id = if id = run.current.id then
    if c.isTermination then none else some ⟨run.current, d⟩ else e.registered? id
  bus : ∃ evaluations : List Event, (∀ x ∈ evaluations, x.isEvaluation = true) ∧
    e'.workspace.bus = e.workspace.bus.publishAll (evaluations ++ run.events)
  coordinator : e'.coordinator = e.coordinator.map fun c =>
    run.completions.foldl (fun c completion => (c.recordExecution completion).2) c
  issued : e.workspace.supply.issued ≤ e'.workspace.supply.issued

/-- A call that succeeds is about an instance whose id was issued. -/
lemma Success.issued {c : Call} {e' : Engine} {ts : List Token} {es : List HistoryEntry}
    (h : e.Success c d run e'.workspace.supply.issued ts es) (hsound : e.Sound)
    (hsound' : e'.Sound) (hsettled : e.Settled c d run e') :
    Issued e'.workspace.supply.issued run.current.id := by
  have hconcerns := h.concerns
  have hregistered := hsettled.registered run.current.id
  rw [if_pos rfl] at hregistered
  generalize run.current.id = id at hconcerns hregistered
  cases hconcerns with
  | new => exact (hsound'.known _ _ hregistered).2
  | known _ hr => exact (hsound.known _ _ hr).2.mono hsettled.issued

/-- What a call comes to. -/
inductive Comes (e : Engine) (c : Call) : Except EngineError Instance × Engine → Prop
  | failed {err : EngineError} {w : Workspace} (hunseen : Unseen e.workspace w) :
      Comes e c (.error err, { e with workspace := w })
  | succeeded {d : Definition} {run : Run} {e' : Engine} (parked : List Token)
      (entries : List HistoryEntry)
      (hsuccess : e.Success c d run e'.workspace.supply.issued parked entries)
      (hsettled : e.Settled c d run e') : Comes e c (.ok run.current, e')

/-- A run that is committed is settled. -/
lemma settled_commit {c : Call} {es : List Event} (hc : c.isTermination = false)
    (hconf : Confined run.current.id es e.workspace w) :
    e.Settled c d run ({ e with workspace := w }.commit d run).2 where
  registered id := by
    rw [Lasting.registered?_commit, hc]
    rfl
  bus := by
    refine ⟨es, hconf.evaluations, ?_⟩
    rw [commit, bus_settle, EventBus.publishAll_append, ← hconf.bus]
    rfl
  coordinator := by
    rw [commit, coordinator_settle]
    rfl
  issued := by
    rw [commit, supply_settle]
    exact hconf.issued

/-- An instance that is terminated is dropped. -/
lemma settled_terminate {id : String} {reason : Option String} {supply : Supply}
    (hid : run.current.id = id) (hissued : supply.issued = e.workspace.supply.issued) :
    e.Settled (.terminate id reason) d run
      ((Engine.unregister { e with workspace := { e.workspace with supply } } id).settle run) where
  registered q := by
    rw [registered?, registry_settle, ← registered?, registered?_unregister, hid]
    rfl
  bus := by
    refine ⟨[], by simp, ?_⟩
    rw [bus_settle]
    rfl
  coordinator := by
    rw [coordinator_settle]
    rfl
  issued := by
    rw [supply_settle]
    exact Nat.le_of_eq hissued.symm

/-- A termination succeeds if the instance is registered. -/
lemma terminate_comes (h : e.Sound) (id : String) (reason : Option String) :
    e.Comes (.terminate id reason) (e.call (.terminate id reason)) := by
  rw [call, terminate]
  cases hr : e.registered? id with
  | none => exact .failed (.refl h.workspace.keyed)
  | some r =>
    obtain ⟨run, supply, hrun, hissued, -, hid, -⟩ := terminateRun_spec r reason e.workspace
    obtain ⟨es, hsuccess⟩ := terminateRun_success h hr hrun
    have hsettled : e.Settled (.terminate id reason) r.definition run _ :=
      settled_terminate (hid.trans (h.known id r hr).1) hissued
    simp only [perform_ok hrun]
    refine .succeeded [] es ?_ hsettled
    rw [supply_settle]
    exact hsuccess

/-- A call to a sound engine fails unseen, or comes to a success that is settled. -/
theorem call_comes (h : e.Sound) (c : Call) : e.Comes c (e.call c) := by
  have hcommitted : ∀ {d run w es}, e.pending c = some (d, run, { e with workspace := w }) →
      Confined run.current.id es e.workspace w → c.isTermination = false →
      e.Comes c (.ok run.current, ({ e with workspace := w }.commit d run).2) := by
    intro d run w es hpending hconf hc
    obtain ⟨ts, entries, hsuccess⟩ := pending_success h hpending
    refine .succeeded ts entries ?_ (settled_commit hc hconf)
    rw [commit, supply_settle]
    exact hsuccess
  have houtcome := call_outcome h c
  generalize hresult : e.call c = result at houtcome
  cases houtcome with
  | failed _ hunseen => exact .failed hunseen
  | @committed _ d run w es hpending _ hconf =>
    refine hcommitted hpending hconf ?_
    cases c <;> first | rfl | cases hpending
  | terminated =>
    rw [← hresult]
    exact terminate_comes h _ _

end Engine

end ProcessEngine

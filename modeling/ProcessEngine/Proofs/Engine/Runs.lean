import ProcessEngine.Engine.Lifecycle
import ProcessEngine.Proofs.Engine.Walk

/-!
# The runs of calls

Each call to the engine performs one action that yields a run.  `Advances` says what such an action
comes to when it works on a live instance in good order: it fails and nothing has happened to any
state (`Unseen`), or it yields a run of the same instance in good order, which has ended only if no
token is parked any more and its end is among the events.
-/

namespace ProcessEngine

/-- Between two workspaces the states of all instances are the same; identifiers were issued and
evaluations were published, if anything. -/
structure Unseen (w w' : Workspace) : Prop where
  keyed : w'.store.Keyed w'.supply.issued
  states : ∀ q, w'.store.states q = w.store.states q
  issued : w.supply.issued ≤ w'.supply.issued
  clock : w'.supply.clock = w.supply.clock
  published : ∃ es : List Event, (∀ e ∈ es, e.isEvaluation = true) ∧ w'.bus = w.bus.publishAll es

namespace Unseen

variable {w w' w'' : Workspace}

lemma refl (hk : w.store.Keyed w.supply.issued) : Unseen w w :=
  ⟨hk, fun _ => rfl, Nat.le_refl _, rfl, [], by simp, rfl⟩

lemma trans (h : Unseen w w') (h' : Unseen w' w'') : Unseen w w'' := by
  obtain ⟨es, hes, hw⟩ := h.published
  obtain ⟨fs, hfs, hw'⟩ := h'.published
  refine ⟨h'.keyed, fun q => (h'.states q).trans (h.states q), Nat.le_trans h.issued h'.issued,
    h'.clock.trans h.clock, es ++ fs, fun e he => ?_, ?_⟩
  · rcases List.mem_append.1 he with he | he
    · exact hes e he
    · exact hfs e he
  · rw [hw', hw, EventBus.publishAll_append]

lemma sound (h : Unseen w w') (hw : w.Sound) : w'.Sound := by
  refine ⟨h.keyed, fun p => ?_, fun p => ?_⟩
  · rw [h.states p]
    exact hw.joins p
  · rw [h.states p]
    exact hw.forks p

/-- Identifiers are issued and the clock is read, nothing else. -/
lemma of_supply (hk : w.store.Keyed w.supply.issued) {supply : Supply}
    (hi : w.supply.issued ≤ supply.issued) (hc : supply.clock = w.supply.clock) :
    Unseen w { w with supply } :=
  ⟨hk.mono hi, fun _ => rfl, hi, hc, [], by simp, rfl⟩

/-- What an action did to the states of its instance is undone by putting them back. -/
lemma of_restore {p : String} {es : List Event} (hk : w.store.Keyed w.supply.issued)
    (h : Confined p es w w') :
    Unseen w { w' with store := w'.store.restore p (w.store.states p) } := by
  obtain ⟨hkeyed, hstates⟩ := Store.states_restore hk h.keyed h.issued p fun o ho hp => by
    have hmem : o ∈ w'.store.states o.instanceId := Store.mem_states.2 ⟨ho, rfl⟩
    rw [h.others _ hp] at hmem
    exact (Store.mem_states.1 hmem).1
  refine ⟨hkeyed, fun q => ?_, h.issued, h.clock, es, h.evaluations, h.bus⟩
  rw [hstates q]
  split_ifs with hq
  · rw [hq]
  · exact h.others q hq

/-- What an action did to an instance without states is undone by forgetting them. -/
lemma of_forget {p : String} {es : List Event} (h : Confined p es w w')
    (hnone : w.store.states p = []) :
    Unseen w { w' with store := (w'.store.deleteInstance p).2 } := by
  refine ⟨h.keyed.deleteInstance p, fun q => ?_, h.issued, h.clock, es, h.evaluations, h.bus⟩
  rw [Store.states_deleteInstance]
  split_ifs with hq
  · rw [hq, hnone]
  · exact h.others q hq

end Unseen

/-- The action yields a run of the instance in good order. -/
def Succeeds (d : Definition) (p : String) (w : Workspace) (action : Action Run) : Prop :=
  ∃ run w' es, action w = .ok run w' ∧ run.current.id = p ∧ w'.Sound ∧ Confined p es w w' ∧
    Kept d run.current (w'.store.states p) ∧
    (run.current.isEnded = true → run.current.tokens = [] ∧ .processEnd p ∈ run.events)

/-- What an action that yields a run of a live instance comes to. -/
def Advances (d : Definition) (p : String) (w : Workspace) (action : Action Run) : Prop :=
  (∃ err w', action w = .error err w' ∧ Unseen w w') ∨ Succeeds d p w action

namespace Run

variable {run : Run} {w : Workspace}

/-- Closing sets the end of an instance that has none. -/
lemma close_spec (run : Run) (w : Workspace) :
    ∃ ended supply, run.close w =
        .ok { run with current := { run.current with endedAt := some ended } } { w with supply } ∧
      supply.issued = w.supply.issued ∧ supply.clock = w.supply.clock := by
  by_cases hended : run.current.isEnded = true
  · obtain ⟨ended, hsome⟩ := Option.isSome_iff_exists.1 hended
    refine ⟨ended, w.supply, ?_, rfl, rfl⟩
    rw [close, if_pos hended, ← hsome]
    rfl
  · refine ⟨w.supply.now.1, w.supply.now.2, ?_, rfl, rfl⟩
    rw [close, if_neg hended]
    rfl

/-- A run without tokens ends; any other goes on as it is. -/
lemma finish_spec (run : Run) (hlive : run.current.isEnded = false) (w : Workspace) :
    ∃ ended events supply, run.finish w =
        .ok { run with current := { run.current with endedAt := ended }, events }
          { w with supply } ∧
      supply.issued = w.supply.issued ∧ supply.clock = w.supply.clock ∧
      (ended.isSome = true → run.current.tokens = [] ∧ .processEnd run.current.id ∈ events) := by
  by_cases hnone : run.current.tokens.isEmpty = true
  · refine ⟨some w.supply.now.1, run.events ++ [.processEnd run.current.id], w.supply.now.2, ?_,
      rfl, rfl, fun _ => ⟨by simpa using hnone, by simp⟩⟩
    rw [finish, if_pos (by simp [hnone, hlive]), close, if_neg (by simp [hlive])]
    rfl
  · refine ⟨run.current.endedAt, run.events, w.supply, ?_, rfl, rfl, fun hsome => ?_⟩
    · rw [finish, if_neg (by simp [hnone])]
      rfl
    · rw [Instance.isEnded] at hlive
      rw [hlive] at hsome
      cases hsome

end Run

namespace Succeeds

variable {d : Definition} {p : String} {w : Workspace} {run : Run}

/-- An action that has succeeded is finished. -/
lemma finish {w' : Workspace} {es : List Event} {action : Action Run} {f : Run → Run}
    (haction : action w = .ok run w') (hlive : (f run).current.isEnded = false)
    (hid : (f run).current.id = p) (hw' : w'.Sound) (hc : Confined p es w w')
    (hk : Kept d (f run).current (w'.store.states p)) :
    Succeeds d p w (action >>= fun run => (f run).finish) := by
  obtain ⟨ended, events, supply, hfinish, hissued, hclock, hend⟩ := (f run).finish_spec hlive w'
  have hsupply : Confined p [] w' { w' with supply } :=
    .of_supply hc.keyed (Nat.le_of_eq hissued.symm) hclock
  refine ⟨_, _, _, (Action.bind_of_ok haction _).trans hfinish, hid,
    hw'.congr rfl (Nat.le_of_eq hissued.symm), hc.trans hsupply,
    hk.congr (fun t ht => ⟨t, ht, rfl, rfl, rfl⟩) fun _ _ _ _ => rfl, fun hended => ?_⟩
  rw [← hid]
  exact hend hended

/-- An action that only changes the suspension of tokens, the state and the history. -/
lemma of_congr {i : Instance} {supply : Supply} {action : Action Run} (hw : w.Sound)
    (hk : Kept d i (w.store.states i.id)) (hlive : i.isEnded = false)
    (haction : action w = .ok run { w with supply }) (hissued : supply.issued = w.supply.issued)
    (hclock : supply.clock = w.supply.clock) (hid : run.current.id = i.id)
    (hended : run.current.endedAt = i.endedAt)
    (htokens : ∀ t ∈ run.current.tokens, ∃ o ∈ i.tokens,
      t.elementId = o.elementId ∧ t.wait = o.wait ∧ t.frames = o.frames)
    (hcompletions : ∀ x, run.current.completions x = i.completions x) :
    Succeeds d i.id w action := by
  refine ⟨run, _, [], haction, hid, hw.congr rfl (Nat.le_of_eq hissued.symm),
    .of_supply hw.keyed (Nat.le_of_eq hissued.symm) hclock,
    hk.congr htokens fun g _ _ _ => hcompletions g.id, fun hend => ?_⟩
  rw [Instance.isEnded, hended] at hend
  rw [Instance.isEnded, hend] at hlive
  cases hlive

end Succeeds

namespace Engine

variable {d : Definition} {w : Workspace} {run : Run} {task : String}

/-! ## Completing a task -/

/-- The run after a token has been taken and its element completed. -/
def taken (run : Run) (task : String) (token : Token) (element : Element) (now : Instant) : Run :=
  Run.completed { run with
    current := { run.current with
      tokens := run.current.tokens.eraseP (·.accepts task) } } element token.id.text now

/-- The first token that accepts the task is taken, unless it is suspended. -/
lemma completeTask_eq (run : Run) (d : Definition) (task : String) (w : Workspace) :
    completeTask run d task w =
      match run.current.tokens.find? (·.accepts task) with
      | none => .error (.taskNotActive run.current.id task) w
      | some token =>
        if token.suspended then .error (.tokenSuspended run.current.id task) w
        else
          match d.element? task with
          | none => .error (.elementNotFound d.id task) w
          | some element =>
            .ok (token, taken run task token element w.supply.now.1)
              { w with supply := w.supply.now.2 } := by
  rw [completeTask]
  cases hfind : run.current.tokens.find? (·.accepts task) with
  | none => rfl
  | some token =>
    rw [Action.orFail_some, pure_bind]
    simp only
    split_ifs
    · rfl
    · cases helement : d.element? task with
      | none => rfl
      | some element =>
        rw [Action.orFail_some, pure_bind]
        exact Action.bind_of_ok (Run.complete_apply _ w element token.id.text) _

/-- A gateway that a waiting token accepts as a task is offered: a token that waits at the gateway
itself is offered its candidates, not the gateway. -/
lemma offers_of_accepts {g : Gateway} {token : Token} (hagrees : token.Agrees d)
    (haccepts : token.accepts g.id = true) (hg : d.element? g.id = some (.gateway g)) :
    d.Offers g.id := by
  rw [Token.Agrees] at hagrees
  rw [Token.accepts] at haccepts
  cases hwait : token.wait with
  | userTask | subProcess =>
    rw [hwait] at hagrees haccepts
    obtain ⟨n, hn⟩ := hagrees
    rw [show token.elementId = g.id by simpa using haccepts, hg] at hn
    cases hn
  | eventGateway candidates =>
    rw [hwait] at hagrees haccepts
    obtain ⟨k, hk, hkind, rfl⟩ := hagrees
    exact ⟨k, Definition.element?_self hk, hkind, by simpa using haccepts⟩

/-- Completing a task with a token that waits for it keeps an instance in order: no token comes to
the element, so none is counted at a join. -/
lemma kept_taken {states : List GatewayState} {token : Token} {element : Element}
    (hk : Kept d run.current states)
    (hfind : run.current.tokens.find? (·.accepts task) = some token)
    (he : d.element? task = some element) (now : Instant) :
    Kept d (taken run task token element now).current states := by
  rw [taken, Run.current_completed]
  refine hk.congr (fun t ht => ⟨t, List.mem_of_mem_eraseP ht, rfl, rfl, rfl⟩)
    fun g hg hjoins hoffers => ?_
  rw [Run.recorded, Instance.completions_record, if_neg]
  · rfl
  rintro ⟨heq, -⟩
  rw [Definition.element?_id he] at heq
  exact hoffers (offers_of_accepts (hk.waits token (List.mem_of_find?_eq_some hfind))
    (by simpa [heq] using List.find?_some hfind) hg)

/-- The tokens that leave a completed task carry the frames of the token that was taken. -/
lemma pending_leave {states : List GatewayState} {token : Token}
    (hk : Kept d run.current states)
    (hfind : run.current.tokens.find? (·.accepts task) = some token) :
    ∀ c ∈ d.leave task token.frames, ∀ f ∈ c.frames, f.Carried states := by
  intro c hc f hf
  obtain ⟨flow, -, rfl⟩ := List.mem_map.1 hc
  exact hk.frames token (List.mem_of_find?_eq_some hfind) f hf

/-- A task is refused and nothing has happened, or a token is taken and everything is in order for
the walk from its task. -/
lemma completeTask_spec (run : Run) (d : Definition) (task : String) (hw : w.Sound)
    (hk : Kept d run.current (w.store.states run.current.id)) :
    (∃ err, completeTask run d task w = .error err w) ∨
      ∃ token run', completeTask run d task w =
          .ok (token, run') { w with supply := w.supply.now.2 } ∧
        run'.current.id = run.current.id ∧ run'.current.endedAt = run.current.endedAt ∧
        (run'.stage (d.leave task token.frames) { w with supply := w.supply.now.2 }).Kept d := by
  have htask := completeTask_eq run d task w
  cases hfind : run.current.tokens.find? (·.accepts task) with
  | none =>
    rw [hfind] at htask
    exact .inl ⟨_, htask⟩
  | some token =>
    rw [hfind] at htask
    simp only at htask
    split_ifs at htask
    · exact .inl ⟨_, htask⟩
    cases helement : d.element? task with
    | none =>
      rw [helement] at htask
      exact .inl ⟨_, htask⟩
    | some element =>
      rw [helement] at htask
      have hcurrent : (taken run task token element w.supply.now.1).current.id = run.current.id ∧
          (taken run task token element w.supply.now.1).current.endedAt = run.current.endedAt := by
        rw [taken, Run.current_completed]
        exact ⟨rfl, rfl⟩
      have hsound : Workspace.Sound { w with supply := w.supply.now.2 } :=
        hw.congr rfl (Nat.le_refl _)
      refine .inr ⟨token, _, htask, hcurrent.1, hcurrent.2, hsound.states _, ?_, ?_⟩
      · rw [Run.stage, hcurrent.1]
        exact pending_leave hk hfind
      · rw [Run.stage, hcurrent.1]
        exact kept_taken hk hfind helement _

/-- After a completed task everything is in order for the walk from it. -/
lemma completeTask_kept {token : Token} {run₁ : Run} {w₁ : Workspace} (hw : w.Sound)
    (hk : Kept d run.current (w.store.states run.current.id))
    (h : completeTask run d task w = .ok (token, run₁) w₁) :
    w₁.Sound ∧ (run₁.stage (d.leave task token.frames) w₁).Kept d ∧
      run₁.current.id = run.current.id ∧ run₁.current.endedAt = run.current.endedAt := by
  rcases completeTask_spec run d task hw hk with
    ⟨err, hfail⟩ | ⟨token', started, hok, hid, hended, hstage⟩
  · rw [h] at hfail
    cases hfail
  · rw [h] at hok
    cases hok
    exact ⟨hw.congr rfl (Nat.le_refl _), hstage, hid, hended⟩

/-- A run that goes on from a task completes the task, walks until no token is left to move, and
finishes. -/
lemma continueFrom_ok {limit : Nat} {run' : Run} {w' : Workspace}
    (h : continueFrom run d limit task w = .ok run' w') :
    ∃ token run₁ w₁ run₂ w₂, completeTask run d task w = .ok (token, run₁) w₁ ∧
      Run.Walks d (d.leave task token.frames) run₁ w₁ [] run₂ w₂ ∧ run₂.finish w₂ = .ok run' w' := by
  rw [continueFrom, Action.bind_eq_ok] at h
  obtain ⟨⟨token, run₁⟩, w₁, htask, hrest⟩ := h
  obtain ⟨run₂, w₂, hundoing, hfinish⟩ := Action.bind_eq_ok.1 hrest
  rw [undoing] at hundoing
  split at hundoing
  · next hwalk =>
    cases hundoing
    exact ⟨token, run₁, w₁, run₂, w₂, htask, Run.walks_of_traverse hwalk, hfinish⟩
  · cases hundoing

/-- A task is completed and the token walks on, or nothing has happened. -/
theorem continueFrom_advances (run : Run) (hw : w.Sound)
    (hk : Kept d run.current (w.store.states run.current.id))
    (hlive : run.current.isEnded = false) (limit : Nat) (task : String) :
    Advances d run.current.id w (continueFrom run d limit task) := by
  rcases completeTask_spec run d task hw hk with
    ⟨err, htask⟩ | ⟨token, started, htask, hid, hended, hstage⟩
  · exact .inl ⟨err, w, Action.bind_of_error htask _, .refl hw.keyed⟩
  obtain ⟨w₁, hw₁⟩ : ∃ w₁ : Workspace, w₁ = { w with supply := w.supply.now.2 } := ⟨_, rfl⟩
  rw [← hw₁] at htask hstage
  have hread : Confined run.current.id [] w w₁ := by
    rw [hw₁]
    exact .of_supply hw.keyed (Nat.le_refl _) rfl
  have hunseen : Unseen w w₁ := by
    rw [hw₁]
    exact .of_supply hw.keyed (Nat.le_refl _) rfl
  rcases Run.traverse_spec limit limit (hunseen.sound hw) hstage with
    ⟨err, w₂, es, hwalk, -, hconf⟩ | ⟨run₂, w₂, es, hwalk, hsound₂, hkept₂, hid₂, hended₂, hconf⟩
  · rw [hid] at hconf
    refine .inl ⟨err, _, ?_, hunseen.trans (.of_restore hread.keyed hconf)⟩
    rw [continueFrom, Action.bind_of_ok htask]
    refine Action.bind_of_error ?_ _
    rw [undoing, Run.walk, hwalk, hid]
  · rw [hid] at hconf hid₂
    rw [continueFrom, ← bind_assoc]
    refine .inr (Succeeds.finish (f := id) (?_ : _ = EStateM.Result.ok run₂ w₂) ?_ hid₂
      hsound₂ (hread.trans hconf) ?_)
    · rw [Action.bind_of_ok htask]
      simp only [undoing, Run.walk, hwalk]
    · rw [id_eq, Instance.isEnded, hended₂, hended]
      exact hlive
    · rw [← hid₂]
      exact hkept₂.kept

/-! ## Starting and continuing -/

/-- The first walk of a new instance either fails, whatever it has left of the instance, or yields a
run in good order. -/
theorem firstWalk_spec (start : Node) (hw : w.Sound) (hlive : run.current.isEnded = false)
    (hk : Kept d run.current (w.store.states run.current.id)) (limit : Nat) :
    (∃ err w' es, firstWalk run d limit start w = .error err w' ∧
        Confined run.current.id es w w') ∨
      Succeeds d run.current.id w (firstWalk run d limit start) := by
  have hstage : (run.stage [⟨start.id, []⟩] w).Kept d :=
    ⟨hw.states run.current.id, by simp [Run.stage], hk⟩
  rcases Run.traverse_spec limit limit hw hstage with
    ⟨err, w', es, hwalk, -, hconf⟩ | ⟨run', w', es, hwalk, hsound', hkept', hid', hended', hconf⟩
  · exact .inl ⟨err, w', es, Action.bind_of_error hwalk _, hconf⟩
  · refine .inr (Succeeds.finish (f := fun run => run.emit (.processStarted run.current.id)) hwalk
      ?_ hid' hsound' hconf ?_)
    · rw [show (run'.emit (.processStarted run'.current.id)).current = run'.current from rfl,
        Instance.isEnded, hended']
      exact hlive
    · rw [← hid']
      exact hkept'.kept

/-- The action of a continued instance. -/
def continuation (limit : Nat) (id : String) (task : Option String) (updates : Option Variables)
    (r : Registered) : Action Run :=
  let run := (Run.on (r.current.mergeVariables (updates.getD []))).emit (.processContinue id task)
  match task with
  | none => pure run
  | some task => continueFrom run r.definition limit task

theorem continuation_advances {r : Registered} (hw : w.Sound)
    (hk : Kept r.definition r.current (w.store.states r.current.id))
    (hlive : r.current.isEnded = false) (limit : Nat) (id : String) (task : Option String)
    (updates : Option Variables) :
    Advances r.definition r.current.id w (continuation limit id task updates r) := by
  cases task with
  | none =>
    exact .inr (.of_congr hw hk hlive rfl rfl rfl rfl rfl
      (fun t ht => ⟨t, ht, rfl, rfl, rfl⟩) fun _ => rfl)
  | some task =>
    exact continueFrom_advances ((Run.on (r.current.mergeVariables (updates.getD []))).emit
      (.processContinue id (some task))) hw
      (hk.mergeVariables _) hlive limit task

/-! ## Suspending and resuming -/

/-- Entries for tokens lengthen the history, and read the clock. -/
lemma recordTokens_spec (d : Definition) (status : HistoryStatus) (ts : List Token) (run : Run)
    (w : Workspace) :
    ∃ history supply, run.recordTokens d status ts w =
        .ok { run with current := { run.current with history } } { w with supply } ∧
      supply.issued = w.supply.issued ∧ supply.clock = w.supply.clock ∧
      (status ≠ .completed → ∀ x, { run.current with history }.completions x =
        run.current.completions x) := by
  induction ts generalizing run w with
  | nil => exact ⟨run.current.history, w.supply, rfl, rfl, rfl, fun _ _ => rfl⟩
  | cons t rest ih =>
    let kind := ((d.element? t.elementId).map Element.kind).getD .userTask
    obtain ⟨history, supply, heq, hissued, hclock, hcount⟩ :=
      ih (run.recorded t.elementId kind status t.id.text w.supply.now.1)
        { w with supply := w.supply.now.2 }
    refine ⟨history, supply, ?_, hissued, hclock, fun hne x => ?_⟩
    · rw [Run.recordTokens, Action.bind_of_ok (Run.record_apply run w _ kind status _)]
      exact heq
    · have hrest := hcount hne x
      rw [Run.recorded, Instance.completions_record, if_neg fun h => hne h.2] at hrest
      exact hrest

/-- There is one entry for each token, in order. -/
lemma recordTokens_entries {status : HistoryStatus} {ts : List Token} {run' : Run} {w' : Workspace}
    (h : run.recordTokens d status ts w = .ok run' w') :
    ∃ entries, run'.current.history = run.current.history ++ entries ∧
      entries.map HistoryEntry.elementId = ts.map Token.elementId ∧
      ∀ entry ∈ entries, entry.status = status := by
  induction ts generalizing run w with
  | nil =>
    cases h
    exact ⟨[], (List.append_nil _).symm, rfl, nofun⟩
  | cons t rest ih =>
    rw [Run.recordTokens, Action.bind_of_ok (Run.record_apply run w _ _ status _)] at h
    obtain ⟨entries, hhistory, helements, hstatus⟩ := ih h
    rw [Run.recorded, Instance.record, List.append_assoc] at hhistory
    exact ⟨_ :: entries, hhistory, congrArg _ helements, List.forall_mem_cons.2 ⟨rfl, hstatus⟩⟩

/-- The tokens after those that suspending concerns are suspended. -/
def suspendedTokens (element : Option String) (ts : List Token) : List Token :=
  ts.map fun t => if !t.suspended && isAt element t then { t with suspended := true } else t

/-- The run of a suspension before its entries are made. -/
def suspending (r : Registered) (element : Option String) : Run :=
  { (Run.on r.current).emit (.processSuspend r.current.id element) with
    current := { r.current with tokens := suspendedTokens element r.current.tokens } }

/-- The run of a suspension after its entries are made. -/
def settleSuspension (r : Registered) (element : Option String) (run : Run) : Run :=
  let all := (suspendedTokens element r.current.tokens).all (·.suspended)
  let state := if all then InstanceState.suspended else r.current.state
  let suspended := r.current.tokens.filter fun t => !t.suspended && isAt element t
  Run.emit { run with current := { run.current with state } }
    (.processSuspended r.current.id (suspended.map Token.elementId))

/-- A suspension is refused if no token is at the element. -/
lemma suspendRun_eq (r : Registered) (element : Option String) (w : Workspace) :
    suspendRun r element w =
      match element.filter fun x => r.current.tokens.all (·.elementId != x) with
      | some x => .error (.taskNotActive r.current.id x) w
      | none =>
        ((suspending r element).recordTokens r.definition .suspended
          (r.current.tokens.filter fun t => !t.suspended && isAt element t) >>= fun run =>
            (pure (settleSuspension r element run) : Action Run)) w := by
  cases element with
  | none => rfl
  | some x =>
    by_cases habsent : (r.current.tokens.all (·.elementId != x)) = true
    · rw [suspendRun, Option.filter_some, if_pos habsent]
      simp only [if_pos habsent]
      rfl
    · rw [suspendRun, Option.filter_some, if_neg habsent]
      simp only [if_neg habsent]
      rfl

theorem suspendRun_advances {r : Registered} (hw : w.Sound)
    (hk : Kept r.definition r.current (w.store.states r.current.id))
    (hlive : r.current.isEnded = false) (element : Option String) :
    Advances r.definition r.current.id w (suspendRun r element) := by
  have heq := suspendRun_eq r element w
  split at heq
  · exact .inl ⟨_, w, heq, .refl hw.keyed⟩
  · obtain ⟨history, supply, hrecord, hissued, hclock, hcount⟩ := recordTokens_spec r.definition
      .suspended (r.current.tokens.filter fun t => !t.suspended && isAt element t)
      (suspending r element) w
    rw [Action.bind_of_ok hrecord] at heq
    refine .inr (.of_congr hw hk hlive heq hissued hclock rfl rfl (fun t ht => ?_)
      fun x => hcount (by decide) x)
    obtain ⟨o, ho, rfl⟩ := List.mem_map.1 ht
    refine ⟨o, ho, ?_⟩
    split <;> exact ⟨rfl, rfl, rfl⟩

/-- The run of a resumption. -/
def resuming (r : Registered) (element : Option String) : Run :=
  let tokens := r.current.tokens.map fun t =>
    if t.suspended && isAt element t then { t with suspended := false } else t
  let resumed := r.current.tokens.filter fun t => t.suspended && isAt element t
  Run.emit { (Run.on r.current).emit (.processResume r.current.id element) with
    current := { r.current with tokens, state := .active } }
    (.processResumed r.current.id (resumed.map Token.elementId))

/-- A resumption is refused if no token at the element is suspended. -/
lemma resumeRun_eq (r : Registered) (element : Option String) (w : Workspace) :
    resumeRun r element w =
      if (r.current.tokens.filter fun t => t.suspended && isAt element t).isEmpty then
        .error (.noSuspendedElement r.current.id) w
      else .ok (resuming r element) w := by
  rw [resumeRun]
  split_ifs <;> rfl

theorem resumeRun_advances {r : Registered} (hw : w.Sound)
    (hk : Kept r.definition r.current (w.store.states r.current.id))
    (hlive : r.current.isEnded = false) (element : Option String) :
    Advances r.definition r.current.id w (resumeRun r element) := by
  have heq := resumeRun_eq r element w
  split_ifs at heq
  · exact .inl ⟨_, w, heq, .refl hw.keyed⟩
  · refine .inr (.of_congr hw hk hlive heq rfl rfl rfl rfl (fun t ht => ?_) fun _ => rfl)
    obtain ⟨o, ho, rfl⟩ := List.mem_map.1 ht
    refine ⟨o, ho, ?_⟩
    split <;> exact ⟨rfl, rfl, rfl⟩

/-! ## Terminating -/

/-- The run of a termination before its entries are made. -/
def terminating (r : Registered) (reason : Option String) : Run :=
  (Run.on { r.current with tokens := [] }).emit (.processTerminate r.current.id reason)

/-- Termination never fails, and touches no state. -/
theorem terminateRun_spec (r : Registered) (reason : Option String) (w : Workspace) :
    ∃ run supply, terminateRun r reason w = .ok run { w with supply } ∧
      supply.issued = w.supply.issued ∧ supply.clock = w.supply.clock ∧
      run.current.id = r.current.id ∧ run.current.isEnded = true := by
  obtain ⟨history, supply, hrecord, hissued, hclock, -⟩ := recordTokens_spec r.definition .cancelled
    r.current.tokens (terminating r reason) w
  obtain ⟨ended, later, hclose, hissued', hclock'⟩ := Run.close_spec
    { terminating r reason with current := { (terminating r reason).current with history } }
    { w with supply }
  have hrun : terminateRun r reason w = .ok _ _ :=
    (Action.bind_of_ok hrecord _).trans (Action.bind_of_ok hclose _)
  exact ⟨_, later, hrun, hissued'.trans hissued, hclock'.trans hclock, rfl, rfl⟩

end Engine

end ProcessEngine

import ProcessEngine.Proofs.Engine.Stages

/-!
# Properties that last

A property of the tokens in flight, the instance and its gateway states is `Lasting` if it holds
when an instance is started, if no visit breaks it, if it holds again after a token was taken to
complete a task, and if it does not depend on what is suspended.  Such a property holds at every
stage of a walk (`Lasting.reaches`) and of every registered instance (`Lasting.registered`), so that
what is proved about a visit need not be carried through the calls of the engine each time.
-/

namespace ProcessEngine

/-- The token as it is when it is not suspended. -/
def Token.core (t : Token) : Token := { t with suspended := false }

/-- Tokens may be suspended or resumed and history entries be made for them, but no token has moved
and no element was completed. -/
structure Instance.Unmoved (i j : Instance) : Prop where
  id : j.id = i.id
  tokens : j.tokens.map Token.core = i.tokens.map Token.core
  completions : ∀ x, j.completions x = i.completions x
  history : ∃ entries, j.history = i.history ++ entries ∧
    ∀ entry ∈ entries, ∃ t ∈ i.tokens, t.elementId = entry.elementId

/-- No token has moved if tokens and history are the same. -/
lemma Instance.Unmoved.of_eq {i j : Instance} (hid : j.id = i.id) (htokens : j.tokens = i.tokens)
    (hhistory : j.history = i.history) : i.Unmoved j := by
  refine ⟨hid, by rw [htokens], fun x => ?_, [], by rw [hhistory, List.append_nil], nofun⟩
  rw [Instance.completions, hhistory, Instance.completions]

lemma Instance.Unmoved.refl (i : Instance) : i.Unmoved i := .of_eq rfl rfl rfl

lemma Instance.Unmoved.mergeVariables (i : Instance) (updates : Variables) :
    i.Unmoved (i.mergeVariables updates) := .of_eq rfl rfl rfl

/-- A token of the later instance was there before, but for its suspension. -/
lemma Instance.Unmoved.exists_token {i j : Instance} (h : i.Unmoved j) {t : Token}
    (ht : t ∈ j.tokens) : ∃ o ∈ i.tokens, o.core = t.core := by
  have hmem : t.core ∈ i.tokens.map Token.core := h.tokens ▸ List.mem_map_of_mem ht
  exact List.mem_map.1 hmem

/-- A property that runs of calls on instances of a definition keep. -/
structure Lasting (d : Definition)
    (P : List Cursor → Instance → List GatewayState → Prop) : Prop where
  start : ∀ {first : Node} {i : Instance}, d.startEvents.head? = some first → i.tokens = [] →
    i.history = [] → P [⟨first.id, []⟩] i []
  visited : ∀ {s t : Stage}, s.Kept d → P s.pending s.run.current s.states → Visited d s t →
    P t.pending t.run.current t.states
  taken : ∀ {run : Run} {states : List GatewayState} {task : String} {token : Token}
    {element : Element} (now : Instant), Kept d run.current states → P [] run.current states →
    run.current.tokens.find? (·.accepts task) = some token → d.element? task = some element →
    P (d.leave task token.frames) (Engine.taken run task token element now).current states
  unmoved : ∀ {i j : Instance} {states : List GatewayState}, i.Unmoved j → P [] i states →
    P [] j states

/-! ## What the parts of a call do -/

namespace Run

variable {d : Definition} {run run' : Run} {w w' : Workspace} {c : Cursor}

lemma visited_of_visit {next rest : List Cursor} (hw : w.Sound)
    (hf : ∀ f ∈ c.frames, f.Carried (w.store.states run.current.id))
    (hvisit : run.visit d c w = .ok (next, run') w') :
    Visited d (run.stage (c :: rest) w) (run'.stage (next ++ rest) w') := by
  rcases visit_spec (d := d) hw hf with ⟨e, v, herror, -⟩ | ⟨next₁, run₁, v, hok, hvisited, -⟩
  · rw [hvisit] at herror
    cases herror
  · rw [hvisit] at hok
    cases hok
    exact hvisited rest

/-- A relation between stages that every visit establishes, and that is reflexive and transitive,
holds between the ends of a walk. -/
theorem Walks.of_visited {R : Stage → Stage → Prop} (hrefl : ∀ s, R s s)
    (htrans : ∀ {s t u}, R s t → R t u → R s u)
    (hvisited : ∀ {s t : Stage}, s.Kept d → Visited d s t → R s t)
    {pending pending' : List Cursor} (h : Walks d pending run w pending' run' w') (hw : w.Sound)
    (hk : (run.stage pending w).Kept d) : R (run.stage pending w) (run'.stage pending' w') := by
  induction h with
  | refl => exact hrefl _
  | @visit c next rest pending' run run' run'' w w' w'' hvisit hwalk ih =>
    have hfirst : Visited d (run.stage (c :: rest) w) (run'.stage (next ++ rest) w') :=
      visited_of_visit hw (hk.pending c List.mem_cons_self) hvisit
    obtain ⟨hw', hk', -⟩ := visit_kept hw hk hvisit
    exact htrans (hvisited hk hfirst) (ih hw' hk')

/-- Ending an instance moves no token. -/
lemma finish_ok (h : run.finish w = .ok run' w') :
    run.current.Unmoved run'.current ∧ w'.store = w.store := by
  rw [finish] at h
  split_ifs at h
  · obtain ⟨ended, supply, hclose, -⟩ := close_spec run w
    rw [Action.bind_of_ok hclose] at h
    cases h
    exact ⟨.of_eq rfl rfl rfl, rfl⟩
  · cases h
    exact ⟨.refl _, rfl⟩

end Run

namespace Engine

variable {d : Definition} {run run' : Run} {w w' : Workspace} {task : String}

/-- A task that is completed takes the first token that accepts it. -/
lemma completeTask_ok {token : Token}
    (h : completeTask run d task w = .ok (token, run') w') :
    run.current.tokens.find? (·.accepts task) = some token ∧
      ∃ element, d.element? task = some element ∧
        run' = taken run task token element w.supply.now.1 ∧
        w' = { w with supply := w.supply.now.2 } := by
  rw [completeTask_eq] at h
  split at h
  · cases h
  · next t hfind =>
    split_ifs at h
    split at h
    · cases h
    · next element helement =>
      cases h
      exact ⟨hfind, element, helement, rfl, rfl⟩

/-- Suspending moves no token. -/
lemma suspendRun_ok {r : Registered} {element : Option String}
    (h : suspendRun r element w = .ok run w') :
    r.current.Unmoved run.current ∧ w'.store = w.store := by
  rw [suspendRun_eq] at h
  split at h
  · cases h
  · obtain ⟨history, supply, hrecord, -, -, hcount⟩ := recordTokens_spec r.definition .suspended
      (r.current.tokens.filter fun t => !t.suspended && isAt element t) (suspending r element) w
    obtain ⟨entries, hhistory, helements, -⟩ := recordTokens_entries hrecord
    rw [Action.bind_of_ok hrecord] at h
    cases h
    refine ⟨⟨rfl, ?_, fun x => hcount (by decide) x, entries, hhistory, fun entry hentry => ?_⟩, rfl⟩
    · refine List.map_map.trans (List.map_congr_left fun t _ => ?_)
      rw [Function.comp_apply]
      split <;> rfl
    · obtain ⟨t, ht, heq⟩ := List.mem_map.1 (helements ▸ List.mem_map_of_mem hentry)
      exact ⟨t, List.mem_of_mem_filter ht, heq⟩

/-- Resuming moves no token. -/
lemma resumeRun_ok {r : Registered} {element : Option String}
    (h : resumeRun r element w = .ok run w') :
    r.current.Unmoved run.current ∧ w'.store = w.store := by
  rw [resumeRun_eq] at h
  split_ifs at h
  cases h
  refine ⟨⟨rfl, ?_, fun _ => rfl, [], (List.append_nil _).symm, nofun⟩, rfl⟩
  refine List.map_map.trans (List.map_congr_left fun t _ => ?_)
  rw [Function.comp_apply]
  split <;> rfl

/-- What is left of an instance that is terminated: its history goes on with an entry for each
token. -/
lemma terminateRun_ok {r : Registered} {reason : Option String}
    (h : terminateRun r reason w = .ok run w') :
    run.current.tokens = [] ∧ ∃ entries, run.current.history = r.current.history ++ entries ∧
      entries.map HistoryEntry.elementId = r.current.tokens.map Token.elementId ∧
      ∀ entry ∈ entries, entry.status = .cancelled := by
  obtain ⟨history, supply, hrecord, -⟩ := recordTokens_spec r.definition .cancelled
    r.current.tokens (terminating r reason) w
  obtain ⟨entries, hhistory, helements, hstatus⟩ := recordTokens_entries hrecord
  obtain ⟨ended, supply', hclose, -⟩ := Run.close_spec
    { terminating r reason with current := { (terminating r reason).current with history } }
    { w with supply }
  have hrun : terminateRun r reason w = .ok _ _ :=
    (Action.bind_of_ok hrecord _).trans (Action.bind_of_ok hclose _)
  rw [h] at hrun
  cases hrun
  exact ⟨rfl, entries, hhistory, helements, hstatus⟩

end Engine

/-! ## Walks -/

namespace Lasting

variable {d : Definition} {P : List Cursor → Instance → List GatewayState → Prop}
  {run run' : Run} {w w' : Workspace}

/-- A lasting property holds all along a walk. -/
theorem walks (hP : Lasting d P) {pending pending' : List Cursor}
    (h : Run.Walks d pending run w pending' run' w') (hw : w.Sound)
    (hk : (run.stage pending w).Kept d)
    (hp : P pending run.current (w.store.states run.current.id)) :
    P pending' run'.current (w'.store.states run'.current.id) :=
  Run.Walks.of_visited
    (R := fun s t => P s.pending s.run.current s.states → P t.pending t.run.current t.states)
    (fun _ hp => hp) (fun h h' hp => h' (h hp)) (fun hk hvisited hp => hP.visited hk hp hvisited)
    h hw hk hp

/-- So it does on the way from a completed task. -/
lemma afterTask (hP : Lasting d P) {pending : List Cursor} {run₁ : Run} {w₁ : Workspace}
    {task : String} {token : Token}
    (hw : w.Sound) (hk : Kept d run.current (w.store.states run.current.id))
    (hp : P [] run.current (w.store.states run.current.id))
    (htask : Engine.completeTask run d task w = .ok (token, run₁) w₁)
    (hwalk : Run.Walks d (d.leave task token.frames) run₁ w₁ pending run' w') :
    P pending run'.current (w'.store.states run'.current.id) := by
  obtain ⟨hw₁, hstage, hid, -⟩ := Engine.completeTask_kept hw hk htask
  obtain ⟨hfind, element, helement, rfl, rfl⟩ := Engine.completeTask_ok htask
  refine hP.walks hwalk hw₁ hstage ?_
  rw [hid]
  exact hP.taken _ hk hp hfind helement

/-! ## Calls -/

open Engine

/-- It holds of the run of an instance that was started. -/
lemma firstWalk (hP : Lasting d P) {limit : Nat} {first : Node}
    (hfirst : d.startEvents.head? = some first) (hw : w.Sound)
    (htokens : run.current.tokens = []) (hhistory : run.current.history = [])
    (hnone : w.store.states run.current.id = [])
    (h : Engine.firstWalk run d limit first w = .ok run' w') :
    P [] run'.current (w'.store.states run'.current.id) := by
  rw [Engine.firstWalk, Action.bind_eq_ok] at h
  obtain ⟨run₁, w₁, hwalk, hfinish⟩ := h
  obtain ⟨hunmoved, hstore⟩ := Run.finish_ok hfinish
  have hwalks : Run.Walks d [⟨first.id, []⟩] run w [] run₁ w₁ := Run.walks_of_traverse hwalk
  have hstage : (run.stage [⟨first.id, []⟩] w).Kept d := .fresh hw htokens hhistory hnone first.id
  have hp : P [] run₁.current (w₁.store.states run₁.current.id) := by
    refine hP.walks hwalks hw hstage ?_
    rw [hnone]
    exact hP.start hfirst htokens hhistory
  rw [hstore, hunmoved.id]
  exact hP.unmoved hunmoved hp

/-- It holds of the run of an instance that goes on from a task. -/
lemma continueFrom (hP : Lasting d P) {limit : Nat} {task : String} (hw : w.Sound)
    (hk : Kept d run.current (w.store.states run.current.id))
    (hp : P [] run.current (w.store.states run.current.id))
    (h : Engine.continueFrom run d limit task w = .ok run' w') :
    P [] run'.current (w'.store.states run'.current.id) := by
  obtain ⟨token, run₁, w₁, run₂, w₂, htask, hwalks, hfinish⟩ := Engine.continueFrom_ok h
  obtain ⟨hunmoved, hstore⟩ := Run.finish_ok hfinish
  rw [hstore, hunmoved.id]
  exact hP.unmoved hunmoved (hP.afterTask hw hk hp htask hwalks)

/-- It holds of the run of an instance that is continued. -/
lemma continuation (hP : Lasting d P) {limit : Nat} {id : String} {task : Option String}
    {updates : Option Variables} {r : Registered} (hd : r.definition = d) (hw : w.Sound)
    (hk : Kept d r.current (w.store.states r.current.id))
    (hp : P [] r.current (w.store.states r.current.id))
    (h : Engine.continuation limit id task updates r w = .ok run' w') :
    P [] run'.current (w'.store.states run'.current.id) := by
  have hmerged := Instance.Unmoved.mergeVariables r.current (updates.getD [])
  cases task with
  | none =>
    cases h
    exact hP.unmoved hmerged hp
  | some task =>
    rw [← hd] at hP hk
    exact hP.continueFrom hw (hk.mergeVariables _) (hP.unmoved hmerged hp) h

/-- What an action on a live instance has come to. -/
lemma ok_of_pendingOnLive {e e₁ : Engine} {id : String} {action : Registered → Action Run}
    (h : e.pendingOnLive id action = some (d, run, e₁)) :
    ∃ r, e.registered? id = some r ∧ r.current.isEnded = false ∧ r.definition = d ∧
      action r e.workspace = .ok run e₁.workspace := by
  rw [pendingOnLive] at h
  cases hregistered : e.registered? id with
  | none =>
    rw [live_unknown hregistered] at h
    cases h
  | some r =>
    cases hended : r.current.isEnded with
    | true =>
      rw [live_ended hregistered hended] at h
      cases h
    | false =>
      rw [live_running hregistered hended] at h
      simp only at h
      cases haction : action r e.workspace with
      | ok run₁ w₁ =>
        rw [perform_ok haction] at h
        obtain ⟨rfl, rfl, rfl⟩ :
            r.definition = d ∧ run₁ = run ∧ { e with workspace := w₁ } = e₁ := by
          simpa using h
        exact ⟨r, rfl, hended, rfl, haction⟩
      | error err w₁ =>
        rw [perform_error haction] at h
        cases h

/-- What a start has come to. -/
lemma ok_of_pendingStart {e e₁ : Engine} {d' : Definition} {businessKey : String}
    {vars : Option Variables} (h : e.pending (.start d' businessKey vars) = some (d, run, e₁)) :
    ∃ first rest run₀ supply, d.startEvents = first :: rest ∧ d' = d ∧
      opening e.workspace.supply d businessKey (vars.getD []) = (run₀, supply) ∧
      Engine.firstWalk run₀ d e.config.maxTraversalSteps first { e.workspace with supply } =
        .ok run e₁.workspace := by
  rw [Engine.pending] at h
  cases hstart : d'.startEvents with
  | nil =>
    rw [hstart] at h
    cases h
  | cons first rest =>
    obtain ⟨run₀, supply, hopening⟩ : ∃ run supply,
        opening e.workspace.supply d' businessKey (vars.getD []) = (run, supply) := ⟨_, _, rfl⟩
    rw [hstart] at h
    simp only [hopening] at h
    cases hwalk : Engine.firstWalk run₀ d' e.config.maxTraversalSteps first
        { e.workspace with supply } with
    | error err w =>
      rw [perform_error (e := e.withSupply supply) hwalk] at h
      cases h
    | ok run' w =>
      rw [perform_ok (e := e.withSupply supply) hwalk] at h
      obtain ⟨rfl, rfl, rfl⟩ : d' = d ∧ run' = run ∧
        { e.withSupply supply with workspace := w } = e₁ := by simpa using h
      exact ⟨first, rest, run₀, supply, hstart, rfl, hopening, hwalk⟩

/-- It holds of what a call is about to commit if it holds of the live instances before. -/
lemma pending (hP : Lasting d P) {e e₁ : Engine} (h : e.Sound)
    (hlive : ∀ id r, e.registered? id = some r → r.definition = d → r.current.isEnded = false →
      P [] r.current (e.workspace.store.states r.current.id))
    {c : Call} (hpending : e.pending c = some (d, run, e₁)) :
    P [] run.current (e₁.workspace.store.states run.current.id) := by
  have hkept : ∀ id r, e.registered? id = some r → r.definition = d → r.current.isEnded = false →
      Kept d r.current (e.workspace.store.states r.current.id) := by
    rintro id r hr rfl hended
    rw [(h.known id r hr).1]
    exact h.kept id r hr hended
  cases c with
  | start d' businessKey vars =>
    obtain ⟨first, rest, run₀, supply, hstart, -, hopening, hwalk⟩ := ok_of_pendingStart hpending
    obtain ⟨htokens, hhistory, hnone, hsound⟩ := opening_spec h hopening
    exact hP.firstWalk (by rw [hstart]; rfl) hsound htokens hhistory hnone hwalk
  | proceed id task updates =>
    obtain ⟨r, hr, hended, hd, hok⟩ := ok_of_pendingOnLive hpending
    exact hP.continuation hd h.workspace (hkept id r hr hd hended) (hlive id r hr hd hended) hok
  | suspend id element =>
    obtain ⟨r, hr, hended, hd, hok⟩ := ok_of_pendingOnLive hpending
    obtain ⟨hunmoved, hstore⟩ := suspendRun_ok hok
    rw [hstore, hunmoved.id]
    exact hP.unmoved hunmoved (hlive id r hr hd hended)
  | resume id element =>
    obtain ⟨r, hr, hended, hd, hok⟩ := ok_of_pendingOnLive hpending
    obtain ⟨hunmoved, hstore⟩ := resumeRun_ok hok
    rw [hstore, hunmoved.id]
    exact hP.unmoved hunmoved (hlive id r hr hd hended)
  | terminate id reason => cases hpending

lemma registered?_commit (e : Engine) (d : Definition) (run : Run) (id : String) :
    (e.commit d run).2.registered? id =
      if id = run.current.id then some ⟨run.current, d⟩ else e.registered? id := by
  rw [commit, registered?, registry_settle, ← registered?, registered?_register]

/-- A lasting property holds of every registered instance and its states.  The states of an
instance that has ended are those that the call which ended it was about to drop. -/
theorem registered (hP : Lasting d P) {e : Engine} (h : e.Reachable) :
    ∀ id r, e.registered? id = some r → r.definition = d →
      ∃ states, P [] r.current states ∧
        (r.current.isEnded = false → states = e.workspace.store.states id) := by
  induction h with
  | new config clock =>
    intro id r hr
    cases hr
  | @call e h c ih =>
    have hlive : ∀ id r, e.registered? id = some r → r.definition = d →
        r.current.isEnded = false → P [] r.current (e.workspace.store.states r.current.id) := by
      intro id r hr hd hended
      obtain ⟨states, hp, hstates⟩ := ih id r hr hd
      rw [(h.sound.known id r hr).1, ← hstates hended]
      exact hp
    have houtcome := call_outcome h.sound c
    generalize e.call c = result at houtcome
    intro id r hr hd
    cases houtcome with
    | @failed _ err w _ hunseen =>
      obtain ⟨states, hp, hstates⟩ := ih id r hr hd
      exact ⟨states, hp, fun hended => (hstates hended).trans (hunseen.states id).symm⟩
    | @committed _ d' run w es hpending _ hconf =>
      have hcommitted := registered?_commit { e with workspace := w } d' run id
      rw [hcommitted] at hr
      split_ifs at hr with hid
      · obtain rfl := Option.some.inj hr
        rw [show d' = d from hd] at hpending
        refine ⟨_, hP.pending h.sound hlive hpending, fun hended => ?_⟩
        rw [commit, states_settle, if_neg fun hand => by simp [hand.1] at hended, hid]
        rfl
      · obtain ⟨states, hp, hstates⟩ := ih id r hr hd
        refine ⟨states, hp, fun hended => ?_⟩
        rw [commit, states_settle, if_neg fun hand => hid hand.2, hstates hended]
        exact (hconf.others id hid).symm
    | @terminated gone reason r' run supply _ _ _ hgone =>
      rw [registered?, registry_settle, ← registered?, registered?_unregister] at hr
      split_ifs at hr with hid
      obtain ⟨states, hp, hstates⟩ := ih id r hr hd
      refine ⟨states, hp, fun hended => ?_⟩
      rw [states_settle, if_neg fun hand => hid (hand.2.trans hgone), hstates hended]
      rfl
  | withCoordinator h c ih => exact ih
  | withBus h b ih => exact ih

/-! ## Stages -/

/-- A lasting property holds at every stage. -/
theorem reaches (hP : Lasting d P) {pending : List Cursor} {run : Run} {w : Workspace}
    (h : Reaches d pending run w) : P pending run.current (w.store.states run.current.id) := by
  cases h with
  | @idle e id r h hregistered hlive =>
    obtain ⟨states, hp, hstates⟩ := hP.registered h id r hregistered rfl
    rw [Run.on, (h.sound.known id r hregistered).1, ← hstates hlive]
    exact hp
  | @start e d' first rest businessKey vars run₁ run' supply pending' w' h hstart hopening hwalk =>
    obtain ⟨htokens, hhistory, hnone, hsound⟩ := opening_spec h.sound hopening
    refine hP.walks hwalk hsound (.fresh hsound htokens hhistory hnone first.id) ?_
    rw [hnone]
    exact hP.start (by rw [hstart]; rfl) htokens hhistory
  | @proceed e id task updates r token run₁ run' pending' w₁ w' h hregistered hlive htask hwalk =>
    have hid := (h.sound.known id r hregistered).1
    have hkept := h.sound.kept id r hregistered hlive
    obtain ⟨states, hp, hstates⟩ := hP.registered h id r hregistered rfl
    rw [hstates hlive, ← hid] at hp
    rw [← hid] at hkept
    have hmerged := Instance.Unmoved.mergeVariables r.current updates
    exact hP.afterTask h.sound.workspace (hkept.mergeVariables updates) (hP.unmoved hmerged hp)
      htask hwalk

end Lasting

end ProcessEngine

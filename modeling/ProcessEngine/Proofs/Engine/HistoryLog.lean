import Mathlib.Data.List.Chain
import ProcessEngine.Proofs.Engine.EventLifecycle
import ProcessEngine.Proofs.Engine.Turns

/-!
# History is a log

The history of an instance is only ever appended to.  Whatever the clock says, each entry ends no
later than the next one starts, and what a call appends depends on its kind: starting an instance
and completing a task append completions, suspending appends an entry for each token that it
suspends, terminating one for each parked token, and nothing else appends anything
(`history_append_only`).

All entries are made by `Instance.record`, which takes the end of the last entry for the time if the
clock has gone back behind it.  So the order of a history is kept by one entry
(`Instance.GrowsBy.record`), and from there by visits, walks and calls.
-/

namespace ProcessEngine

/-! ## Time -/

lemma Instant.not_lt_self (t : Instant) : ¬t < t := by
  rintro (h | ⟨-, h⟩)
  · exact Int.lt_irrefl _ h
  · exact Nat.lt_irrefl _ h

namespace Instance

/-- An entry is never dated back behind the end of the last one. -/
lemma le_entryTime {i : Instance} {last : HistoryEntry} (h : i.history.getLast? = some last)
    (now : Instant) : last.endTime ≤ i.entryTime now := by
  rw [entryTime, h]
  by_cases hback : now < last.endTime
  · simp only [if_pos hback]
    exact Instant.not_lt_self _
  · simp only [if_neg hback]
    exact hback

lemma inOrder_iff (entries : List HistoryEntry) :
    inOrder entries = true ↔ entries.IsChain fun a b => a.endTime ≤ b.startTime := by
  induction entries with
  | nil => simp [inOrder]
  | cons a rest ih =>
    cases rest with
    | nil => simp [inOrder]
    | cons b rest => rw [inOrder, Bool.and_eq_true, ih, List.isChain_cons_cons, decide_eq_true_eq]

/-! ## Growth -/

/-- The history of an instance goes on with entries, and stays in order. -/
structure GrowsBy (i j : Instance) (entries : List HistoryEntry) : Prop where
  id : j.id = i.id
  history : j.history = i.history ++ entries
  ordered : inOrder i.history = true → inOrder j.history = true

namespace GrowsBy

variable {i j k : Instance} {es fs : List HistoryEntry}

lemma of_eq (hid : j.id = i.id) (hhistory : j.history = i.history) : i.GrowsBy j [] :=
  ⟨hid, by rw [hhistory, List.append_nil], fun horder => hhistory ▸ horder⟩

lemma trans (h : i.GrowsBy j es) (h' : j.GrowsBy k fs) : i.GrowsBy k (es ++ fs) where
  id := h'.id.trans h.id
  history := by rw [h'.history, h.history, List.append_assoc]
  ordered horder := h'.ordered (h.ordered horder)

/-- One entry is made, at whatever time. -/
lemma record (i : Instance) (element : String) (kind : ElementKind) (status : HistoryStatus)
    (execution : Option String) (now : Instant) :
    i.GrowsBy (i.record element kind status execution now)
      [⟨element, kind, status, i.entryTime now, i.entryTime now, execution⟩] where
  id := rfl
  history := rfl
  ordered horder := by
    rw [inOrder_iff] at horder ⊢
    refine List.isChain_append.2 ⟨horder, .singleton _, fun last hlast entry hentry => ?_⟩
    obtain rfl := Option.some.inj hentry
    exact le_entryTime hlast now

end GrowsBy

end Instance

/-! ## Walks -/

/-- A visit makes completions only. -/
lemma Visited.grows {d : Definition} {s t : Stage} (h : Visited d s t) :
    ∃ entries, s.run.current.GrowsBy t.run.current entries ∧
      ∀ entry ∈ entries, entry.status = .completed := by
  cases h with
  | @complete c rest run issued states e now he hkind =>
    rw [Run.current_completed]
    exact ⟨_, .record run.current e.id e.kind .completed _ now, by simp⟩
  | userTask | subProcess => exact ⟨[], .of_eq rfl rfl, nofun⟩
  | @goOn c rest run issued issued' states states' g decision now =>
    exact ⟨_, .record run.current g.id .gateway .completed _ now, by simp⟩
  | @absorbed c rest run issued issued' states states' g decision now =>
    exact ⟨_, .record run.current g.id .gateway .completed _ now, by simp⟩
  | @offered c rest run issued issued' states states' g decision now =>
    have hentry := Instance.GrowsBy.record run.current g.id .gateway .completed
      (some (Uid.mk (issued + 1)).text) now
    exact ⟨_, ⟨hentry.id, hentry.history, hentry.ordered⟩, by simp⟩

lemma Run.Walks.grows {d : Definition} {pending pending' : List Cursor} {run run' : Run}
    {w w' : Workspace} (h : Run.Walks d pending run w pending' run' w') (hw : w.Sound)
    (hk : (run.stage pending w).Kept d) :
    ∃ entries, run.current.GrowsBy run'.current entries ∧
      ∀ entry ∈ entries, entry.status = .completed := by
  refine h.of_visited
    (R := fun s t => ∃ entries, s.run.current.GrowsBy t.run.current entries ∧
      ∀ entry ∈ entries, entry.status = .completed)
    (fun _ => ⟨[], .of_eq rfl rfl, nofun⟩) ?_ (fun _ hvisited => hvisited.grows) hw hk
  rintro s t u ⟨es, hfirst, hall⟩ ⟨fs, hrest, hall'⟩
  exact ⟨es ++ fs, hfirst.trans hrest, List.forall_mem_append.2 ⟨hall, hall'⟩⟩

/-! ## The rest of a call -/

/-- Finishing a run makes no entry. -/
lemma Run.finish_grows {run run' : Run} {w w' : Workspace} (h : run.finish w = .ok run' w') :
    run.current.GrowsBy run'.current [] := by
  rw [finish] at h
  split_ifs at h
  · obtain ⟨ended, supply, hclose, -⟩ := close_spec run w
    rw [Action.bind_of_ok hclose] at h
    cases h
    exact .of_eq rfl rfl
  · cases h
    exact .of_eq rfl rfl

/-- An entry says what became of a parked token: it names the token and the element that the token
is parked at. -/
structure HistoryEntry.Tells (status : HistoryStatus) (t : Token) (entry : HistoryEntry) : Prop where
  element : entry.elementId = t.elementId
  status : entry.status = status
  execution : entry.executionId = some t.id.text

/-- One entry is made for each token, in order. -/
lemma Run.recordTokens_grows {d : Definition} {status : HistoryStatus} {ts : List Token}
    {run run' : Run} {w w' : Workspace} (h : run.recordTokens d status ts w = .ok run' w') :
    ∃ entries, run.current.GrowsBy run'.current entries ∧
      List.Forall₂ (HistoryEntry.Tells status) ts entries := by
  induction ts generalizing run w with
  | nil =>
    cases h
    exact ⟨[], .of_eq rfl rfl, .nil⟩
  | cons t rest ih =>
    rw [recordTokens, Action.bind_of_ok (record_apply run w _ _ status _)] at h
    obtain ⟨entries, hgrows, htells⟩ := ih h
    have hentry := Instance.GrowsBy.record run.current t.elementId
      (((d.element? t.elementId).map Element.kind).getD .userTask) status (some t.id.text)
      w.supply.now.1
    exact ⟨_, hentry.trans hgrows, .cons ⟨rfl, rfl, rfl⟩ htells⟩

/-- The tokens that are suspended and were not before.  The same tokens are parked before and after,
in the same order. -/
def newlySuspended (before after : List Token) : List Token :=
  ((before.zip after).filter fun x => !x.1.suspended && x.2.suspended).map Prod.snd

lemma newlySuspended_cons (old new : Token) (before after : List Token) :
    newlySuspended (old :: before) (new :: after) =
      if !old.suspended && new.suspended then new :: newlySuspended before after
      else newlySuspended before after := by
  rw [newlySuspended, List.zip_cons_cons, List.filter_cons, newlySuspended]
  split <;> rfl

namespace Engine

/-- Suspending suspends the tokens at the element that were not suspended. -/
lemma newlySuspended_suspendedTokens (element : Option String) (ts : List Token) :
    newlySuspended ts (suspendedTokens element ts) =
      (ts.filter fun t => !t.suspended && isAt element t).map ({ · with suspended := true }) := by
  induction ts with
  | nil => rfl
  | cons t rest ih =>
    rw [suspendedTokens, List.map_cons, newlySuspended_cons, ← suspendedTokens, ih, List.filter_cons]
    cases hold : t.suspended <;> cases hat : isAt element t <;> simp [hold]

variable {r : Registered} {run run' : Run} {w w' : Workspace} {d : Definition}

/-- Starting an instance makes completions only. -/
lemma firstWalk_grows {limit : Nat} {first : Node} (hw : w.Sound)
    (hk : (run.stage [⟨first.id, []⟩] w).Kept d) (h : firstWalk run d limit first w = .ok run' w') :
    ∃ entries, run.current.GrowsBy run'.current entries ∧
      ∀ entry ∈ entries, entry.status = .completed := by
  obtain ⟨run₁, w₁, hwalk, hfinish⟩ := Action.bind_eq_ok.1 h
  obtain ⟨entries, hgrows, hall⟩ := (Run.walks_of_traverse hwalk).grows hw hk
  have hfinished : (run₁.emit (.processStarted run₁.current.id)).current.GrowsBy run'.current [] :=
    Run.finish_grows hfinish
  have hgrown := hgrows.trans hfinished
  rw [List.append_nil] at hgrown
  exact ⟨entries, hgrown, hall⟩

/-- Taking a token makes one entry, for the task. -/
lemma taken_grows (run : Run) (task : String) (token : Token) (element : Element) (now : Instant) :
    ∃ entry, run.current.GrowsBy (taken run task token element now).current [entry] ∧
      entry.status = .completed := by
  obtain ⟨i, hi⟩ : ∃ i, i = { run.current with
      tokens := run.current.tokens.eraseP (·.accepts task) } := ⟨_, rfl⟩
  have hentry := Instance.GrowsBy.record i element.id element.kind .completed
    (some token.id.text) now
  rw [taken, Run.current_completed]
  rw [hi] at hentry
  exact ⟨_, ⟨hentry.id, hentry.history, hentry.ordered⟩, rfl⟩

/-- Completing a task makes completions only. -/
lemma continueFrom_grows {limit : Nat} {task : String} (hw : w.Sound)
    (hk : Kept d run.current (w.store.states run.current.id))
    (h : continueFrom run d limit task w = .ok run' w') :
    ∃ entries, run.current.GrowsBy run'.current entries ∧
      ∀ entry ∈ entries, entry.status = .completed := by
  obtain ⟨token, run₁, w₁, run₂, w₂, htask, hwalks, hfinish⟩ := continueFrom_ok h
  obtain ⟨hw₁, hstage, -, -⟩ := completeTask_kept hw hk htask
  obtain ⟨-, element, -, rfl, -⟩ := completeTask_ok htask
  obtain ⟨entries, hwalked, hall⟩ := hwalks.grows hw₁ hstage
  obtain ⟨entry, htaken, hentry⟩ := taken_grows run task token element w.supply.now.1
  have hgrown := (htaken.trans hwalked).trans (Run.finish_grows hfinish)
  rw [List.append_nil] at hgrown
  exact ⟨_, hgrown, List.forall_mem_cons.2 ⟨hentry, hall⟩⟩

/-- Suspending makes an entry for each token that it suspends. -/
lemma suspendRun_grows {element : Option String} (h : suspendRun r element w = .ok run w') :
    ∃ entries, r.current.GrowsBy run.current entries ∧
      List.Forall₂ (HistoryEntry.Tells .suspended)
        (newlySuspended r.current.tokens run.current.tokens) entries := by
  rw [suspendRun_eq] at h
  split at h
  · cases h
  obtain ⟨run₁, w₁, hrecord, hrun⟩ := Action.bind_eq_ok.1 h
  cases hrun
  obtain ⟨entries, hgrows, htells⟩ := Run.recordTokens_grows hrecord
  obtain ⟨history, supply, hrecorded, -⟩ := recordTokens_spec r.definition .suspended
    (r.current.tokens.filter fun t => !t.suspended && isAt element t) (suspending r element) w
  rw [hrecorded] at hrecord
  cases hrecord
  refine ⟨entries, ⟨hgrows.id, hgrows.history, hgrows.ordered⟩, ?_⟩
  rw [show (settleSuspension r element _).current.tokens =
    suspendedTokens element r.current.tokens from rfl, newlySuspended_suspendedTokens,
    List.forall₂_map_left_iff]
  exact htells.imp fun _ _ htold => ⟨htold.element, htold.status, htold.execution⟩

/-- Terminating makes an entry for each parked token. -/
lemma terminateRun_grows {reason : Option String} (h : terminateRun r reason w = .ok run w') :
    ∃ entries, r.current.GrowsBy run.current entries ∧
      List.Forall₂ (HistoryEntry.Tells .cancelled) r.current.tokens entries := by
  obtain ⟨run₁, w₁, hrecord, hrest⟩ := Action.bind_eq_ok.1 h
  obtain ⟨run₂, w₂, hclose, hrun⟩ := Action.bind_eq_ok.1 hrest
  obtain ⟨ended, supply, hclosed, -⟩ := Run.close_spec run₁ w₁
  rw [hclosed] at hclose
  cases hclose
  cases hrun
  obtain ⟨entries, hgrows, htells⟩ := Run.recordTokens_grows hrecord
  exact ⟨entries, ⟨hgrows.id, hgrows.history, hgrows.ordered⟩, htells⟩

end Engine

/-! ## Calls -/

/-- What a call that succeeds may append to the history of its instance, depending on the tokens
that are parked before and after. -/
def Call.Appends (before after : List Token) (entries : List HistoryEntry) : Call → Prop
  | .start .. | .proceed _ (some _) _ => ∀ entry ∈ entries, entry.status = .completed
  | .proceed _ none _ | .resume .. => entries = []
  | .suspend .. => after.map Token.core = before.map Token.core ∧
      List.Forall₂ (HistoryEntry.Tells .suspended) (newlySuspended before after) entries
  | .terminate .. => List.Forall₂ (HistoryEntry.Tells .cancelled) before entries

namespace Engine

variable {e e' e₁ : Engine} {c : Call} {d : Definition} {run : Run} {i j : Instance} {id : String}

/-- What a call that yields an instance has done to its history. -/
def Appended (e : Engine) (c : Call) (i : Instance) : Prop :=
  ∃ entries, i.history = e.historyOf i.id ++ entries ∧
    c.Appends (e.tokensOf i.id) i.tokens entries ∧
    (Instance.inOrder (e.historyOf i.id) = true → Instance.inOrder i.history = true)

/-- The history of a registered instance goes on. -/
lemma Appended.of_grows (h : e.Sound) {r : Registered} {entries : List HistoryEntry}
    (hr : e.registered? id = some r) (hgrows : r.current.GrowsBy i entries)
    (happends : c.Appends r.current.tokens i.tokens entries) : e.Appended c i := by
  rw [Appended, hgrows.id, (h.known id r hr).1, historyOf_of_registered hr,
    tokensOf_of_registered hr]
  exact ⟨entries, hgrows.history, happends, hgrows.ordered⟩

/-- What a call is about to commit has grown. -/
theorem appended_of_pending (h : e.Sound) (hpending : e.pending c = some (d, run, e₁)) :
    e.Appended c run.current := by
  cases c with
  | start d' businessKey vars =>
    obtain ⟨first, rest, run₀, supply, -, rfl, hopening, hfirst⟩ :=
      Lasting.ok_of_pendingStart hpending
    obtain ⟨htokens, hhistory, hnone, hsound⟩ := opening_spec h hopening
    obtain ⟨entries, hgrows, hall⟩ := firstWalk_grows hsound
      (.fresh hsound htokens hhistory hnone first.id) hfirst
    have hnew : e.historyOf run.current.id = run₀.current.history := by
      rw [hhistory, hgrows.id, (opening_puts_off hopening).1, historyOf, get?,
        h.registered?_instanceId]
      rfl
    refine ⟨entries, ?_, hall, ?_⟩
    · rw [hnew]
      exact hgrows.history
    · rw [hnew]
      exact hgrows.ordered
  | proceed id task updates =>
    obtain ⟨r, hr, hlive, rfl, hok⟩ := Lasting.ok_of_pendingOnLive hpending
    have hmerged := Instance.GrowsBy.of_eq (i := r.current)
      (j := r.current.mergeVariables (updates.getD [])) rfl rfl
    cases task with
    | none =>
      generalize e₁.workspace = w at hok
      cases hok
      exact .of_grows h hr hmerged rfl
    | some task =>
      have hkept := h.kept id r hr hlive
      rw [← (h.known id r hr).1] at hkept
      obtain ⟨entries, hgrows, hall⟩ := continueFrom_grows h.workspace (hkept.mergeVariables _) hok
      exact .of_grows h hr (hmerged.trans hgrows) hall
  | suspend id element =>
    obtain ⟨r, hr, -, rfl, hok⟩ := Lasting.ok_of_pendingOnLive hpending
    obtain ⟨entries, hgrows, htells⟩ := suspendRun_grows hok
    exact .of_grows h hr hgrows ⟨(suspendRun_ok hok).1.tokens, htells⟩
  | resume id element =>
    obtain ⟨r, hr, -, rfl, hok⟩ := Lasting.ok_of_pendingOnLive hpending
    rw [resumeRun_eq] at hok
    generalize e₁.workspace = w at hok
    split_ifs at hok
    cases hok
    exact .of_grows h hr (.of_eq rfl rfl) rfl
  | terminate id reason => cases hpending

/-- Every call that yields an instance has made its history grow. -/
theorem appended_of_call (h : e.Sound) (hok : (e.call c).1 = .ok i) : e.Appended c i := by
  rcases yielded_cases h hok with ⟨d, run, e₁, hpending, rfl⟩ |
    ⟨id, reason, r, run, w, rfl, hr, hrun, rfl⟩
  · exact appended_of_pending h hpending
  · obtain ⟨entries, hgrows, htells⟩ := terminateRun_grows hrun
    exact .of_grows h hr hgrows htells

/-- The history of every registered instance is in order. -/
theorem inOrder_registered (h : e.Reachable) (hi : e.get? id = some i) :
    Instance.inOrder i.history = true := by
  obtain ⟨r, hr, rfl⟩ := Option.map_eq_some_iff.1 hi
  refine registered_induction (P := fun _ i => Instance.inOrder i.history = true)
    (fun {e e₁ c d run} h hbefore hpending => ?_) h id r hr
  obtain ⟨entries, -, -, hordered⟩ := appended_of_pending h.sound hpending
  refine hordered ?_
  rw [historyOf, get?]
  cases hr : e.registered? run.current.id with
  | none => rfl
  | some r => exact hbefore _ r hr

/-! ## Runs of calls -/

/-- What a call does to the histories of the registered instances, and to the history of the
instance that it yields.  One that fails does nothing.  One that succeeds appends to one history,
which stays in order, and does not touch any other. -/
inductive Logs (e : Engine) (c : Call) : Except EngineError Instance × Engine → Prop
  | nothing {err : EngineError} {e' : Engine} (hsame : ∀ id, e'.get? id = e.get? id) :
      Logs e c (.error err, e')
  | appends {i : Instance} {e' : Engine} (entries : List HistoryEntry)
      (hhistory : i.history = e.historyOf i.id ++ entries)
      (happends : c.Appends (e.tokensOf i.id) i.tokens entries)
      (hordered : Instance.inOrder i.history = true)
      (hothers : ∀ id, e'.get? id =
        if id = i.id then if c.isTermination then none else some i else e.get? id) :
      Logs e c (.ok i, e')

/-- Every call keeps a log. -/
theorem call_logs (h : e.Reachable) (c : Call) : e.Logs c (e.call c) := by
  have hcomes := call_comes h.sound c
  have happended := fun i => appended_of_call (i := i) h.sound (c := c)
  generalize e.call c = result at hcomes happended
  cases hcomes with
  | failed => exact .nothing fun _ => rfl
  | @succeeded d run e' ts es hsuccess hsettled =>
    obtain ⟨entries, hhistory, happends, hordered⟩ := happended run.current rfl
    refine .appends entries hhistory happends (hordered ?_) fun id => ?_
    · rw [historyOf]
      cases hi : e.get? run.current.id with
      | none => rfl
      | some i => exact inOrder_registered h hi
    · rw [get?, hsettled.registered]
      split_ifs <;> rfl

lemma Logs.isPrefix {result : Except EngineError Instance × Engine} (h : e.Logs c result)
    (hi : e.get? id = some i) (hj : result.2.get? id = some j) : i.history <+: j.history := by
  cases h with
  | nothing hsame =>
    obtain rfl : i = j := Option.some.inj (hi.symm.trans ((hsame id).symm.trans hj))
    exact List.prefix_refl _
  | @appends k e' entries hhistory _ _ hothers =>
    rw [hothers] at hj
    split_ifs at hj with hid
    · obtain rfl := Option.some.inj hj
      rw [hhistory, ← hid, historyOf, hi]
      exact List.prefix_append _ _
    · obtain rfl : i = j := Option.some.inj (hi.symm.trans hj)
      exact List.prefix_refl _

/-- A call issues identifiers, if anything. -/
lemma issued_le_call (h : e.Sound) (c : Call) :
    e.workspace.supply.issued ≤ (e.call c).2.workspace.supply.issued := by
  have hcomes := call_comes h c
  generalize e.call c = result at hcomes
  cases hcomes with
  | failed hunseen => exact hunseen.issued
  | succeeded _ _ _ hsettled => exact hsettled.issued

/-- No call gives the id of an instance that is gone to another one. -/
lemma get?_call_eq_none (h : e.Sound) (hissued : Issued e.workspace.supply.issued id)
    (hnone : e.get? id = none) (c : Call) : (e.call c).2.get? id = none := by
  have hcomes := call_comes h c
  generalize e.call c = result at hcomes
  cases hcomes with
  | failed => exact hnone
  | @succeeded d run e' ts es hsuccess hsettled =>
    have hother : id ≠ run.current.id := by
      rintro rfl
      have hconcerns := hsuccess.concerns
      generalize run.current.id = id at hconcerns hissued hnone
      cases hconcerns with
      | new => exact hissued.ne_instanceId rfl
      | known _ hr =>
        rw [get?_of_registered hr] at hnone
        cases hnone
    rw [get?, hsettled.registered, if_neg hother]
    exact hnone

lemma get?_after_eq_none (h : e.Reachable) (hissued : Issued e.workspace.supply.issued id)
    (hnone : e.get? id = none) (cs : List Call) : (e.after cs).get? id = none := by
  induction cs generalizing e with
  | nil => exact hnone
  | cons c rest ih =>
    exact ih (h.call c) (hissued.mono (issued_le_call h.sound c))
      (get?_call_eq_none h.sound hissued hnone c)

/-- Nothing is ever taken from a history or changed in it. -/
theorem history_prefix_after (h : e.Reachable) (cs : List Call) (hi : e.get? id = some i)
    (hj : (e.after cs).get? id = some j) : i.history <+: j.history := by
  induction cs generalizing e i with
  | nil =>
    obtain rfl : i = j := Option.some.inj (hi.symm.trans hj)
    exact List.prefix_refl _
  | cons c rest ih =>
    have hlogs := call_logs h c
    cases hk : (e.call c).2.get? id with
    | none =>
      have hissued : Issued (e.call c).2.workspace.supply.issued id := by
        obtain ⟨r, hr, -⟩ := Option.map_eq_some_iff.1 hi
        exact (h.sound.known id r hr).2.mono (issued_le_call h.sound c)
      have hgone := get?_after_eq_none (h.call c) hissued hk rest
      rw [show (e.after (c :: rest)).get? id = none from hgone] at hj
      cases hj
    | some k => exact (hlogs.isPrefix hi hk).trans (ih (h.call c) hk hj)

/-- The history of an instance is an ordered log.  In every reachable engine, whatever its clock
shows, each entry of a history ends no later than the next one starts.  A call appends to the
history of its own instance only, and only what its kind of call may append.  So along any calls a
history that was there is a beginning of the later one. -/
theorem history_append_only (h : e.Reachable) :
    (∀ id i, e.get? id = some i → Instance.inOrder i.history = true) ∧
      (∀ c, e.Logs c (e.call c)) ∧
      ∀ cs id i j, e.get? id = some i → (e.after cs).get? id = some j → i.history <+: j.history :=
  ⟨fun _ _ hi => inOrder_registered h hi, call_logs h, fun cs _ _ _ => history_prefix_after h cs⟩

/-! ## Against the clock -/

/-- An engine whose clock runs backwards. -/
def backwards : Engine :=
  .new { Config.standard with maxTraversalSteps := 10 } (.start fun n => .ofSeconds (-n))

/-- One of two tasks is put off, while the clock goes back. -/
def washingPutOff : Engine :=
  backwards.after [.start chores "key" none, .suspend firstId (some "wash")]

lemma reachable_washingPutOff : washingPutOff.Reachable :=
  Reachable.after (.new _ _) _

/-- The clock has gone back behind every entry that was made. -/
theorem history_append_only_backwards :
    washingPutOff.Reachable ∧
      (washingPutOff.historyOf firstId).map (fun x => (x.elementId, x.status)) =
        [("start", .completed), ("fork", .completed), ("wash", .suspended)] ∧
      (washingPutOff.historyOf firstId).all (washingPutOff.workspace.supply.now.1 < ·.startTime) =
        true ∧
      (∀ id i, washingPutOff.get? id = some i → Instance.inOrder i.history = true) ∧
      (∀ c, washingPutOff.Logs c (washingPutOff.call c)) ∧
      ∀ cs id i j, washingPutOff.get? id = some i → (washingPutOff.after cs).get? id = some j →
        i.history <+: j.history :=
  ⟨reachable_washingPutOff, by decide +kernel, by decide +kernel,
    history_append_only reachable_washingPutOff⟩

end Engine

end ProcessEngine

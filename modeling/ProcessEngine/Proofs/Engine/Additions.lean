import ProcessEngine.Proofs.Engine.Lasting

/-!
# What a walk adds

A walk takes nothing back: it parks tokens behind those that are parked, makes entries at the end of
the history, and puts off events and completions in order.  `Run.Adds` ties these to one another.
Each user task at which a token is parked is reported as created, and each entry that says that a
task was completed is noted for compensation, and nothing else is.  One visit adds in this way
(`Visited.adds`), and so does a walk of any length (`Run.Walks.adds`).
-/

namespace ProcessEngine

open Compensation (Completion)

/-! ## Entries and notes -/

/-- Whether an entry of the history says that a user task or a service task was completed. -/
def HistoryEntry.isCompletedTask (entry : HistoryEntry) : Bool :=
  entry.status == .completed &&
    (entry.elementKind == .userTask || entry.elementKind == .serviceTask)

/-- A note for compensation says what an entry of the history says, with the name of the element in
the definition, and with the variables of the instance. -/
structure Noted (d : Definition) (p : String) (vars : Variables) (entry : HistoryEntry)
    (note : Completion) : Prop where
  instanceId : note.instanceId = p
  execution : entry.executionId = some note.executionId
  activity : note.activityId = entry.elementId
  type : note.activityType = entry.elementKind.label
  name : ∃ e, d.element? entry.elementId = some e ∧ e.kind = entry.elementKind ∧
    note.activityName = e.name
  vars : note.vars = vars

/-- The tasks among entries are the ones that are noted. -/
def AllNoted (d : Definition) (p : String) (vars : Variables) (entries : List HistoryEntry)
    (notes : List Completion) : Prop :=
  List.Forall₂ (Noted d p vars) (entries.filter (·.isCompletedTask)) notes

namespace AllNoted

variable {d : Definition} {p : String} {vars : Variables} {entries entries' : List HistoryEntry}
  {notes notes' : List Completion}

lemma append (h : AllNoted d p vars entries notes) (h' : AllNoted d p vars entries' notes') :
    AllNoted d p vars (entries ++ entries') (notes ++ notes') := by
  rw [AllNoted, List.filter_append]
  exact List.rel_append h h'

/-- Entries about other elements, and about tasks that are not completed, are not noted. -/
lemma none (h : ∀ entry ∈ entries, entry.isCompletedTask = false) :
    AllNoted d p vars entries [] := by
  rw [AllNoted, List.filter_eq_nil_iff.2 fun entry hentry => by simp [h entry hentry]]
  exact .nil

lemma exists_entry (h : AllNoted d p vars entries notes) :
    ∀ note ∈ notes, ∃ entry, Noted d p vars entry note := by
  rw [AllNoted] at h
  generalize entries.filter (·.isCompletedTask) = tasks at h
  induction h with
  | nil => nofun
  | cons hnote _ ih =>
    intro note hmem
    rcases List.mem_cons.1 hmem with rfl | hmem
    · exact ⟨_, hnote⟩
    · exact ih note hmem

lemma instanceId (h : AllNoted d p vars entries notes) : ∀ note ∈ notes, note.instanceId = p := by
  intro note hmem
  obtain ⟨entry, hnoted⟩ := h.exists_entry note hmem
  exact hnoted.instanceId

end AllNoted

/-! ## Tokens and tasks -/

/-- Whether a parked token waits for a user task. -/
def Token.isTask (t : Token) : Bool := t.wait == .userTask

/-- The event that reports the user task at which a token is parked. -/
def Definition.created (d : Definition) (p : String) (t : Token) : Event :=
  .taskCreated p t.elementId ((d.element? t.elementId).bind Element.name)

/-- The events that report the user tasks among parked tokens, in order. -/
def Definition.creations (d : Definition) (p : String) (parked : List Token) : List Event :=
  (parked.filter (·.isTask)).map (d.created p)

lemma Definition.creations_append (d : Definition) (p : String) (ts us : List Token) :
    d.creations p (ts ++ us) = d.creations p ts ++ d.creations p us := by
  rw [creations, List.filter_append, List.map_append, creations, creations]

lemma Definition.creations_eq_nil (d : Definition) (p : String) {ts : List Token}
    (h : ∀ t ∈ ts, t.isTask = false) : d.creations p ts = [] := by
  rw [creations, List.filter_eq_nil_iff.2 fun t ht => by simp [h t ht]]
  rfl

/-! ## Additions -/

namespace Run

/-- Between two runs of an instance tokens are parked with new identifiers, entries are made and
tasks are noted, in order; the variables stay the same. -/
structure Adds (d : Definition) (issued : Nat) (run : Run) (issued' : Nat) (run' : Run)
    (parked : List Token) (entries : List HistoryEntry) : Prop where
  id : run'.current.id = run.current.id
  vars : run'.current.vars = run.current.vars
  endedAt : run'.current.endedAt = run.current.endedAt
  le : issued ≤ issued'
  tokens : run'.current.tokens = run.current.tokens ++ parked
  fresh : ∀ t ∈ parked, issued < t.id.value ∧ t.id.value ≤ issued'
  history : run'.current.history = run.current.history ++ entries
  events : run'.events = run.events ++ d.creations run.current.id parked
  completions : ∃ notes, run'.completions = run.completions ++ notes ∧
    AllNoted d run.current.id run.current.vars entries notes

namespace Adds

variable {d : Definition} {run run' run'' : Run} {issued issued' issued'' : Nat}
  {ts ts' : List Token} {es es' : List HistoryEntry}

lemma refl (d : Definition) (issued : Nat) (run : Run) : Adds d issued run issued run [] [] where
  id := rfl
  vars := rfl
  endedAt := rfl
  le := Nat.le_refl _
  tokens := by simp
  fresh := nofun
  history := by simp
  events := (List.append_nil _).symm
  completions := ⟨[], by simp, .none nofun⟩

lemma trans (h : Adds d issued run issued' run' ts es)
    (h' : Adds d issued' run' issued'' run'' ts' es') :
    Adds d issued run issued'' run'' (ts ++ ts') (es ++ es') where
  id := h'.id.trans h.id
  vars := h'.vars.trans h.vars
  endedAt := h'.endedAt.trans h.endedAt
  le := Nat.le_trans h.le h'.le
  tokens := by rw [h'.tokens, h.tokens, List.append_assoc]
  fresh t ht := by
    have hle := h.le
    have hle' := h'.le
    rcases List.mem_append.1 ht with ht | ht
    · have := h.fresh t ht
      omega
    · have := h'.fresh t ht
      omega
  history := by rw [h'.history, h.history, List.append_assoc]
  events := by
    rw [h'.events, h.events, h.id, List.append_assoc, Definition.creations_append]
  completions := by
    obtain ⟨notes, hnotes, hall⟩ := h.completions
    obtain ⟨notes', hnotes', hall'⟩ := h'.completions
    rw [h.id, h.vars] at hall'
    exact ⟨notes ++ notes', by rw [hnotes', hnotes, List.append_assoc], hall.append hall'⟩

/-- Identifiers may be issued for other things. -/
lemma mono (h : Adds d issued run issued' run' ts es) (hle : issued' ≤ issued'') :
    Adds d issued run issued'' run' ts es where
  id := h.id
  vars := h.vars
  endedAt := h.endedAt
  le := Nat.le_trans h.le hle
  tokens := h.tokens
  fresh t ht := ⟨(h.fresh t ht).1, Nat.le_trans (h.fresh t ht).2 hle⟩
  history := h.history
  events := h.events
  completions := h.completions

/-- An entry is made that does not complete a task. -/
lemma recorded (d : Definition) (issued : Nat) (run : Run) (element : String) (kind : ElementKind)
    (status : HistoryStatus) (h : status ≠ .completed ∨ kind = .gateway) (execution : String)
    (now : Instant) :
    ∃ entry, Adds d issued run issued (run.recorded element kind status execution now) []
      [entry] := by
  refine ⟨_, rfl, rfl, rfl, Nat.le_refl _, (List.append_nil _).symm, nofun, rfl,
    (List.append_nil _).symm, [], (List.append_nil _).symm, .none fun entry hentry => ?_⟩
  rw [List.mem_singleton.1 hentry, HistoryEntry.isCompletedTask]
  rcases h with h | rfl
  · simp [h]
  · simp

/-- An element is completed; if it is a task, that is noted. -/
lemma completed (issued : Nat) (run : Run) {e : Element} (he : d.element? e.id = some e)
    (execution : String) (now : Instant) :
    ∃ entry, Adds d issued run issued (run.completed e execution now) [] [entry] := by
  have hcurrent := run.current_completed e execution now
  obtain ⟨entry, hentry⟩ : ∃ entry : HistoryEntry, entry = ⟨e.id, e.kind, .completed,
    run.current.entryTime now, run.current.entryTime now, some execution⟩ := ⟨_, rfl⟩
  have hhistory : (run.completed e execution now).current.history =
      run.current.history ++ [entry] := by
    rw [hcurrent, hentry]
    rfl
  have htask : entry.isCompletedTask = compensable e.kind := by
    rw [hentry, HistoryEntry.isCompletedTask]
    cases e <;> rfl
  refine ⟨entry, ?_, ?_, ?_, Nat.le_refl _, ?_, nofun, hhistory, ?_, ?_⟩
  · rw [hcurrent]; rfl
  · rw [hcurrent]; rfl
  · rw [hcurrent]; rfl
  · rw [hcurrent]; exact (List.append_nil _).symm
  · rw [Run.completed]
    split <;> exact (List.append_nil _).symm
  · by_cases hkind : compensable e.kind = true
    · refine ⟨[completionOf (run.recorded e.id e.kind .completed execution now).current e
        execution], ?_, ?_⟩
      · rw [Run.completed, if_pos hkind]
        rfl
      · rw [AllNoted, List.filter_cons_of_pos (htask.trans hkind), hentry]
        exact .cons ⟨rfl, rfl, rfl, rfl, ⟨e, he, rfl, rfl⟩, rfl⟩ .nil
    · refine ⟨[], ?_, .none fun other hother => ?_⟩
      · rw [Run.completed, if_neg hkind]
        exact (List.append_nil _).symm
      · rw [List.mem_singleton.1 hother, htask]
        exact Bool.eq_false_iff.2 hkind

/-- A token is parked that does not wait for a user task. -/
lemma parked (d : Definition) (issued : Nat) (run : Run) (element : String) (wait : Wait)
    (h : wait ≠ .userTask) (frames : List Frame) :
    ∃ t, Adds d issued run (issued + 1) (run.parked ⟨⟨issued + 1⟩, element, wait, false, frames⟩)
      [t] [] := by
  refine ⟨_, rfl, rfl, rfl, Nat.le_succ _, rfl, fun t ht => ?_, (List.append_nil _).symm, ?_,
    [], (List.append_nil _).symm, .none nofun⟩
  · rw [List.mem_singleton.1 ht]
    exact ⟨Nat.lt_succ_self _, Nat.le_refl _⟩
  · rw [Definition.creations_eq_nil d _ fun t ht => ?_]
    · exact (List.append_nil _).symm
    · rw [List.mem_singleton.1 ht, Token.isTask]
      simpa using h

/-- A token is parked at a user task. -/
lemma task (issued : Nat) (run : Run) {task : Node}
    (he : d.element? task.id = some (.userTask task)) (frames : List Frame) :
    ∃ t, Adds d issued run (issued + 1)
      ((run.emit (.taskCreated run.current.id task.id task.name)).parked
        ⟨⟨issued + 1⟩, task.id, .userTask, false, frames⟩) [t] [] := by
  refine ⟨_, rfl, rfl, rfl, Nat.le_succ _, rfl, fun t ht => ?_, (List.append_nil _).symm, ?_,
    [], (List.append_nil _).symm, .none nofun⟩
  · rw [List.mem_singleton.1 ht]
    exact ⟨Nat.lt_succ_self _, Nat.le_refl _⟩
  · have hcreated : d.created run.current.id ⟨⟨issued + 1⟩, task.id, .userTask, false, frames⟩ =
        .taskCreated run.current.id task.id task.name := by
      rw [Definition.created, he]
      rfl
    rw [Definition.creations, List.filter_cons_of_pos (by rfl), List.filter_nil, List.map_singleton,
      hcreated]
    rfl

end Adds

end Run

/-! ## Visits and walks -/

/-- A gateway hands out identifiers, if anything. -/
lemma Request.Effect.issued {r : Request} {p : String} {issued issued' : Nat}
    {states states' : List GatewayState} {decision : Decision}
    (h : r.Effect p issued states decision issued' states') : issued ≤ issued' := by
  cases h <;> omega

/-- What a visit adds. -/
theorem Visited.adds {d : Definition} {s t : Stage} (h : Visited d s t) :
    ∃ ts es, Run.Adds d s.issued s.run t.issued t.run ts es := by
  cases h with
  | @complete c rest run issued states e now he hkind =>
    obtain ⟨entry, hentry⟩ := Run.Adds.completed issued run (Definition.element?_self he)
      (Uid.mk (issued + 1)).text now
    exact ⟨_, _, hentry.mono (Nat.le_succ issued)⟩
  | @userTask c rest run issued states task he =>
    obtain ⟨t, ht⟩ := Run.Adds.task issued run (Definition.element?_self he) c.frames
    exact ⟨_, _, ht⟩
  | @subProcess c rest run issued states sub he =>
    obtain ⟨t, ht⟩ := Run.Adds.parked d issued run sub.id .subProcess nofun c.frames
    exact ⟨_, _, ht⟩
  | @goOn c rest run issued issued' states states' g decision now he heff hgo =>
    obtain ⟨entry, hentry⟩ := Run.Adds.recorded d issued run g.id .gateway .completed (.inr rfl)
      (Uid.mk (issued + 1)).text now
    exact ⟨_, _, hentry.mono (Nat.le_of_succ_le heff.issued)⟩
  | @absorbed c rest run issued issued' states states' g decision now he heff hwait hjoin =>
    obtain ⟨entry, hentry⟩ := Run.Adds.recorded d issued run g.id .gateway .completed (.inr rfl)
      (Uid.mk (issued + 1)).text now
    exact ⟨_, _, hentry.mono (Nat.le_of_succ_le heff.issued)⟩
  | @offered c rest run issued issued' states states' g decision now he heff hwait hjoin =>
    obtain ⟨entry, hentry⟩ := Run.Adds.recorded d issued run g.id .gateway .completed (.inr rfl)
      (Uid.mk (issued + 1)).text now
    obtain ⟨t, ht⟩ := Run.Adds.parked d issued'
      (run.recorded g.id .gateway .completed (Uid.mk (issued + 1)).text now) g.id
      (.eventGateway decision.next) nofun c.frames
    exact ⟨_, _, (hentry.mono (Nat.le_of_succ_le heff.issued)).trans ht⟩

/-- What a walk adds. -/
theorem Run.Walks.adds {d : Definition} {pending pending' : List Cursor} {run run' : Run}
    {w w' : Workspace} (h : Run.Walks d pending run w pending' run' w') (hw : w.Sound)
    (hk : (run.stage pending w).Kept d) :
    ∃ ts es, run.Adds d w.supply.issued w'.supply.issued run' ts es := by
  refine h.of_visited (R := fun s t => ∃ ts es, Run.Adds d s.issued s.run t.issued t.run ts es)
    (fun s => ⟨_, _, .refl d _ s.run⟩) ?_ (fun _ hvisited => hvisited.adds) hw hk
  rintro s t u ⟨ts, es, hfirst⟩ ⟨ts', es', hrest⟩
  exact ⟨_, _, hfirst.trans hrest⟩

/-! ## The rest of a call -/

/-- Completing a task adds an entry behind what is left when its token is taken. -/
lemma Engine.adds_taken (issued : Nat) (run : Run) {d : Definition} {task : String}
    {element : Element} (he : d.element? task = some element) (token : Token) (now : Instant) :
    ∃ entry, Run.Adds d issued
      { run with
        current := { run.current with tokens := run.current.tokens.eraseP (·.accepts task) } }
      issued (taken run task token element now) [] [entry] :=
  Run.Adds.completed issued _ (Definition.element?_self he) token.id.text now

namespace Run

/-- Entries for tokens that are suspended or cancelled are not noted. -/
lemma recordTokens_adds (d : Definition) {status : HistoryStatus} (h : status ≠ .completed)
    (ts : List Token) {run run' : Run} {w w' : Workspace}
    (hrecord : run.recordTokens d status ts w = .ok run' w') :
    ∃ es, Adds d w.supply.issued run w'.supply.issued run' [] es := by
  induction ts generalizing run w with
  | nil =>
    cases hrecord
    exact ⟨[], .refl d _ _⟩
  | cons t rest ih =>
    rw [recordTokens, Action.bind_of_ok (record_apply run w _ _ status _)] at hrecord
    obtain ⟨entry, hentry⟩ := Adds.recorded d w.supply.issued run t.elementId
      (((d.element? t.elementId).map Element.kind).getD .userTask) status (.inl h) t.id.text
      w.supply.now.1
    obtain ⟨es, hes⟩ := ih hrecord
    exact ⟨_, hentry.trans hes⟩

end Run

/-- The event that reports that an instance has ended. -/
def Instance.ending (i : Instance) : List Event := if i.isEnded then [.processEnd i.id] else []

lemma Instance.ending_of_live {i : Instance} (h : i.isEnded = false) : i.ending = [] :=
  if_neg (ne_true_of_eq_false h)

namespace Run

/-- What is left to do when no token is in flight: events are put off, and the state and the end of
the instance may be set. -/
structure Concludes (run : Run) (told : List Event) (run' : Run) : Prop where
  id : run'.current.id = run.current.id
  vars : run'.current.vars = run.current.vars
  tokens : run'.current.tokens = run.current.tokens
  history : run'.current.history = run.current.history
  completions : run'.completions = run.completions
  events : run'.events = run.events ++ told

lemma Concludes.refl (run : Run) : run.Concludes [] run :=
  ⟨rfl, rfl, rfl, rfl, rfl, (List.append_nil _).symm⟩

/-- An event may be put off first. -/
lemma Concludes.of_emit {run run' : Run} {event : Event} {told : List Event}
    (h : (run.emit event).Concludes told run') : run.Concludes (event :: told) run' where
  id := h.id
  vars := h.vars
  tokens := h.tokens
  history := h.history
  completions := h.completions
  events := by
    rw [h.events, emit, List.append_assoc]
    rfl

/-- If the instance ends, that is reported last. -/
lemma finish_concludes {run run' : Run} {w w' : Workspace} (hlive : run.current.isEnded = false)
    (h : run.finish w = .ok run' w') :
    run.Concludes run'.current.ending run' ∧ w'.supply.issued = w.supply.issued := by
  rw [finish] at h
  split_ifs at h
  · rw [close, if_neg (by simp [hlive])] at h
    cases h
    exact ⟨⟨rfl, rfl, rfl, rfl, rfl, rfl⟩, rfl⟩
  · cases h
    refine ⟨⟨rfl, rfl, rfl, rfl, rfl, ?_⟩, rfl⟩
    rw [Instance.ending_of_live hlive, List.append_nil]

end Run

end ProcessEngine

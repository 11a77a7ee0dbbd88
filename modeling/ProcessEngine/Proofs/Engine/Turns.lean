import ProcessEngine.Proofs.Engine.Lasting

/-!
# Turns

A call works on an instance by turns: it takes a token to complete a task, or a token in flight comes
to an element (`Turn`).  A turn makes one entry in the history at most, for the element that is
completed.  Every element that the history of a registered instance shows as completed was completed
at such a turn, which came upon the history as it was before (`Engine.traced_registered`), so what is
proved of turns holds of every completion.
-/

namespace ProcessEngine

variable {d : Definition} {run run' : Run} {w w' : Workspace} {pending pending' : List Cursor}

/-! ## Stages -/

lemma Run.Walks.trans {run'' : Run} {w'' : Workspace} {pending'' : List Cursor}
    (h : Run.Walks d pending run w pending' run' w')
    (h' : Run.Walks d pending' run' w' pending'' run'' w'') :
    Run.Walks d pending run w pending'' run'' w'' := by
  induction h with
  | refl => exact h'
  | visit hvisit _ ih => exact .visit hvisit (ih h')

/-- A walk from a stage comes to a stage. -/
lemma Reaches.walks (h : Reaches d pending run w)
    (hwalk : Run.Walks d pending run w pending' run' w') : Reaches d pending' run' w' := by
  cases h with
  | idle h hregistered hlive =>
    cases hwalk
    exact .idle h hregistered hlive
  | start h hstart hopening hbefore => exact .start h hstart hopening (hbefore.trans hwalk)
  | proceed h hregistered hlive htask hbefore =>
    exact .proceed h hregistered hlive htask (hbefore.trans hwalk)

/-! ## Turns -/

/-- The run of a call that goes on from a task, before the task is completed. -/
def Engine.continuing (r : Registered) (id task : String) (updates : Variables) : Run :=
  (Run.on (r.current.mergeVariables updates)).emit (.processContinue id (some task))

/-- A turn of a call on an instance of the definition: a token in flight comes to its element, or a
token is taken to complete a task.  A turn makes one run of another and sends tokens on. -/
inductive Turn (d : Definition) : Option String → Run → List Cursor → Run → Prop
  | visit {c : Cursor} {rest next : List Cursor} {run run' : Run} {w w' : Workspace}
      (h : Reaches d (c :: rest) run w) (hvisit : run.visit d c w = .ok (next, run') w') :
      Turn d none run next run'
  | take {e : Engine} {id task : String} {updates : Variables} {r : Registered} {token : Token}
      {run' : Run} {w' : Workspace} (h : e.Reachable) (hregistered : e.registered? id = some r)
      (hlive : r.current.isEnded = false) (hd : r.definition = d)
      (htask : Engine.completeTask (Engine.continuing r id task updates) d task e.workspace =
        .ok (token, run') w') :
      Turn d (some task) (Engine.continuing r id task updates) (d.leave task token.frames) run'

/-- The tokens that a turn sends on are in flight after it. -/
lemma Turn.reaches {task : Option String} {next : List Cursor} (h : Turn d task run next run') :
    ∃ rest w', Reaches d (next ++ rest) run' w' := by
  cases h with
  | visit h hvisit => exact ⟨_, _, h.walks (.visit hvisit (.refl _ _ _))⟩
  | take h hregistered hlive hd htask =>
    subst hd
    exact ⟨[], _, .proceed h hregistered hlive htask (by rw [List.append_nil]; exact .refl _ _ _)⟩

/-- What a turn enters in a history: nothing, or one entry for an element that is completed. -/
inductive Enters (element : String) (history : List HistoryEntry) : List HistoryEntry → Prop
  | nothing : Enters element history history
  | entry {entry : HistoryEntry} (helement : entry.elementId = element)
      (hstatus : entry.status = .completed) : Enters element history (history ++ [entry])

/-- A visit makes no entry but for the element that the token comes to. -/
lemma Visited.enters {s t : Stage} {c : Cursor} {rest : List Cursor} (hs : s.pending = c :: rest)
    (h : Visited d s t) : Enters c.elementId s.run.current.history t.run.current.history := by
  cases h with
  | complete now he =>
    cases hs
    rw [Run.current_completed]
    exact .entry (Definition.element?_id he) rfl
  | userTask => exact .nothing
  | subProcess => exact .nothing
  | goOn now he | absorbed now he | offered now he =>
    cases hs
    exact .entry (Definition.element?_id he) rfl

lemma Run.visit_enters {c : Cursor} {rest next : List Cursor} (h : Reaches d (c :: rest) run w)
    (hvisit : run.visit d c w = .ok (next, run') w') :
    run'.current.id = run.current.id ∧
      Enters c.elementId run.current.history run'.current.history := by
  obtain ⟨hw, hk⟩ := h.kept
  have hvisited : Visited d (run.stage (c :: rest) w) (run'.stage (next ++ rest) w') :=
    Run.visited_of_visit hw (hk.pending c List.mem_cons_self) hvisit
  exact ⟨hvisited.id_current, hvisited.enters rfl⟩

/-- Completing a task makes an entry for it. -/
lemma Engine.completeTask_entry {task : String} {token : Token}
    (h : Engine.completeTask run d task w = .ok (token, run') w') :
    run'.current.id = run.current.id ∧ ∃ entry, entry.elementId = task ∧
      entry.status = .completed ∧ run'.current.history = run.current.history ++ [entry] := by
  obtain ⟨-, element, helement, rfl, -⟩ := Engine.completeTask_ok h
  rw [Engine.taken, Run.current_completed]
  exact ⟨rfl, _, Definition.element?_id helement, rfl, rfl⟩

lemma Engine.completeTask_enters {task : String} {token : Token}
    (h : Engine.completeTask run d task w = .ok (token, run') w') :
    run'.current.id = run.current.id ∧ Enters task run.current.history run'.current.history := by
  obtain ⟨hid, entry, helement, hstatus, hhistory⟩ := Engine.completeTask_entry h
  rw [hhistory]
  exact ⟨hid, .entry helement hstatus⟩

/-! ## Where completions come from -/

/-- The entry that follows some of the history of an instance was made at a turn that came upon just
that part of the history. -/
def EnteredAt (d : Definition) (id : String) (before : List HistoryEntry) (entry : HistoryEntry) :
    Prop :=
  ∃ task run next run', Turn d task run next run' ∧ run.current.id = id ∧
    run.current.history = before ∧ run'.current.history = before ++ [entry]

/-- Every completion in the history of the instance was entered at a turn. -/
def Instance.Traced (d : Definition) (i : Instance) : Prop :=
  ∀ before entry after, i.history = before ++ entry :: after → entry.status = .completed →
    EnteredAt d i.id before entry

namespace Instance.Traced

variable {i j : Instance}

lemma fresh (hh : i.history = []) : i.Traced d := by
  intro before entry after hsplit
  rw [hh] at hsplit
  simp at hsplit

/-- The history goes on with entries of which the completions were entered at turns. -/
lemma append (h : i.Traced d) (hid : j.id = i.id) {entries : List HistoryEntry}
    (hhistory : j.history = i.history ++ entries)
    (hentries : ∀ before entry after, entries = before ++ entry :: after →
      entry.status = .completed → EnteredAt d i.id (i.history ++ before) entry) : j.Traced d := by
  intro before entry after hsplit hcompleted
  rw [hid]
  rcases List.append_eq_append_iff.1 (hhistory.symm.trans hsplit) with
    ⟨more, rfl, hlater⟩ | ⟨more, hearlier, hlater⟩
  · exact hentries more entry after hlater hcompleted
  · cases more with
    | nil =>
      rw [List.append_nil] at hearlier
      rw [← hearlier, ← List.append_nil i.history]
      exact hentries [] entry after hlater.symm hcompleted
    | cons first rest =>
      obtain ⟨rfl, -⟩ := List.cons.inj hlater
      exact h before entry rest hearlier hcompleted

/-- A turn enters what it completes. -/
lemma turn (h : run.current.Traced d) {task : Option String} {next : List Cursor}
    (hturn : Turn d task run next run') {x : String} (hid : run'.current.id = run.current.id)
    (henters : Enters x run.current.history run'.current.history) : run'.current.Traced d := by
  generalize hafter : run'.current.history = history at henters
  cases henters with
  | nothing =>
    have hsame : run'.current.history = run.current.history ++ [] := by rw [hafter, List.append_nil]
    exact h.append hid hsame (by simp)
  | @entry made =>
    refine h.append hid hafter fun before entry after hsplit _ => ?_
    obtain ⟨rfl, rfl, rfl⟩ : before = [] ∧ entry = made ∧ after = [] := by
      cases before with
      | nil => simpa [eq_comm] using hsplit
      | cons => simp at hsplit
    exact ⟨task, run, next, run', hturn, rfl, (List.append_nil _).symm, by
      rw [hafter, List.append_nil]⟩

/-- Nothing is completed while no token moves. -/
lemma unmoved (h : i.Traced d) (hunmoved : i.Unmoved j) : j.Traced d := by
  obtain ⟨entries, hhistory, -⟩ := hunmoved.history
  refine h.append hunmoved.id hhistory fun before entry after hsplit hcompleted => ?_
  have hcount := hunmoved.completions entry.elementId
  rw [Instance.completions, hhistory, List.countP_append, Instance.completions] at hcount
  have hnone : entries.countP (fun o => o.elementId == entry.elementId && o.status == .completed) =
    0 := by omega
  have hmem : entry ∈ entries := by rw [hsplit]; simp
  exact absurd (List.countP_eq_zero.1 hnone entry hmem) (by simp [hcompleted])

end Instance.Traced

/-- A walk enters what it completes. -/
lemma Run.Walks.traced (hwalk : Run.Walks d pending run w pending' run' w')
    (h : Reaches d pending run w) (htraced : run.current.Traced d) : run'.current.Traced d := by
  induction hwalk with
  | refl => exact htraced
  | visit hvisit _ ih =>
    obtain ⟨hid, henters⟩ := Run.visit_enters h hvisit
    exact ih (h.walks (.visit hvisit (.refl _ _ _))) (htraced.turn (.visit h hvisit) hid henters)

namespace Engine

variable {e e₁ : Engine} {c : Call}

/-- What holds of the instances that calls are about to commit, if it holds of the registered ones
before, holds of all registered instances. -/
theorem registered_induction {P : Definition → Instance → Prop}
    (hpending : ∀ {e e₁ : Engine} {c : Call} {d : Definition} {run : Run}, e.Reachable →
      (∀ id r, e.registered? id = some r → P r.definition r.current) →
      e.pending c = some (d, run, e₁) → P d run.current) (h : e.Reachable) :
    ∀ id r, e.registered? id = some r → P r.definition r.current := by
  induction h with
  | new config clock =>
    intro id r hr
    cases hr
  | @call e h c ih =>
    have houtcome := call_outcome h.sound c
    generalize e.call c = result at houtcome
    intro id r hr
    cases houtcome with
    | failed => exact ih id r hr
    | @committed _ d run w es hp =>
      rw [Lasting.registered?_commit] at hr
      split_ifs at hr
      · obtain rfl := Option.some.inj hr
        exact hpending h ih hp
      · exact ih id r hr
    | terminated =>
      rw [registered?, registry_settle, ← registered?, registered?_unregister] at hr
      split_ifs at hr
      exact ih id r hr
  | withCoordinator h c ih => exact ih
  | withBus h b ih => exact ih

/-- What a call is about to commit is traced. -/
lemma traced_pending (h : e.Reachable)
    (hbefore : ∀ id r, e.registered? id = some r → r.current.Traced r.definition)
    (hpending : e.pending c = some (d, run, e₁)) : run.current.Traced d := by
  cases c with
  | start d' businessKey vars =>
    obtain ⟨first, rest, run₀, supply, hstart, -, hopening, hok⟩ :=
      Lasting.ok_of_pendingStart hpending
    obtain ⟨-, hhistory, -, -⟩ := opening_spec h.sound hopening
    rw [firstWalk, Action.bind_eq_ok] at hok
    obtain ⟨run₁, w₁, hwalk, hfinish⟩ := hok
    have htraced : run₁.current.Traced d := (Run.walks_of_traverse hwalk).traced
      (.start h hstart hopening (.refl _ _ _)) (.fresh hhistory)
    exact htraced.unmoved (Run.finish_ok hfinish).1
  | proceed id task updates =>
    obtain ⟨r, hr, hlive, rfl, hok⟩ := Lasting.ok_of_pendingOnLive hpending
    have hmerged := (hbefore id r hr).unmoved (.mergeVariables _ (updates.getD []))
    cases task with
    | none =>
      generalize e₁.workspace = w at hok
      cases hok
      exact hmerged
    | some task =>
      obtain ⟨token, run₁, w₁, run₂, w₂, htask, hwalks, hfinish⟩ := continueFrom_ok hok
      obtain ⟨hid, henters⟩ := completeTask_enters htask
      have htaken : run₁.current.Traced r.definition :=
        hmerged.turn (.take h hr hlive rfl htask) hid henters
      have htraced : run₂.current.Traced r.definition :=
        hwalks.traced (.proceed h hr hlive htask (.refl _ _ _)) htaken
      exact htraced.unmoved (Run.finish_ok hfinish).1
  | suspend id element =>
    obtain ⟨r, hr, -, rfl, hok⟩ := Lasting.ok_of_pendingOnLive hpending
    exact (hbefore id r hr).unmoved (suspendRun_ok hok).1
  | resume id element =>
    obtain ⟨r, hr, -, rfl, hok⟩ := Lasting.ok_of_pendingOnLive hpending
    exact (hbefore id r hr).unmoved (resumeRun_ok hok).1
  | terminate id reason => cases hpending

/-- Every completion in the history of a registered instance was entered at a turn. -/
theorem traced_registered (h : e.Reachable) {id : String} {r : Registered}
    (hr : e.registered? id = some r) : r.current.Traced r.definition :=
  registered_induction (P := fun d i => i.Traced d) traced_pending h id r hr

end Engine

end ProcessEngine

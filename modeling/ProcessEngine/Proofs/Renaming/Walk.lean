import ProcessEngine.Proofs.Engine.Walk
import ProcessEngine.Proofs.Renaming.Concurrence

/-!
# Walks that go on alike

What is seen of tokens, instances and runs.  Times are left out, and so are the identifiers of
tokens and executions, which nothing reads.  A visit looks only at what is seen, so walks that look
the same go on alike (`traverse_concurs`).
-/

namespace ProcessEngine

open Compensation (Completion)

/-! ## What is seen of an instance and of a run -/

/-- A parked token as it is seen. -/
def Token.seen (κ : Renaming) (t : Token) : Token :=
  { t with id := ⟨0⟩, frames := t.frames.map (Frame.seen κ) }

/-- An entry of a history as it is seen. -/
def HistoryEntry.seen (h : HistoryEntry) : HistoryEntry :=
  { h with startTime := .ofSeconds 0, endTime := .ofSeconds 0, executionId := none }

/-- An instance as it is seen. -/
def Instance.seen (κ : Renaming) (i : Instance) : Instance :=
  { i with
    id := κ.names i.id
    history := i.history.map HistoryEntry.seen
    tokens := i.tokens.map (Token.seen κ)
    createdAt := .ofSeconds 0
    endedAt := i.endedAt.map fun _ => .ofSeconds 0 }

@[simp] lemma Instance.isEnded_seen (κ : Renaming) (i : Instance) :
    (i.seen κ).isEnded = i.isEnded := by
  rw [isEnded, isEnded, seen, Option.isSome_map]

/-- A completed activity as it is seen. -/
def Compensation.Completion.seen (κ : Renaming) (c : Completion) : Completion :=
  { c with instanceId := κ.names c.instanceId, executionId := "" }

namespace Run

variable (κ : Renaming)

/-- A run as it is seen. -/
def seen (run : Run) : Run :=
  { current := run.current.seen κ
    events := run.events.map (Event.seen κ)
    completions := run.completions.map (Completion.seen κ) }

/-- The run after an entry of which only the time and the execution are left out. -/
def noted (run : Run) (element : String) (kind : ElementKind) (status : HistoryStatus) : Run :=
  { run with
    current := { run.current with
      history := run.current.history ++
        [⟨element, kind, status, .ofSeconds 0, .ofSeconds 0, none⟩] } }

/-- The run after an element is completed, but for the time and the execution. -/
def passed (run : Run) (e : Element) : Run :=
  if compensable e.kind then
    { run.noted e.id e.kind .completed with
      completions := run.completions ++ [completionOf run.current e ""] }
  else run.noted e.id e.kind .completed

lemma seen_recorded (run : Run) (element : String) (kind : ElementKind) (status : HistoryStatus)
    (execution : String) (now : Instant) :
    (run.recorded element kind status execution now).seen κ =
      (run.seen κ).noted element kind status := by
  simp [recorded, seen, noted, Instance.record, Instance.seen, HistoryEntry.seen]

lemma seen_completed (run : Run) (e : Element) (execution : String) (now : Instant) :
    (run.completed e execution now).seen κ = (run.seen κ).passed e := by
  have hrecorded := run.seen_recorded κ e.id e.kind .completed execution now
  rw [completed, passed, ← hrecorded]
  simp only
  split_ifs
  · simp [seen, Completion.seen, completionOf, recorded, Instance.record, Instance.seen]
  · rfl

lemma seen_parked (run : Run) (t : Token) :
    (run.parked t).seen κ = (run.seen κ).parked (t.seen κ) := by
  simp [parked, seen, Instance.seen]

lemma seen_emit (run : Run) (e : Event) :
    (run.emit e).seen κ = (run.seen κ).emit (e.seen κ) := by
  simp [emit, seen]

variable {κ} {run run' : Run}

lemma names_of_seen (h : run.seen κ = run'.seen .same) :
    κ.names run.current.id = run'.current.id :=
  congrArg (fun run : Run => run.current.id) h

lemma vars_of_seen (h : run.seen κ = run'.seen .same) : run.current.vars = run'.current.vars := by
  have hvars := congrArg (fun run : Run => run.current.vars) h
  exact hvars

lemma isEnded_of_seen (h : run.seen κ = run'.seen .same) :
    run.current.isEnded = run'.current.isEnded := by
  have hended := congrArg (fun run : Run => run.current.isEnded) h
  simpa only [seen, Instance.isEnded_seen] using hended

lemma tokens_of_seen (h : run.seen κ = run'.seen .same) :
    run.current.tokens.map (Token.seen κ) = run'.current.tokens.map (Token.seen .same) :=
  congrArg (fun run : Run => run.current.tokens) h

/-! ## Visits -/

variable {w w' : Workspace} {d : Definition} {c c' : Cursor}

/-- Runs and tokens in flight that look the same after a visit. -/
def SameVisit (κ : Renaming) (x x' : List Cursor × Run) : Prop :=
  x.1.map (Cursor.seen κ) = x'.1.map (Cursor.seen .same) ∧ x.2.seen κ = x'.2.seen .same

lemma freshUid_concurs (h : w.Alike κ w') :
    Outcomes κ (fun u u' => κ.uid u = u') w w' (Action.freshUid w) (Action.freshUid w') := by
  rw [Action.freshUid_apply, Action.freshUid_apply]
  refine .of_supply (n := 1) h ?_ rfl rfl
  exact h.fresh 0

lemma record_concurs (h : w.Alike κ w') (hrun : run.seen κ = run'.seen .same) (element : String)
    (kind : ElementKind) (status : HistoryStatus) (execution execution' : String) :
    Outcomes κ (fun run run' => run.seen κ = run'.seen .same) w w'
      (run.record element kind status execution w)
      (run'.record element kind status execution' w') := by
  rw [record_apply, record_apply]
  exact .of_supply (n := 0) h (by rw [seen_recorded, seen_recorded, hrun]) rfl rfl

lemma complete_concurs (h : w.Alike κ w') (hrun : run.seen κ = run'.seen .same) (e : Element)
    (execution execution' : String) :
    Outcomes κ (fun run run' => run.seen κ = run'.seen .same) w w' (run.complete e execution w)
      (run'.complete e execution' w') := by
  rw [complete_apply, complete_apply]
  exact .of_supply (n := 0) h (by rw [seen_completed, seen_completed, hrun]) rfl rfl

lemma park_concurs (h : w.Alike κ w') (hrun : run.seen κ = run'.seen .same) (element : String)
    (wait : Wait) {frames frames' : List Frame}
    (hframes : frames.map (Frame.seen κ) = frames'.map (Frame.seen .same)) :
    Outcomes κ (fun run run' => run.seen κ = run'.seen .same) w w'
      (run.park element wait frames w) (run'.park element wait frames' w') := by
  rw [park_apply, park_apply]
  refine .of_supply (n := 1) h ?_ rfl rfl
  rw [seen_parked, seen_parked, hrun, Token.seen, Token.seen, hframes]

lemma visitGateway_concurs (hw : w.Sound) (hw' : w'.Sound) (h : w.Alike κ w')
    (hrun : run.seen κ = run'.seen .same) {frames frames' : List Frame}
    (hframes : frames.map (Frame.seen κ) = frames'.map (Frame.seen .same))
    (hf : ∀ f ∈ frames, f.Sound (w.store.states run.current.id))
    (hf' : ∀ f ∈ frames', f.Sound (w'.store.states run'.current.id)) (g : Gateway) :
    Outcomes κ (SameVisit κ) w w' (run.visitGateway d g frames w)
      (run'.visitGateway d g frames' w') := by
  have hid := names_of_seen hrun
  refine (freshUid_concurs h).bind fun u u' v v' hu hu' _ halike => ?_
  cases hu
  cases hu'
  have hrequest : (run.request d g w.supply.uid.1 frames).seen κ =
      (run'.request d g w'.supply.uid.1 frames').seen .same := by
    simp only [request, Request.seen, hframes, vars_of_seen hrun, Option.map_some, hid]
    rfl
  rw [← hid] at hf'
  have hsound : Workspace.Sound { w with supply := w.supply.uid.2 } := hw.congr rfl (Nat.le_succ _)
  have hsound' : Workspace.Sound { w' with supply := w'.supply.uid.2 } :=
    hw'.congr rfl (Nat.le_succ _)
  refine (Request.activate_concurs hsound hsound' halike rfl hrequest hf hf').bind
    fun decision decision' v v' _ _ hdecision halike => ?_
  obtain ⟨hnext, hwait, -, hjoin, -⟩ := Decision.mk.inj hdecision
  refine (record_concurs halike hrun g.id .gateway .completed _ _).bind
    fun recorded recorded' v v' _ _ hrecorded halike => ?_
  rw [hwait, hjoin, hnext]
  split_ifs
  · refine .pure halike ⟨?_, hrecorded⟩
    rw [← Decision.cursors_seen, ← Decision.cursors_seen, hframes, hdecision]
  · exact .pure halike ⟨rfl, hrecorded⟩
  · exact (park_concurs halike hrecorded g.id _ hframes).bind fun parked parked' v v' _ _ hparked
      halike => .pure halike ⟨rfl, hparked⟩

/-- Tokens that look the same leave an element alike. -/
lemma map_seen_leave (d : Definition) (element : String) {frames frames' : List Frame}
    (h : frames.map (Frame.seen κ) = frames'.map (Frame.seen .same)) :
    (d.leave element frames).map (Cursor.seen κ) =
      (d.leave element frames').map (Cursor.seen .same) := by
  rw [Definition.leave, Definition.leave, List.map_map, List.map_map]
  refine List.map_congr_left fun f _ => ?_
  rw [Function.comp_apply, Function.comp_apply, Cursor.seen, Cursor.seen, h]

/-- Visits that look the same go on alike. -/
lemma visit_concurs (hw : w.Sound) (hw' : w'.Sound) (h : w.Alike κ w')
    (hrun : run.seen κ = run'.seen .same) (hc : c.seen κ = c'.seen .same)
    (hf : ∀ f ∈ c.frames, f.Sound (w.store.states run.current.id))
    (hf' : ∀ f ∈ c'.frames, f.Sound (w'.store.states run'.current.id)) :
    Outcomes κ (SameVisit κ) w w' (run.visit d c w) (run'.visit d c' w') := by
  obtain ⟨helement, hframes⟩ := Cursor.mk.inj hc
  have hleave : (d.leave c.elementId c.frames).map (Cursor.seen κ) =
      (d.leave c'.elementId c'.frames).map (Cursor.seen .same) := by
    rw [helement]
    exact map_seen_leave d c'.elementId hframes
  have hpass : ∀ e : Element, Outcomes κ (SameVisit κ) w w'
      ((do
        let execution ← Action.freshUid
        let run ← run.complete e execution.text
        return (d.leave c.elementId c.frames, run) : Action (List Cursor × Run)) w)
      ((do
        let execution ← Action.freshUid
        let run ← run'.complete e execution.text
        return (d.leave c'.elementId c'.frames, run) : Action (List Cursor × Run)) w') := by
    intro e
    refine (freshUid_concurs h).bind fun u u' v v' _ _ _ halike => ?_
    exact (complete_concurs halike hrun e _ _).bind fun done done' v v' _ _ hdone halike =>
      .pure halike ⟨hleave, hdone⟩
  rw [visit, visit, ← helement]
  cases d.element? c.elementId with
  | none => exact .throw h rfl
  | some e =>
    simp only [Action.orFail_some, pure_bind]
    rw [← helement] at hpass
    cases e with
    | startEvent n => exact hpass _
    | serviceTask n => exact hpass _
    | endEvent n => exact hpass _
    | userTask task =>
      have hemit : (run.emit (.taskCreated run.current.id task.id task.name)).seen κ =
          (run'.emit (.taskCreated run'.current.id task.id task.name)).seen .same := by
        rw [seen_emit, seen_emit, hrun, Event.seen, names_of_seen hrun]
        rfl
      exact (park_concurs h hemit task.id .userTask hframes).bind
        fun parked parked' v v' _ _ hparked halike => .pure halike ⟨rfl, hparked⟩
    | subProcess sub =>
      exact (park_concurs h hrun sub.id .subProcess hframes).bind
        fun parked parked' v v' _ _ hparked halike => .pure halike ⟨rfl, hparked⟩
    | gateway g => exact visitGateway_concurs hw hw' h hrun hframes hf hf' g

/-! ## Traversals -/

/-- Traversals that look the same go on alike. -/
theorem traverse_concurs (limit left : Nat) {pending pending' : List Cursor} (hw : w.Sound)
    (hw' : w'.Sound) (h : w.Alike κ w') (hrun : run.seen κ = run'.seen .same)
    (hpending : pending.map (Cursor.seen κ) = pending'.map (Cursor.seen .same))
    (hk : (run.stage pending w).Kept d) (hk' : (run'.stage pending' w').Kept d) :
    Outcomes κ (fun run run' => run.seen κ = run'.seen .same) w w'
      (traverse d limit left pending run w) (traverse d limit left pending' run' w') := by
  induction left generalizing pending pending' run run' w w' with
  | zero =>
    cases pending with
    | nil =>
      obtain rfl : pending' = [] := by simpa using hpending.symm
      exact .pure h hrun
    | cons c rest =>
      cases pending' with
      | nil => simp at hpending
      | cons c' rest' =>
        refine .throw h ?_
        rw [EngineError.seen, names_of_seen hrun]
        rfl
  | succ left ih =>
    cases pending with
    | nil =>
      obtain rfl : pending' = [] := by simpa using hpending.symm
      exact .pure h hrun
    | cons c rest =>
      cases pending' with
      | nil => simp at hpending
      | cons c' rest' =>
        rw [List.map_cons, List.map_cons, List.cons.injEq] at hpending
        rw [traverse_cons, traverse_cons]
        refine (visit_concurs hw hw' h hrun hpending.1
          (fun f hf => (hk.pending c List.mem_cons_self f hf).toSound)
          fun f hf => (hk'.pending c' List.mem_cons_self f hf).toSound).bind ?_
        rintro ⟨next, run₁⟩ ⟨next', run₁'⟩ v v' hvisit hvisit' ⟨hnext, hrun₁⟩ halike
        obtain ⟨hv, hkv, -⟩ := visit_kept hw hk hvisit
        obtain ⟨hv', hkv', -⟩ := visit_kept hw' hk' hvisit'
        refine ih hv hv' halike hrun₁ ?_ hkv hkv'
        rw [List.map_append, List.map_append, hnext, hpending.2]

end Run

end ProcessEngine

import ProcessEngine.Proofs.Isolation.Gateways
import ProcessEngine.Proofs.Renaming.Runs

/-!
# Runs for one instance

A run asks for identifiers and times, and lets the gateways of its instance act on the store.  So
whatever a call does with its instance is the same in all workspaces that agree on the instance: the
walk of its tokens (`traverse_same`) and all that is done before and after it.
-/

namespace ProcessEngine

variable {p : String} {w w' : Workspace} {d : Definition} {run : Run}

namespace Run

/-! ## Visits -/

lemma record_same (h : w.Agree p w') (element : String) (kind : ElementKind)
    (status : HistoryStatus) (execution : String) :
    SameFor p w w' (run.record element kind status execution w)
      (run.record element kind status execution w') := by
  rw [record_apply, record_apply, ← h.supply]
  exact .ok _ (.of_supply h rfl (Nat.le_refl _))

lemma complete_same (h : w.Agree p w') (e : Element) (execution : String) :
    SameFor p w w' (run.complete e execution w) (run.complete e execution w') := by
  rw [complete_apply, complete_apply, ← h.supply]
  exact .ok _ (.of_supply h rfl (Nat.le_refl _))

lemma park_same (h : w.Agree p w') (element : String) (wait : Wait) (frames : List Frame) :
    SameFor p w w' (run.park element wait frames w) (run.park element wait frames w') := by
  rw [park_apply, park_apply, ← h.supply]
  exact .ok _ (.of_supply h rfl (Nat.le_succ _))

lemma visitGateway_same (hw : w.Sound) (hw' : w'.Sound) (h : w.Agree run.current.id w')
    {frames : List Frame} (hf : ∀ f ∈ frames, f.Sound (w.store.states run.current.id))
    (g : Gateway) :
    SameFor run.current.id w w' (run.visitGateway d g frames w)
      (run.visitGateway d g frames w') := by
  refine (SameFor.freshUid h).bind fun u v v' hv hv' hagree => ?_
  cases hv
  rw [Action.freshUid_apply, ← h.supply] at hv'
  cases hv'
  have hsound : Workspace.Sound { w with supply := w.supply.uid.2 } := hw.congr rfl (Nat.le_succ _)
  have hsound' : Workspace.Sound { w' with supply := w.supply.uid.2 } :=
    hw'.congr rfl (by rw [← h.supply]; exact Nat.le_succ _)
  refine (Request.activate_same hsound hsound' hagree rfl hf).bind
    fun decision v v' _ _ hactivated => ?_
  refine (record_same hactivated g.id .gateway .completed _).bind
    fun recorded v v' _ _ hrecorded => ?_
  split_ifs
  · exact .pure hrecorded _
  · exact .pure hrecorded _
  · exact (park_same hrecorded g.id _ frames).bind fun _ _ _ _ _ hparked => .pure hparked _

lemma visit_same {c : Cursor} (hw : w.Sound) (hw' : w'.Sound) (h : w.Agree run.current.id w')
    (hf : ∀ f ∈ c.frames, f.Sound (w.store.states run.current.id)) :
    SameFor run.current.id w w' (run.visit d c w) (run.visit d c w') := by
  have hpass : ∀ e : Element, SameFor run.current.id w w'
      ((do
        let execution ← Action.freshUid
        let run ← run.complete e execution.text
        return (d.leave c.elementId c.frames, run) : Action (List Cursor × Run)) w)
      ((do
        let execution ← Action.freshUid
        let run ← run.complete e execution.text
        return (d.leave c.elementId c.frames, run) : Action (List Cursor × Run)) w') := fun e =>
    (SameFor.freshUid h).bind fun _ _ _ _ _ hissued =>
      (complete_same hissued e _).bind fun _ _ _ _ _ hdone => .pure hdone _
  rw [visit]
  cases d.element? c.elementId with
  | none => exact .throw h _
  | some e =>
    simp only [Action.orFail_some, pure_bind]
    cases e with
    | startEvent | serviceTask | endEvent => exact hpass _
    | userTask task =>
      exact (park_same h task.id .userTask c.frames).bind fun _ _ _ _ _ hparked => .pure hparked _
    | subProcess sub =>
      exact (park_same h sub.id .subProcess c.frames).bind fun _ _ _ _ _ hparked => .pure hparked _
    | gateway g => exact visitGateway_same hw hw' h hf g

/-- What has come to a stage in one workspace has come to the same in the other one. -/
lemma stage_eq (h : w.Agree run.current.id w') (pending : List Cursor) :
    run.stage pending w = run.stage pending w' := by
  rw [stage, stage, h.supply, h.store.states]

/-- Walks are the same for an instance. -/
theorem traverse_same (limit left : Nat) {pending : List Cursor} (hw : w.Sound) (hw' : w'.Sound)
    (h : w.Agree run.current.id w') (hk : (run.stage pending w).Kept d) :
    SameFor run.current.id w w' (traverse d limit left pending run w)
      (traverse d limit left pending run w') := by
  induction left generalizing pending run w w' with
  | zero =>
    cases pending with
    | nil => exact .pure h run
    | cons c rest => exact .throw h _
  | succ left ih =>
    cases pending with
    | nil => exact .pure h run
    | cons c rest =>
      have hk' := stage_eq h (c :: rest) ▸ hk
      rw [traverse_cons]
      refine (visit_same hw hw' h fun f hf =>
        (hk.pending c List.mem_cons_self f hf).toSound).bind ?_
      rintro ⟨next, run₁⟩ v v' hvisit hvisit' hagree
      obtain ⟨hv, hkv, hid, -⟩ := visit_kept hw hk hvisit
      obtain ⟨hv', -⟩ := visit_kept hw' hk' hvisit'
      rw [← hid] at hagree ⊢
      exact ih hv hv' hagree hkv

/-! ## Before and after a walk -/

lemma close_same (h : w.Agree p w') : SameFor p w w' (run.close w) (run.close w') := by
  rw [close]
  split_ifs
  · exact .pure h run
  · exact (SameFor.now h).bind fun _ _ _ _ _ hread => .pure hread _

lemma finish_same (h : w.Agree p w') : SameFor p w w' (run.finish w) (run.finish w') := by
  rw [finish]
  split_ifs
  · exact (close_same h).bind fun _ _ _ _ _ hclosed => .pure hclosed _
  · exact .pure h run

lemma recordTokens_same (h : w.Agree p w') (status : HistoryStatus) (ts : List Token) :
    SameFor p w w' (run.recordTokens d status ts w) (run.recordTokens d status ts w') := by
  induction ts generalizing run w w' with
  | nil => exact .pure h run
  | cons t rest ih =>
    exact (record_same h t.elementId _ status _).bind fun _ _ _ _ _ hrecorded => ih hrecorded

end Run

namespace Engine

open Run

lemma completeTask_same (h : w.Agree p w') (task : String) :
    SameFor p w w' (completeTask run d task w) (completeTask run d task w') := by
  rw [completeTask]
  refine (SameFor.orFail h _ _).bind fun token v v' _ _ hfound => ?_
  split_ifs
  · exact .throw hfound _
  · exact (SameFor.orFail hfound _ _).bind fun element _ _ _ _ helement =>
      (complete_same helement element _).bind fun _ _ _ _ _ hdone => .pure hdone _

/-- What is the same for an instance is so as well if it is undone when it fails. -/
lemma undoing_same {α : Type} {a a' : Action α} (hw : w.Sound) (hw' : w'.Sound)
    (h : w.Agree p w') (ha : SameFor p w w' (a w) (a' w'))
    (hc : ∀ e v, a w = .error e v → ∃ es, Confined p es w v)
    (hc' : ∀ e v, a' w' = .error e v → ∃ es, Confined p es w' v) :
    SameFor p w w' (undoing p a w) (undoing p a' w') := by
  rw [undoing, undoing]
  generalize hx : a w = x at ha
  generalize hx' : a' w' = x' at ha
  cases ha with
  | ok x hstep => exact .ok x hstep
  | @error e v v' hstep =>
    obtain ⟨es, hconf⟩ := hc e v hx
    obtain ⟨es', hconf'⟩ := hc' e v' hx'
    -- The states of the instance are put back.  The generations that were given out are not taken
    -- back, but they are the same on both sides.
    have hback := Unseen.of_restore hw.keyed hconf
    have hback' := Unseen.of_restore hw'.keyed hconf'
    refine .error e ⟨⟨hstep.agree.supply, ⟨?_, ?_⟩, hback.keyed, hback'.keyed⟩,
      fun q hq => ⟨(hback.states q).symm, ?_⟩, hstep.news⟩
    · exact (hback.states p).trans (h.store.states.trans (hback'.states p).symm)
    · rw [Store.generation_restore, Store.generation_restore]
      exact hstep.agree.store.generation
    · rw [Store.generation_restore]
      exact (hstep.spares q hq).generation

theorem continueFrom_same (limit : Nat) (task : String) (hw : w.Sound) (hw' : w'.Sound)
    (h : w.Agree run.current.id w') (hk : Kept d run.current (w.store.states run.current.id)) :
    SameFor run.current.id w w' (continueFrom run d limit task w)
      (continueFrom run d limit task w') := by
  have hk' := h.store.states ▸ hk
  refine (completeTask_same h task).bind ?_
  rintro ⟨token, taken⟩ v v' htask htask' hagree
  obtain ⟨hsound, hstage, hid, -⟩ := completeTask_kept hw hk htask
  obtain ⟨hsound', hstage', -, -⟩ := completeTask_kept hw' hk' htask'
  rw [← hid] at hagree ⊢
  exact (undoing_same hsound hsound' hagree (traverse_same limit limit hsound hsound' hagree hstage)
    (confined_of_traverse hsound hstage) (confined_of_traverse hsound' hstage')).bind
      fun _ _ _ _ _ hwalked => finish_same hwalked

/-- The first walk of a new instance. -/
theorem firstWalk_same (limit : Nat) (start : Node) (hw : w.Sound) (hw' : w'.Sound)
    (h : w.Agree run.current.id w') (hk : Kept d run.current (w.store.states run.current.id)) :
    SameFor run.current.id w w' (firstWalk run d limit start w)
      (firstWalk run d limit start w') := by
  have hstage : (run.stage [⟨start.id, []⟩] w).Kept d := ⟨hw.states _, by simp [stage], hk⟩
  exact (traverse_same limit limit hw hw' h hstage).bind
    fun _ _ _ _ _ hwalked => finish_same hwalked

/-! ## Calls on registered instances -/

variable {r : Registered}

theorem continuation_same (limit : Nat) (id : String) (task : Option String)
    (updates : Option Variables) (hw : w.Sound) (hw' : w'.Sound) (h : w.Agree r.current.id w')
    (hk : Kept r.definition r.current (w.store.states r.current.id)) :
    SameFor r.current.id w w' (continuation limit id task updates r w)
      (continuation limit id task updates r w') := by
  cases task with
  | none => exact .pure h _
  | some task =>
    have hkept : Kept r.definition ((Run.on (r.current.mergeVariables (updates.getD []))).emit
        (.processContinue id (some task))).current (w.store.states r.current.id) :=
      hk.mergeVariables _
    exact continueFrom_same limit task hw hw' h hkept

theorem suspendRun_same (element : Option String) (h : w.Agree p w') :
    SameFor p w w' (suspendRun r element w) (suspendRun r element w') := by
  rw [suspendRun_eq, suspendRun_eq]
  split
  · exact .throw h _
  · exact (recordTokens_same h _ _).bind fun _ _ _ _ _ hrecorded => .pure hrecorded _

theorem resumeRun_same (element : Option String) (h : w.Agree p w') :
    SameFor p w w' (resumeRun r element w) (resumeRun r element w') := by
  rw [resumeRun_eq, resumeRun_eq]
  split_ifs
  · exact .throw h _
  · exact .pure h _

theorem terminateRun_same (reason : Option String) (h : w.Agree p w') :
    SameFor p w w' (terminateRun r reason w) (terminateRun r reason w') :=
  (recordTokens_same h _ _).bind fun _ _ _ _ _ hrecorded =>
    (close_same hrecorded).bind fun _ _ _ _ _ hclosed => .pure hclosed _

end Engine

end ProcessEngine

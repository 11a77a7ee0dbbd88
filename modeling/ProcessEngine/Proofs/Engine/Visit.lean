import ProcessEngine.Proofs.Gateway.Effect

/-!
# Visits to elements

`Visited` says, constructor by constructor, what can happen when a token in flight comes to an
element: it completes the element and goes on by all flows, it parks at a task or a sub-process, or
a gateway sends it on, absorbs it, or parks it.  `visit_spec` shows that in a sound workspace a
visit either is refused and leaves the store alone, or is one of these.
-/

namespace ProcessEngine

/-! ## Runs -/

namespace Run

/-- The run after an entry of the history at the given time. -/
def recorded (run : Run) (element : String) (kind : ElementKind) (status : HistoryStatus)
    (execution : String) (now : Instant) : Run :=
  { run with current := run.current.record element kind status (some execution) now }

/-- The run after an element is completed at the given time. -/
def completed (run : Run) (e : Element) (execution : String) (now : Instant) : Run :=
  let run := run.recorded e.id e.kind .completed execution now
  if compensable e.kind then
    { run with completions := run.completions ++ [completionOf run.current e execution] }
  else run

/-- The run with one more parked token. -/
def parked (run : Run) (t : Token) : Run :=
  { run with current := { run.current with tokens := run.current.tokens ++ [t] } }

variable (run : Run) (w : Workspace)

lemma record_apply (element : String) (kind : ElementKind) (status : HistoryStatus)
    (execution : String) :
    run.record element kind status execution w =
      .ok (run.recorded element kind status execution w.supply.now.1)
        { w with supply := w.supply.now.2 } := rfl

lemma complete_apply (e : Element) (execution : String) :
    run.complete e execution w =
      .ok (run.completed e execution w.supply.now.1) { w with supply := w.supply.now.2 } := by
  rw [complete, Action.bind_of_ok (record_apply run w e.id e.kind .completed execution), completed]
  split <;> rfl

lemma park_apply (element : String) (wait : Wait) (frames : List Frame) :
    run.park element wait frames w =
      .ok (run.parked ⟨w.supply.uid.1, element, wait, false, frames⟩)
        { w with supply := w.supply.uid.2 } := rfl

@[simp] lemma current_completed (e : Element) (execution : String) (now : Instant) :
    (run.completed e execution now).current =
      (run.recorded e.id e.kind .completed execution now).current := by
  rw [completed]
  split <;> rfl

end Run

/-! ## Stages -/

/-- A stage of a walk: the tokens in flight, the run, the identifiers issued so far, and the states
of the instance. -/
structure Stage where
  pending : List Cursor
  run : Run
  issued : Nat
  states : List GatewayState

/-- The stage that a run has come to in a workspace. -/
def Run.stage (run : Run) (pending : List Cursor) (w : Workspace) : Stage :=
  ⟨pending, run, w.supply.issued, w.store.states run.current.id⟩

/-- Elements that a token completes by coming to them. -/
def ElementKind.isPassing : ElementKind → Bool
  | .startEvent | .serviceTask | .endEvent => true
  | _ => false

/-- The first token in flight comes to its element. -/
inductive Visited (d : Definition) : Stage → Stage → Prop
  | complete {c : Cursor} {rest : List Cursor} {run : Run} {issued : Nat}
      {states : List GatewayState} {e : Element} (now : Instant)
      (he : d.element? c.elementId = some e) (hkind : e.kind.isPassing = true) :
      Visited d ⟨c :: rest, run, issued, states⟩
        ⟨d.leave c.elementId c.frames ++ rest, run.completed e (Uid.mk (issued + 1)).text now,
          issued + 1, states⟩
  | userTask {c : Cursor} {rest : List Cursor} {run : Run} {issued : Nat}
      {states : List GatewayState} {task : Node}
      (he : d.element? c.elementId = some (.userTask task)) :
      Visited d ⟨c :: rest, run, issued, states⟩
        ⟨rest, (run.emit (.taskCreated run.current.id task.id task.name)).parked
          ⟨⟨issued + 1⟩, task.id, .userTask, false, c.frames⟩, issued + 1, states⟩
  | subProcess {c : Cursor} {rest : List Cursor} {run : Run} {issued : Nat}
      {states : List GatewayState} {sub : Node}
      (he : d.element? c.elementId = some (.subProcess sub)) :
      Visited d ⟨c :: rest, run, issued, states⟩
        ⟨rest, run.parked ⟨⟨issued + 1⟩, sub.id, .subProcess, false, c.frames⟩, issued + 1,
          states⟩
  | goOn {c : Cursor} {rest : List Cursor} {run : Run} {issued issued' : Nat}
      {states states' : List GatewayState} {g : Gateway} {decision : Decision} (now : Instant)
      (he : d.element? c.elementId = some (.gateway g))
      (heff : (run.request d g ⟨issued + 1⟩ c.frames).Effect run.current.id (issued + 1) states
        decision issued' states')
      (hgo : decision.needsWait = false) :
      Visited d ⟨c :: rest, run, issued, states⟩
        ⟨decision.cursors c.frames ++ rest,
          run.recorded g.id .gateway .completed (Uid.mk (issued + 1)).text now, issued', states'⟩
  | absorbed {c : Cursor} {rest : List Cursor} {run : Run} {issued issued' : Nat}
      {states states' : List GatewayState} {g : Gateway} {decision : Decision} (now : Instant)
      (he : d.element? c.elementId = some (.gateway g))
      (heff : (run.request d g ⟨issued + 1⟩ c.frames).Effect run.current.id (issued + 1) states
        decision issued' states')
      (hwait : decision.needsWait = true) (hjoin : decision.isJoin = true) :
      Visited d ⟨c :: rest, run, issued, states⟩
        ⟨rest, run.recorded g.id .gateway .completed (Uid.mk (issued + 1)).text now, issued',
          states'⟩
  | offered {c : Cursor} {rest : List Cursor} {run : Run} {issued issued' : Nat}
      {states states' : List GatewayState} {g : Gateway} {decision : Decision} (now : Instant)
      (he : d.element? c.elementId = some (.gateway g))
      (heff : (run.request d g ⟨issued + 1⟩ c.frames).Effect run.current.id (issued + 1) states
        decision issued' states')
      (hwait : decision.needsWait = true) (hjoin : decision.isJoin = false) :
      Visited d ⟨c :: rest, run, issued, states⟩
        ⟨rest, (run.recorded g.id .gateway .completed (Uid.mk (issued + 1)).text now).parked
          ⟨⟨issued' + 1⟩, g.id, .eventGateway decision.next, false, c.frames⟩, issued' + 1,
          states'⟩

/-- The instance stays the same. -/
lemma Visited.id_current {d : Definition} {s t : Stage} (h : Visited d s t) :
    t.run.current.id = s.run.current.id := by
  cases h with
  | complete => rw [Run.current_completed]; rfl
  | _ => rfl

/-- Why a token in flight is refused. -/
inductive Refused (d : Definition) (run : Run) (c : Cursor) : EngineError → Prop
  | unknown (he : d.element? c.elementId = none) :
      Refused d run c (.elementNotFound d.id c.elementId)
  | gateway {g : Gateway} {execution : Uid} {e : EngineError}
      (he : d.element? c.elementId = some (.gateway g))
      (hcourse : (run.request d g execution c.frames).course = .refuse e) : Refused d run c e

namespace Run

/-- What is reported while a token comes to an element. -/
def heard (run : Run) (d : Definition) (c : Cursor) : List Event :=
  match d.element? c.elementId with
  | some (.gateway g) => (run.request d g ⟨0⟩ c.frames).guardEvents
  | _ => []

variable {run : Run} {d : Definition} {c : Cursor} {w : Workspace}

/-- What is to be shown of a visit: it is refused and the store is left alone, or it is one of those
that `Visited` lists. -/
def Visits (run : Run) (d : Definition) (c : Cursor) (w : Workspace)
    (action : Action (List Cursor × Run)) : Prop :=
  (∃ e w', action w = .error e w' ∧ Refused d run c e ∧ w'.store = w.store ∧
      Confined run.current.id (run.heard d c) w w') ∨
    ∃ next run' w', action w = .ok (next, run') w' ∧
      (∀ rest, Visited d (run.stage (c :: rest) w) (run'.stage (next ++ rest) w')) ∧
      Confined run.current.id (run.heard d c) w w'

/-- Identifiers are issued and the clock is read while nothing is to be heard. -/
lemma confined_supply (hk : w.store.Keyed w.supply.issued) (hheard : run.heard d c = [])
    {supply : Supply} (hi : w.supply.issued ≤ supply.issued)
    (hc : supply.clock = w.supply.clock) :
    Confined run.current.id (run.heard d c) w { w with supply } := by
  rw [hheard]
  exact .of_supply hk hi hc

/-- What a gateway reports does not depend on the execution that it is asked in. -/
lemma heard_gateway (run : Run) {g : Gateway} (he : d.element? c.elementId = some (.gateway g))
    (execution : Uid) :
    (run.request d g execution c.frames).guardEvents = run.heard d c := by
  rw [heard, he]
  exact Request.guardEvents_congr rfl rfl rfl

/-- A token comes to a gateway. -/
lemma visitGateway_spec {g : Gateway} (he : d.element? c.elementId = some (.gateway g))
    (hw : w.Sound) (hf : ∀ f ∈ c.frames, f.Carried (w.store.states run.current.id)) :
    run.Visits d c w (run.visitGateway d g c.frames) := by
  have hfresh := Action.freshUid_apply w
  have hheard := heard_gateway run he w.supply.uid.1
  obtain ⟨r, hr⟩ : ∃ r, r = run.request d g w.supply.uid.1 c.frames := ⟨_, rfl⟩
  obtain ⟨w₁, hw₁⟩ : ∃ w₁ : Workspace, w₁ = { w with supply := w.supply.uid.2 } := ⟨_, rfl⟩
  have hstore₁ : w₁.store = w.store := by rw [hw₁]
  have hissued₁ : w₁.supply.issued = w.supply.issued + 1 := by rw [hw₁]; rfl
  rw [← hr] at hheard
  rw [← hw₁] at hfresh
  have hissued : Confined run.current.id [] w w₁ := by
    rw [hw₁]
    exact .of_supply hw.keyed (Nat.le_succ _) rfl
  have hsound₁ : w₁.Sound := hw.congr hstore₁ hissued.issued
  have hp : r.instanceId = some run.current.id := by rw [hr]; rfl
  have hframes : ∀ f ∈ r.frames, f.Sound (w₁.store.states run.current.id) := by
    rw [hr, hstore₁]
    exact fun f hmem => (hf f hmem).toSound
  rcases Request.activate_spec hsound₁ hp hframes with
    ⟨e, hcourse, hact⟩ | ⟨decision, w₂, hact, heff, hconf⟩
  · refine .inl ⟨e, { w₁ with bus := w₁.bus.publishAll r.guardEvents }, ?_,
      .gateway he (hr ▸ hcourse), hstore₁, ?_⟩
    · rw [visitGateway, Action.bind_of_ok hfresh, ← hr]
      exact Action.bind_of_error hact _
    · rw [← hheard]
      exact hissued.trans ⟨hsound₁.keyed, fun _ _ => rfl, Nat.le_refl _, rfl,
        r.guardEvents_evaluations, rfl⟩
  · right
    rw [hheard] at hconf
    rw [hissued₁, hstore₁, hr] at heff
    obtain ⟨recorded, hrec⟩ : ∃ recorded, recorded =
        run.recorded g.id .gateway .completed w.supply.uid.1.text w₂.supply.now.1 := ⟨_, rfl⟩
    obtain ⟨w₃, hw₃⟩ : ∃ w₃ : Workspace, w₃ = { w₂ with supply := w₂.supply.now.2 } := ⟨_, rfl⟩
    have hrecord := record_apply run w₂ g.id .gateway .completed w.supply.uid.1.text
    rw [← hrec, ← hw₃] at hrecord
    have hconf₃ : Confined run.current.id (run.heard d c) w w₃ := by
      have hread : Confined run.current.id [] w₂ w₃ := by
        rw [hw₃]
        exact .of_supply hconf.keyed (Nat.le_refl _) rfl
      simpa using (hissued.trans hconf).trans hread
    have hrun : run.visitGateway d g c.frames w = (if !decision.needsWait then
        (pure (decision.cursors c.frames, recorded) : Action (List Cursor × Run))
      else if decision.isJoin then pure ([], recorded)
      else do return ([], ← recorded.park g.id (.eventGateway decision.next) c.frames)) w₃ := by
      rw [visitGateway, Action.bind_of_ok hfresh, ← hr]
      exact (Action.bind_of_ok hact _).trans (Action.bind_of_ok hrecord _)
    have hid : recorded.current.id = run.current.id := by rw [hrec]; rfl
    have hstage : ∀ pending, recorded.stage pending w₃ =
        ⟨pending, recorded, w₂.supply.issued, w₂.store.states run.current.id⟩ := by
      intro pending
      rw [stage, hid, hw₃]
      rfl
    rw [hrun]
    rcases Bool.eq_false_or_eq_true decision.needsWait with hwait | hwait
    · rcases Bool.eq_false_or_eq_true decision.isJoin with hjoin | hjoin
      · refine ⟨[], recorded, w₃, by simp [hwait, hjoin], fun rest => ?_, hconf₃⟩
        rw [hstage, hrec]
        exact .absorbed _ he heff hwait hjoin
      · refine ⟨[], recorded.parked ⟨w₃.supply.uid.1, g.id, .eventGateway decision.next, false,
            c.frames⟩, { w₃ with supply := w₃.supply.uid.2 }, ?_, fun rest => ?_, ?_⟩
        · simp only [hwait, hjoin, Bool.not_true, Bool.false_eq_true, if_false]
          exact Action.bind_of_ok (park_apply recorded w₃ g.id _ c.frames) _
        · have hoffered : Visited d ⟨c :: rest, run, w.supply.issued,
              w.store.states run.current.id⟩ _ := .offered w₂.supply.now.1 he heff hwait hjoin
          rw [← show w.supply.uid.1 = ⟨w.supply.issued + 1⟩ from rfl, ← hrec] at hoffered
          have hparked : ∀ t pending, (recorded.parked t).stage pending
              { w₃ with supply := w₃.supply.uid.2 } =
              ⟨pending, recorded.parked t, w₂.supply.issued + 1,
                w₂.store.states run.current.id⟩ := by
            intro t pending
            rw [← hid, hw₃]
            rfl
          rw [hparked, show w₃.supply.uid.1 = ⟨w₂.supply.issued + 1⟩ by rw [hw₃]; rfl]
          exact hoffered
        · have hpark : Confined run.current.id [] w₃ { w₃ with supply := w₃.supply.uid.2 } :=
            .of_supply hconf₃.keyed (Nat.le_succ _) rfl
          simpa using hconf₃.trans hpark
    · refine ⟨decision.cursors c.frames, recorded, w₃, by simp [hwait], fun rest => ?_, hconf₃⟩
      rw [hstage, hrec]
      exact .goOn _ he heff hwait

/-- In a sound workspace a visit is refused and leaves the store alone, or is one of those that
`Visited` lists. -/
theorem visit_spec (hw : w.Sound)
    (hf : ∀ f ∈ c.frames, f.Carried (w.store.states run.current.id)) :
    run.Visits d c w (run.visit d c) := by
  have hpass : ∀ e, d.element? c.elementId = some e → e.kind.isPassing = true →
      run.heard d c = [] →
      run.Visits d c w (do
        let execution ← Action.freshUid
        let run ← run.complete e execution.text
        return (d.leave c.elementId c.frames, run)) := by
    intro e he hkind hheard
    refine .inr ⟨d.leave c.elementId c.frames,
      run.completed e w.supply.uid.1.text w.supply.uid.2.now.1,
      { w with supply := w.supply.uid.2.now.2 }, ?_, fun rest => ?_, ?_⟩
    · rw [Action.bind_of_ok (Action.freshUid_apply w), Action.bind_of_ok (complete_apply run _ e _)]
      rfl
    · rw [stage, stage, current_completed]
      exact .complete _ he hkind
    · exact confined_supply hw.keyed hheard (Nat.le_succ _) rfl
  rw [visit]
  cases he : d.element? c.elementId with
  | none =>
    refine .inl ⟨_, w, rfl, .unknown he, rfl, confined_supply hw.keyed ?_ (Nat.le_refl _) rfl⟩
    rw [heard, he]
  | some e =>
    rw [Action.orFail_some, pure_bind]
    have hheard : (∀ g, e ≠ .gateway g) → run.heard d c = [] := by
      intro hne
      rw [heard, he]
      cases e with
      | gateway g => exact absurd rfl (hne g)
      | _ => rfl
    cases e with
    | startEvent n => exact hpass _ he rfl (hheard nofun)
    | serviceTask n => exact hpass _ he rfl (hheard nofun)
    | endEvent n => exact hpass _ he rfl (hheard nofun)
    | userTask task =>
      refine .inr ⟨_, _, _, Action.bind_of_ok (park_apply _ w task.id .userTask c.frames) _,
        fun rest => .userTask he, confined_supply hw.keyed (hheard nofun) (Nat.le_succ _) rfl⟩
    | subProcess sub =>
      refine .inr ⟨_, _, _, Action.bind_of_ok (park_apply _ w sub.id .subProcess c.frames) _,
        fun rest => .subProcess he, confined_supply hw.keyed (hheard nofun) (Nat.le_succ _) rfl⟩
    | gateway g => exact visitGateway_spec he hw hf

end Run

end ProcessEngine

import ProcessEngine.Proofs.Definition.Valid
import ProcessEngine.Proofs.Engine.CarriedForks
import ProcessEngine.Proofs.Engine.Turns
import ProcessEngine.Proofs.Gateway.Outlets

/-!
# One way out of an exclusive gateway

An exclusive gateway selects one flow for the variables of the moment (`Run.Chooses`).  A token that
comes to it goes on by this flow alone.  But a gateway that an event-based one offers can be
completed like a task, and then it is not asked: tokens leave it by all its flows.  So the selected
flow alone is followed at each completion of the gateway if and only if the gateway is not chosen as
what was offered, or has only this flow (`exclusive_followed`); elsewhere all flows of an accepted
definition may be followed at once (`every_flow_followed`).
-/

namespace ProcessEngine

/-! ## The flow that is selected -/

namespace Request

variable {r : Request} {p : String} {issued issued' : Nat} {states states' : List GatewayState}
  {d : Decision} {f : Flow}

/-- An exclusive gateway decides for the flow that it chooses, whatever the token and the store. -/
lemma activate_exclusive (hkind : r.gateway.kind = .exclusive)
    (hchoice : r.gateway.exclusiveChoice r.outgoing r.vars = some f) (w : Workspace) :
    ∃ w', r.activate w = .ok (.to [f.target]) w' := by
  refine ⟨{ w with
    bus := w.bus.publishAll (r.gateway.exclusiveEvents r.outgoing r.vars) }, ?_⟩
  rw [activate, hkind]
  simp only
  rw [exclusive, Action.bind_of_ok (Action.publish_apply _ w), hchoice]
  rfl

lemma Effect.exclusive (heff : r.Effect p issued states d issued' states')
    (hkind : r.gateway.kind = .exclusive) :
    ∃ f, r.gateway.exclusiveChoice r.outgoing r.vars = some f ∧ d = .to [f.target] := by
  cases hchoice : r.gateway.exclusiveChoice r.outgoing r.vars with
  | none =>
    have hcourse : r.course = .refuse (.noSatisfiedFlow r.gateway.id) := by
      rw [course, hkind]
      simp [hchoice]
    exact absurd hcourse (heff.not_refused _)
  | some f =>
    have hcourse : r.course = .pass (.to [f.target]) := by rw [course, hkind]; simp [hchoice]
    refine ⟨f, rfl, ?_⟩
    cases heff with
    | pass hpass => exact (Course.pass.inj (hcourse.symm.trans hpass)).symm
    | split _ hsplit => cases hcourse.symm.trans hsplit
    | wait _ hmeet | release _ hmeet | releaseSplit _ _ hmeet => cases hcourse.symm.trans hmeet

end Request

/-- A flow out of the gateway is the one that it selects for the variables of a run: whatever the
token and the workspace, the gateway decides for the target of this flow and nothing else. -/
structure Run.Chooses (run : Run) (d : Definition) (g : Gateway) (f : Flow) : Prop where
  mem : f ∈ d.outgoing g.id
  choice : g.exclusiveChoice (d.outgoing g.id) run.current.vars = some f
  activate : ∀ execution frames w,
    ∃ w', (run.request d g execution frames).activate w = .ok (.to [f.target]) w'

variable {d : Definition} {run run' : Run} {w w' : Workspace} {g : Gateway} {f : Flow}

lemma Run.chooses (hkind : g.kind = .exclusive)
    (hchoice : g.exclusiveChoice (d.outgoing g.id) run.current.vars = some f) :
    run.Chooses d g f :=
  ⟨Gateway.exclusiveChoice_mem hchoice, hchoice, fun execution frames w =>
    Request.activate_exclusive (r := run.request d g execution frames) hkind hchoice w⟩

/-! ## Turns that complete an exclusive gateway -/

/-- A token that comes to an exclusive gateway goes on by the selected flow. -/
lemma Visited.exclusive {s t : Stage} {c : Cursor} {rest next : List Cursor}
    (h : Visited d s t) (hs : s.pending = c :: rest) (ht : t.pending = next ++ rest)
    (hg : d.element? c.elementId = some (.gateway g)) (hkind : g.kind = .exclusive) :
    ∃ f, s.run.Chooses d g f ∧ next = [⟨f.target, c.frames⟩] := by
  have hgateway : ∀ {k : Gateway}, d.element? c.elementId = some (.gateway k) → k = g := by
    intro k hk
    simpa using hk.symm.trans hg
  cases h with
  | complete now he hpassing =>
    cases hs
    rw [hg] at he
    cases he
    cases hpassing
  | userTask he | subProcess he =>
    cases hs
    rw [hg] at he
    cases he
  | goOn now he heff hgo =>
    cases hs
    obtain rfl := hgateway he
    obtain ⟨f, hchoice, rfl⟩ := heff.exclusive hkind
    exact ⟨f, Run.chooses hkind hchoice, (List.append_cancel_right ht).symm⟩
  | absorbed now he heff hwait | offered now he heff hwait =>
    cases hs
    obtain rfl := hgateway he
    obtain ⟨f, -, rfl⟩ := heff.exclusive hkind
    cases hwait

/-- A turn that enters a completion of an exclusive gateway: a token that comes to it goes on by the
selected flow; if it is completed like a task, it is offered, and tokens leave it by all flows. -/
lemma Turn.exclusive {task : Option String} {next : List Cursor} {entry : HistoryEntry}
    (h : Turn d task run next run') (hg : d.element? g.id = some (.gateway g))
    (hkind : g.kind = .exclusive) (hentry : entry.elementId = g.id)
    (hhistory : run'.current.history = run.current.history ++ [entry]) :
    (task = none ∧ ∃ f frames, run.Chooses d g f ∧ next = [⟨f.target, frames⟩]) ∨
      (task.isSome = true ∧ d.Offers g.id ∧ ∃ frames, next = d.leave g.id frames) := by
  have hentered : ∀ {x : String}, Enters x run.current.history run'.current.history →
      x = g.id := by
    intro x henters
    rw [hhistory] at henters
    generalize hafter : run.current.history ++ [entry] = history at henters
    cases henters with
    | nothing => simp at hafter
    | entry helement =>
      obtain rfl : entry = _ := by simpa using hafter
      exact helement.symm.trans hentry
  cases h with
  | @visit c rest next run run' w w' h hvisit =>
    obtain ⟨hw, hk⟩ := h.kept
    have hvisited : Visited d (run.stage (c :: rest) w) (run'.stage (next ++ rest) w') :=
      Run.visited_of_visit hw (hk.pending c List.mem_cons_self) hvisit
    have hc : c.elementId = g.id := hentered (hvisited.enters rfl)
    obtain ⟨f, hchooses, hnext⟩ := hvisited.exclusive rfl rfl (hc ▸ hg) hkind
    exact .inl ⟨rfl, f, c.frames, hchooses, hnext⟩
  | @take e id task updates r token run' w' h hregistered hlive hd htask =>
    obtain rfl : task = g.id := hentered (Engine.completeTask_enters htask).2
    obtain ⟨hfind, -⟩ := Engine.completeTask_ok htask
    have hagrees : token.Agrees d :=
      hd ▸ (h.sound.kept id r hregistered hlive).waits token (List.mem_of_find?_eq_some hfind)
    have haccepts : token.accepts g.id = true := by simpa using List.find?_some hfind
    exact .inr ⟨rfl, Engine.offers_of_accepts hagrees haccepts hg, token.frames, rfl⟩

/-- All flows out of a gateway are followed at once.  This is the selected flow alone if there is no
other. -/
lemma leave_eq_singleton {frames frames' : List Frame} (hmem : f ∈ d.outgoing g.id) :
    d.leave g.id frames = [⟨f.target, frames'⟩] → d.outgoing g.id = [f] := by
  intro hleave
  have hlength : (d.outgoing g.id).length = 1 := by
    simpa [Definition.leave] using congrArg List.length hleave
  obtain ⟨o, ho⟩ := List.length_eq_one_iff.1 hlength
  rw [ho, List.mem_singleton] at hmem
  rw [ho, hmem]

/-- Every completion of an exclusive gateway in the history of an instance was entered at a turn.  At
each such turn the tokens that are sent on are in flight; a token that came to the gateway goes on by
the flow that the gateway selects for the variables of the moment, and a gateway that was offered
and is completed like a task is left by all its flows.  So the selected flow alone is followed if and
only if the gateway is not completed like a task, or has only this flow. -/
theorem exclusive_followed (hg : d.element? g.id = some (.gateway g))
    (hkind : g.kind = .exclusive) :
    (∀ e id r before entry after, Engine.Reachable e → e.registered? id = some r →
      r.definition = d → r.current.history = before ++ entry :: after → entry.elementId = g.id →
      entry.status = .completed → EnteredAt d id before entry) ∧
    ∀ task run next run' entry, Turn d task run next run' → entry.elementId = g.id →
      run'.current.history = run.current.history ++ [entry] →
        (∃ rest w', Reaches d (next ++ rest) run' w') ∧
        (task = none → ∃ f frames, run.Chooses d g f ∧ next = [⟨f.target, frames⟩]) ∧
        (task.isSome = true → d.Offers g.id ∧ ∃ frames, next = d.leave g.id frames) ∧
        ((∃ f frames, run.Chooses d g f ∧ next = [⟨f.target, frames⟩]) ↔
          task = none ∨ ∃ f, run.Chooses d g f ∧ d.outgoing g.id = [f]) := by
  refine ⟨?_, fun task run next run' entry hturn hentry hhistory => ⟨hturn.reaches, ?_⟩⟩
  · rintro e id r before entry after h hr rfl hsplit - hcompleted
    have hid : r.current.id = id := (h.sound.known id r hr).1
    exact hid ▸ Engine.traced_registered h hr before entry after hsplit hcompleted
  · rcases hturn.exclusive hg hkind hentry hhistory with
      ⟨rfl, hfollowed⟩ | ⟨hsome, hoffers, frames, rfl⟩
    · exact ⟨fun _ => hfollowed, nofun, fun _ => .inl rfl, fun _ => hfollowed⟩
    · have hnone : task ≠ none := Option.isSome_iff_ne_none.1 hsome
      refine ⟨fun htask => absurd htask hnone, fun _ => ⟨hoffers, frames, rfl⟩, ?_, ?_⟩
      · rintro ⟨f, frames', hchooses, hleave⟩
        exact .inr ⟨f, hchooses, leave_eq_singleton hchooses.mem hleave⟩
      · rintro (htask | ⟨f, hchooses, honly⟩)
        · exact absurd htask hnone
        · exact ⟨f, frames, hchooses, by rw [Definition.leave, honly]; rfl⟩

namespace Engine

/-! ## An exclusive gateway that is offered -/

/-- An exclusive gateway with two ways out, the first of them its default. -/
def choice : Gateway := .unnamed "choice" .exclusive (some "f3")

/-- An event-based gateway offers the exclusive one. -/
def offering : Definition :=
  { Definition.empty "offering" with
    startEvents := [.unnamed "start"]
    endEvents := [.unnamed "end"]
    userTasks := [.unnamed "a", .unnamed "b"]
    gateways := [.unnamed "wait" .eventBased none, choice]
    flows := [⟨"f1", "start", "wait", none⟩, ⟨"f2", "wait", "choice", none⟩,
      ⟨"f3", "choice", "a", none⟩, ⟨"f4", "choice", "b", none⟩, ⟨"f5", "a", "end", none⟩,
      ⟨"f6", "b", "end", none⟩] }

/-- A token waits for what is offered. -/
def awaiting : Engine := (small.call (.start offering "key" none)).2

lemma reachable_awaiting : awaiting.Reachable := reachable_small.call _

lemma awaiting_registered : (awaiting.registered? firstId).any (fun r =>
    r.definition == offering && !r.current.isEnded &&
      match completeTask (continuing r firstId "choice" []) offering "choice" awaiting.workspace with
      | .ok _ _ => true
      | .error _ _ => false) = true := by
  decide +kernel

/-- The exclusive gateway is completed like a task. -/
lemma exists_turn_offering : ∃ run run' frames entry,
    Turn offering (some "choice") run (offering.leave "choice" frames) run' ∧
      entry.elementId = choice.id ∧ entry.status = .completed ∧
      run'.current.history = run.current.history ++ [entry] := by
  obtain ⟨r, hr, hbody⟩ := (Option.any_eq_true _ _).1 awaiting_registered
  simp only [Bool.and_eq_true, beq_iff_eq, Bool.not_eq_true'] at hbody
  obtain ⟨⟨hd, hlive⟩, hok⟩ := hbody
  split at hok
  · next result w' htask =>
    obtain ⟨-, entry, helement, hstatus, hhistory⟩ := completeTask_entry htask
    exact ⟨_, _, _, entry, .take reachable_awaiting hr hlive hd htask, helement, hstatus, hhistory⟩
  · cases hok

lemma leave_offering (frames : List Frame) :
    offering.leave "choice" frames = [⟨"a", frames⟩, ⟨"b", frames⟩] := rfl

/-- Both flows are followed, not the default alone. -/
theorem exclusive_followed_offering :
    offering.element? choice.id = some (.gateway choice) ∧ choice.kind = .exclusive ∧
      ∃ run run' frames entry, Turn offering (some "choice") run (offering.leave "choice" frames) run' ∧
        entry.elementId = choice.id ∧
        run'.current.history = run.current.history ++ [entry] ∧ offering.Offers choice.id ∧
        ¬∃ f frames', run.Chooses offering choice f ∧
          offering.leave "choice" frames = [⟨f.target, frames'⟩] := by
  obtain ⟨run, run', frames, entry, hturn, helement, -, hhistory⟩ := exists_turn_offering
  have hg : offering.element? choice.id = some (.gateway choice) := by decide
  obtain ⟨-, -, hoffered, honly⟩ := (exclusive_followed hg rfl).2 _ run _ run' entry hturn helement
    hhistory
  refine ⟨hg, rfl, run, run', frames, entry, hturn, helement, hhistory, (hoffered rfl).1, ?_⟩
  rw [honly]
  rintro (hnone | ⟨f, -, hflows⟩)
  · cases hnone
  · have hlength : (offering.outgoing choice.id).length = 1 := by rw [hflows]; rfl
    exact absurd hlength (by decide)

/-- It is not so that an accepted definition has exactly the selected flow followed whenever an
exclusive gateway is completed. -/
theorem every_flow_followed :
    ¬∀ (d : Definition) (g : Gateway) (task : Option String) (run run' : Run) (next : List Cursor)
      (entry : HistoryEntry), d.ensureValid = .ok () → d.element? g.id = some (.gateway g) →
      g.kind = .exclusive → Turn d task run next run' → entry.elementId = g.id →
      entry.status = .completed → run'.current.history = run.current.history ++ [entry] →
      ∃ f frames, run.Chooses d g f ∧ next = [⟨f.target, frames⟩] := by
  intro hclaim
  obtain ⟨run, run', frames, entry, hturn, helement, hstatus, hhistory⟩ := exists_turn_offering
  obtain ⟨f, frames', -, hone⟩ := hclaim offering choice _ run run' _ entry (by decide +kernel)
    (by decide) rfl hturn helement hstatus hhistory
  rw [leave_offering] at hone
  simp at hone

end Engine

end ProcessEngine

import ProcessEngine.Proofs.Engine.CarriedForks
import ProcessEngine.Proofs.Engine.Lasting
import ProcessEngine.Proofs.Gateway.Outlets
import ProcessEngine.Proofs.Lists

/-!
# No token is lost or duplicated

Along plain flows, which are those that no gateway chooses among and no join swallows, tokens behave
as in a marked graph: what has come to an element is what its predecessors have sent there.
`Balanced` counts the tokens in flight as well, so that every single visit keeps it
(`Visited.balanced`); between calls no token is in flight, and the completions of an element and
the tokens parked at it make up the completions of what leads there (`completions_balanced`).
-/

namespace ProcessEngine

/-! ## Flows and what they carry -/

/-- An element that is no gateway and to which gateways do not lead, but for parallel ones that have
nothing to join. -/
structure Definition.Plain (d : Definition) (x : String) : Prop where
  node : ∀ g, d.element? x ≠ some (.gateway g)
  sources : ∀ f ∈ d.flows, f.target = x → ∀ g, d.element? f.source = some (.gateway g) →
    g.kind = .parallel ∧ d.incomingCount g.id ≤ 1

/-- How many flows lead from one element to another. -/
def Definition.links (d : Definition) (y x : String) : Nat :=
  d.flows.countP fun f => f.source == y && f.target == x

/-- How many tokens an instance starts with at an element. -/
def Definition.starts (d : Definition) (x : String) : Nat :=
  if d.startEvents.head?.map Node.id = some x then 1 else 0

namespace Instance

/-- How many tokens are parked at an element. -/
def waitingAt (i : Instance) (x : String) : Nat := i.tokens.countP (·.elementId == x)

/-- How often the sources of flows into an element were completed, for each flow. -/
def supplied (i : Instance) (d : Definition) (x : String) : Nat :=
  ((d.flows.filter (·.target == x)).map fun f => i.completions f.source).sum

end Instance

/-- What has come to an element is what was sent there. -/
def Balanced (d : Definition) (x : String) (pending : List Cursor) (i : Instance) : Prop :=
  i.completions x + i.waitingAt x + pending.countP (·.elementId == x) =
    i.supplied d x + d.starts x

variable {d : Definition} {x y : String} {i j : Instance} {c : Cursor} {rest : List Cursor}

/-- A token leaves along each flow. -/
lemma countP_leave (d : Definition) (y x : String) (frames : List Frame) :
    (d.leave y frames).countP (·.elementId == x) = d.links y x := by
  rw [Definition.leave, Definition.outgoing, List.countP_map, List.countP_filter]
  refine List.countP_congr fun f _ => ?_
  simp only [Function.comp_apply, Bool.and_eq_true, beq_iff_eq]
  exact and_comm

/-- A token is sent along each flow that leads out of the element. -/
lemma countP_targets (d : Definition) (y x : String) :
    ((d.outgoing y).map Flow.target).countP (· == x) = d.links y x := by
  rw [← countP_leave d y x [], Definition.leave, List.countP_map, List.countP_map]
  rfl

/-- If one element was completed once more, then each flow out of it has supplied one more. -/
lemma supplied_of_completed
    (h : ∀ z, j.completions z = i.completions z + if y = z then 1 else 0) (x : String) :
    j.supplied d x = i.supplied d x + d.links y x := by
  rw [Instance.supplied, Instance.supplied, Definition.links]
  induction d.flows with
  | nil => rfl
  | cons f fs ih =>
    by_cases htarget : f.target = x
    · rw [List.filter_cons_of_pos (by simpa using htarget), List.map_cons, List.map_cons,
        List.sum_cons, List.sum_cons, ih, h f.source, List.countP_cons]
      by_cases hsource : y = f.source
      · simp only [hsource, htarget, beq_self_eq_true, Bool.and_self, if_true]
        omega
      · simp only [if_neg hsource, beq_false_of_ne (Ne.symm hsource), Bool.false_and,
          Bool.false_eq_true, if_false]
        omega
    · rw [List.filter_cons_of_neg (by simpa using htarget), ih, List.countP_cons]
      simp [htarget]

/-- Nothing is supplied while nothing is completed. -/
lemma supplied_congr (h : ∀ z, j.completions z = i.completions z) (x : String) :
    j.supplied d x = i.supplied d x := by
  rw [Instance.supplied, Instance.supplied]
  congr 1
  exact List.map_congr_left fun f _ => h f.source

namespace Balanced

/-- A new instance has one token, at its first start event. -/
lemma start {first : Node} (hfirst : d.startEvents.head? = some first) (ht : i.tokens = [])
    (hh : i.history = []) : Balanced d x [⟨first.id, []⟩] i := by
  have hnone : ∀ z, i.completions z = 0 := by
    intro z
    rw [Instance.completions, hh]
    rfl
  have hsupplied : i.supplied d x = 0 := by
    rw [Instance.supplied, List.sum_eq_zero]
    intro n hn
    obtain ⟨f, -, rfl⟩ := List.mem_map.1 hn
    exact hnone f.source
  have hwaiting : i.waitingAt x = 0 := by
    rw [Instance.waitingAt, ht]
    rfl
  rw [Balanced, hnone, hsupplied, hwaiting, Definition.starts, hfirst]
  by_cases hx : first.id = x
  · simp [hx]
  · simp [hx]

/-- The element of the first token is completed, and a token is sent along each flow out of it. -/
lemma complete (h : Balanced d x (c :: rest) i) (next : List Cursor)
    (hcompleted : ∀ z, j.completions z = i.completions z + if c.elementId = z then 1 else 0)
    (hwaiting : j.waitingAt x = i.waitingAt x)
    (hnext : next.countP (·.elementId == x) = d.links c.elementId x) :
    Balanced d x (next ++ rest) j := by
  rw [Balanced, List.countP_cons] at h
  rw [Balanced, hcompleted, hwaiting, supplied_of_completed hcompleted, List.countP_append, hnext]
  simp only [beq_iff_eq] at h
  omega

/-- The first token is parked at its element. -/
lemma park {t : Token} (h : Balanced d x (c :: rest) i) (ht : t.elementId = c.elementId)
    (hcompletions : ∀ z, j.completions z = i.completions z) (htokens : j.tokens = i.tokens ++ [t]) :
    Balanced d x rest j := by
  have hwaiting : j.waitingAt x = i.waitingAt x + if c.elementId = x then 1 else 0 := by
    rw [Instance.waitingAt, htokens, List.countP_append, ← ht]
    simp [Instance.waitingAt, List.countP_cons]
  rw [Balanced, List.countP_cons] at h
  rw [Balanced, hcompletions, hwaiting, supplied_congr hcompletions]
  simp only [beq_iff_eq] at h
  omega

end Balanced

/-! ## Gateways -/

/-- A plain element gets one token along each flow from the gateway, or no flow leads there. -/
lemma Definition.Plain.countP_next (hx : d.Plain x) {run : Run} {g : Gateway} {u : Uid}
    {frames : List Frame} {p : String} {issued issued' : Nat} {states states' : List GatewayState}
    {decision : Decision} (hg : d.element? g.id = some (.gateway g))
    (heff : (run.request d g u frames).Effect p issued states decision issued' states') :
    decision.next.countP (· == x) = d.links g.id x ∧
      (decision.needsWait = true → d.links g.id x = 0) := by
  by_cases hlinked : ∃ f ∈ d.flows, f.source = g.id ∧ f.target = x
  · obtain ⟨f, hf, hsource, htarget⟩ := hlinked
    obtain ⟨hkind, hfew⟩ := hx.sources f hf htarget g (hsource ▸ hg)
    obtain ⟨hgo, hnext⟩ := heff.next_of_parallel hkind (by simpa [Run.request] using hfew)
    refine ⟨?_, fun hwait => ?_⟩
    · rw [hnext]
      exact countP_targets d g.id x
    · rw [hgo] at hwait
      cases hwait
  · have hnone : d.links g.id x = 0 := by
      rw [links, List.countP_eq_zero]
      intro f hf hand
      simp only [Bool.and_eq_true, beq_iff_eq] at hand
      exact hlinked ⟨f, hf, hand⟩
    refine ⟨?_, fun _ => hnone⟩
    rw [hnone, List.countP_eq_zero]
    intro y hy heq
    obtain ⟨f, hf, hfy⟩ := List.mem_map.1 (heff.next_subset y hy)
    have hout := List.mem_filter.1 hf
    exact hlinked ⟨f, hout.1, by simpa using hout.2, hfy.trans (by simpa using heq)⟩

/-! ## Visits -/

/-- An entry of the history for a completed element. -/
lemma completions_recorded (run : Run) (y : String) (kind : ElementKind) (execution : String)
    (now : Instant) (z : String) :
    (run.recorded y kind .completed execution now).current.completions z =
      run.current.completions z + if y = z then 1 else 0 := by
  rw [Run.recorded, Instance.completions_record]
  simp only [and_true]

/-- A visit keeps the balance at a plain element. -/
theorem Visited.balanced {s t : Stage} (hx : d.Plain x)
    (h : Balanced d x s.pending s.run.current) (hv : Visited d s t) :
    Balanced d x t.pending t.run.current := by
  cases hv with
  | @complete c rest run issued states e now he hkind =>
    rw [Run.current_completed, Definition.element?_id he]
    exact h.complete _ (completions_recorded run c.elementId e.kind _ now) rfl
      (countP_leave d c.elementId x c.frames)
  | @userTask c rest run issued states task he =>
    exact h.park (Definition.element?_id he) (fun _ => rfl) rfl
  | @subProcess c rest run issued states sub he =>
    exact h.park (Definition.element?_id he) (fun _ => rfl) rfl
  | @goOn c rest run issued issued' states states' g decision now he heff hgo =>
    have hid : g.id = c.elementId := Definition.element?_id he
    obtain ⟨hnext, -⟩ := hx.countP_next (Definition.element?_self he) heff
    refine h.complete _ (hid ▸ completions_recorded run g.id .gateway _ now) rfl ?_
    rw [← hid, ← hnext, ← decision.map_elementId_cursors c.frames, List.countP_map]
    rfl
  | @absorbed c rest run issued issued' states states' g decision now he heff hwait hjoin =>
    have hid : g.id = c.elementId := Definition.element?_id he
    obtain ⟨-, hnone⟩ := hx.countP_next (Definition.element?_self he) heff
    refine h.complete [] (hid ▸ completions_recorded run g.id .gateway _ now) rfl ?_
    rw [← hid, hnone hwait]
    rfl
  | @offered c rest run issued issued' states states' g decision now he heff hwait hjoin =>
    have hid : g.id = c.elementId := Definition.element?_id he
    obtain ⟨-, hnone⟩ := hx.countP_next (Definition.element?_self he) heff
    have helsewhere : g.id ≠ x := by
      rintro rfl
      exact hx.node g (Definition.element?_self he)
    refine h.complete [] (hid ▸ completions_recorded run g.id .gateway _ now) ?_ ?_
    · -- The token that is parked at the gateway is not parked at the element.
      simp only [Run.parked, Run.recorded, Instance.record, Instance.waitingAt]
      rw [List.countP_append, List.countP_singleton, beq_false_of_ne helsewhere]
      rfl
    · rw [← hid, hnone hwait]
      rfl

/-! ## Completed tasks -/

/-- Completing a task moves the token that waited there along the flows out of it. -/
lemma balanced_taken {run : Run} {states : List GatewayState} {task : String} {token : Token}
    {element : Element} (hx : d.Plain x) (now : Instant) (hk : Kept d run.current states)
    (h : Balanced d x [] run.current)
    (hfind : run.current.tokens.find? (·.accepts task) = some token)
    (he : d.element? task = some element) :
    Balanced d x (d.leave task token.frames)
      (Engine.taken run task token element now).current := by
  have haccepts : token.accepts task = true := by simpa using List.find?_some hfind
  have hagrees := hk.waits token (List.mem_of_find?_eq_some hfind)
  -- A token that waits at an event-based gateway counts neither there nor at the task.
  have hplace : (token.elementId = x) ↔ (task = x) := by
    rw [Token.Agrees] at hagrees
    rw [Token.accepts] at haccepts
    cases hwait : token.wait with
    | userTask =>
      rw [hwait] at haccepts
      rw [show token.elementId = task by simpa using haccepts]
    | subProcess =>
      rw [hwait] at haccepts
      rw [show token.elementId = task by simpa using haccepts]
    | eventGateway candidates =>
      rw [hwait] at hagrees haccepts
      obtain ⟨g, hg, hkind, rfl⟩ := hagrees
      have hgid : g.id = token.elementId := Definition.element?_id hg
      constructor
      · rintro rfl
        exact absurd hg (hx.node g)
      · rintro rfl
        obtain ⟨f, hf, htarget⟩ := List.mem_map.1
          (show task ∈ (d.outgoing g.id).map Flow.target by simpa using haccepts)
        obtain ⟨hflow, hsource⟩ := List.mem_filter.1 hf
        have hparallel := hx.sources f hflow htarget g (by
          rw [show f.source = token.elementId from (by simpa using hsource : f.source = g.id).trans
            hgid]
          exact hg)
        rw [hkind] at hparallel
        cases hparallel.1
  have hwaiting := countP_eraseP hfind (·.elementId == x)
  simp only [beq_iff_eq, hplace] at hwaiting
  have hcompleted : ∀ z, (Engine.taken run task token element now).current.completions z =
      run.current.completions z + if task = z then 1 else 0 := by
    intro z
    rw [Engine.taken, Run.current_completed, completions_recorded, Definition.element?_id he]
    rfl
  have htokens : (Engine.taken run task token element now).current.waitingAt x =
      (run.current.tokens.eraseP (·.accepts task)).countP (·.elementId == x) := by
    rw [Engine.taken, Run.current_completed]
    rfl
  rw [Balanced, List.countP_nil, Instance.waitingAt] at h
  rw [Balanced, hcompleted, htokens, countP_leave, supplied_of_completed hcompleted]
  omega

/-! ## Runs -/

/-- The balance at a plain element lasts. -/
theorem lasting_balanced (hx : d.Plain x) :
    Lasting d fun pending i _ => Balanced d x pending i where
  start hfirst ht hh := .start hfirst ht hh
  visited _ h hv := hv.balanced hx h
  taken now hk h hfind he := balanced_taken hx now hk h hfind he
  unmoved {i j _} hunmoved h := by
    have hwaiting : j.waitingAt x = i.waitingAt x := by
      have hcore : ∀ ts : List Token, ts.countP (·.elementId == x) =
          (ts.map Token.core).countP (·.elementId == x) := by
        intro ts
        rw [List.countP_map]
        rfl
      rw [Instance.waitingAt, Instance.waitingAt, hcore, hcore i.tokens, hunmoved.tokens]
    rw [Balanced, hunmoved.completions, hwaiting, supplied_congr hunmoved.completions]
    exact h

/-- In every registered instance, live or ended, the completions of a plain element and the tokens
parked at it make up the completions of the sources of the flows into it, with one more for the
first start event. -/
theorem completions_balanced {e : Engine} {id : String} {r : Registered} (h : e.Reachable)
    (hregistered : e.registered? id = some r) (hx : r.definition.Plain x) :
    r.current.completions x + r.current.waitingAt x =
      ((r.definition.flows.filter (·.target == x)).map fun f =>
        r.current.completions f.source).sum +
      if r.definition.startEvents.head?.map Node.id = some x then 1 else 0 := by
  obtain ⟨states, hbalanced, -⟩ := (lasting_balanced hx).registered h id r hregistered rfl
  exact hbalanced

namespace Engine

/-! ## Two flows to one task -/

/-- A fork with two flows to the same task. -/
def doubled : Definition :=
  { Definition.empty "doubled" with
    startEvents := [.unnamed "start"]
    endEvents := [.unnamed "end"]
    userTasks := [.unnamed "t"]
    gateways := [.unnamed "split" .parallel none]
    flows := [⟨"f1", "start", "split", none⟩, ⟨"f2", "split", "t", none⟩,
      ⟨"f3", "split", "t", none⟩, ⟨"f4", "t", "end", none⟩] }

lemma plain_doubled : doubled.Plain "t" where
  node g hg := by
    have hkind : (doubled.element? "t").map Element.kind = some .gateway := by rw [hg]; rfl
    exact absurd hkind (by decide)
  sources f hf htarget g hg := by
    have hsource : ∀ f ∈ doubled.flows, f.target = "t" → f.source = "split" := by decide
    have hsplit : doubled.element? "split" = some (.gateway (.unnamed "split" .parallel none)) := by
      decide
    rw [hsource f hf htarget, hsplit] at hg
    obtain rfl : Gateway.unnamed "split" .parallel none = g := by simpa using hg
    exact ⟨rfl, by decide⟩

/-- One of the two tokens at the task has gone on. -/
def halfDone : Engine :=
  ((small.call (.start doubled "key" none)).2.call (.proceed firstId (some "t") none)).2

lemma reachable_halfDone : halfDone.Reachable := (reachable_small.call _).call _

lemma halfDone_registered : (halfDone.registered? firstId).any (fun r =>
    r.definition == doubled && r.current.completions "t" == 1 && r.current.waitingAt "t" == 1) =
      true := by
  decide +kernel

/-- One completion and one token make up the two flows out of the fork. -/
theorem completions_balanced_doubled :
    ∃ r, halfDone.registered? firstId = some r ∧ r.definition.Plain "t" ∧
      r.current.completions "t" = 1 ∧ r.current.waitingAt "t" = 1 ∧
      r.current.completions "t" + r.current.waitingAt "t" =
        ((r.definition.flows.filter (·.target == "t")).map fun f =>
          r.current.completions f.source).sum +
        if r.definition.startEvents.head?.map Node.id = some "t" then 1 else 0 := by
  obtain ⟨r, hr, hbody⟩ := (Option.any_eq_true _ _).1 halfDone_registered
  simp only [Bool.and_eq_true, beq_iff_eq] at hbody
  obtain ⟨⟨hd, hcompleted⟩, hwaiting⟩ := hbody
  have hplain : r.definition.Plain "t" := hd ▸ plain_doubled
  exact ⟨r, hr, hplain, hcompleted, hwaiting, completions_balanced reachable_halfDone hr hplain⟩

end Engine

end ProcessEngine

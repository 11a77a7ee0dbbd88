import ProcessEngine.Proofs.Definition.Valid
import ProcessEngine.Proofs.Engine.CarriedForks
import ProcessEngine.Proofs.Engine.Failures

/-!
# Runs of accepted definitions

Under a definition that the checks accept, tokens only come to elements of the definition
(`lasting_known`) and every gateway has a way out, so a walk can fail only at its limit or at a
gateway that chooses among guarded flows and finds none open (`valid_failures`).  Of an exclusive
gateway at which that happens the checks have warned.
-/

namespace ProcessEngine

/-- A gateway found no flow to take: an inclusive one, or an exclusive one of which the checks warn
that it has no default. -/
def Definition.Unsatisfied (d : Definition) (err : EngineError) : Prop :=
  ∃ g ∈ d.gateways, err = .noSatisfiedFlow g.id ∧
    (g.kind = .inclusive ∨ g.kind = .exclusive ∧
      ∃ i ∈ d.issues, i.rule = "G3" ∧ i.severity = .warning ∧ i.subject = some g.id)

variable {d : Definition}

/-- The tokens in flight come to elements of the definition. -/
def Known (d : Definition) (pending : List Cursor) : Prop :=
  ∀ c ∈ pending, ∃ e, d.element? c.elementId = some e

/-- A token that leaves an element of an accepted definition comes to another one. -/
lemma known_leave (h : d.ensureValid = .ok ()) (x : String) (frames : List Frame) :
    Known d (d.leave x frames) := by
  intro c hc
  obtain ⟨f, hf, rfl⟩ := List.mem_map.1 hc
  exact Definition.target_of_valid h (List.mem_filter.1 hf).1

lemma known_cursors (h : d.ensureValid = .ok ()) {run : Run} {g : Gateway} {u : Uid}
    {frames stack : List Frame} {p : String} {issued issued' : Nat}
    {states states' : List GatewayState} {decision : Decision}
    (heff : (run.request d g u frames).Effect p issued states decision issued' states') :
    Known d (decision.cursors stack) := by
  intro c hc
  have hnext : c.elementId ∈ decision.next :=
    decision.map_elementId_cursors stack ▸ List.mem_map_of_mem hc
  obtain ⟨f, hf, htarget⟩ := List.mem_map.1 (heff.next_subset _ hnext)
  rw [← htarget]
  exact Definition.target_of_valid h (List.mem_filter.1 hf).1

/-- A visit sends tokens to elements of the definition only. -/
lemma Visited.known {s t : Stage} (hvalid : d.ensureValid = .ok ()) (h : Known d s.pending)
    (hv : Visited d s t) : Known d t.pending := by
  have happend : ∀ {next rest : List Cursor} {c : Cursor}, Known d next → Known d (c :: rest) →
      Known d (next ++ rest) := by
    intro next rest c hnext hrest x hx
    rcases List.mem_append.1 hx with hx | hx
    · exact hnext x hx
    · exact hrest x (List.mem_cons_of_mem c hx)
  cases hv with
  | @complete c => exact happend (known_leave hvalid c.elementId c.frames) h
  | userTask => exact fun x hx => h x (List.mem_cons_of_mem _ hx)
  | subProcess => exact fun x hx => h x (List.mem_cons_of_mem _ hx)
  | goOn now he heff => exact happend (known_cursors hvalid heff) h
  | absorbed => exact fun x hx => h x (List.mem_cons_of_mem _ hx)
  | offered => exact fun x hx => h x (List.mem_cons_of_mem _ hx)

/-- Throughout, the tokens in flight come to elements of the definition. -/
theorem lasting_known (hvalid : d.ensureValid = .ok ()) :
    Lasting d fun pending _ _ => Known d pending where
  start hfirst _ _ := by
    intro c hc
    rw [List.mem_singleton.1 hc]
    exact Definition.exists_startEvent (List.mem_of_head? hfirst)
  visited _ h hv := hv.known hvalid h
  taken {_ _ task token _} _ _ _ _ _ := known_leave hvalid task token.frames
  unmoved _ h := h

/-- A token that a gateway of an accepted definition refuses finds no flow open there. -/
lemma unsatisfied_of_refusal (hvalid : d.ensureValid = .ok ()) {run : Run} {g : Gateway} {u : Uid}
    {frames : List Frame} {err : EngineError} (hg : g ∈ d.gateways)
    (h : (run.request d g u frames).Refusal err) : d.Unsatisfied err := by
  cases h with
  | deadEnd hnone => exact absurd hnone (Definition.outgoing_of_valid hvalid hg)
  | noChoice hkind hnone =>
    have hdefault := Gateway.defaultAmong_of_exclusiveChoice hnone
    have hissue := Definition.noDefault_of_valid hvalid hg hkind hdefault
    exact ⟨g, hg, rfl, .inr ⟨hkind, _, hissue, rfl, rfl, rfl⟩⟩
  | noSelection hkind => exact ⟨g, hg, rfl, .inl hkind⟩

/-- A walk under an accepted definition fails at the limit, or where no flow is open. -/
lemma Halts.of_valid (hvalid : d.ensureValid = .ok ()) {limit : Nat} {err : EngineError}
    (h : Halts d limit err) :
    d.Unsatisfied err ∨ ∃ id, err = .traversalLimitExceeded id limit := by
  cases h with
  | limit id => exact .inr ⟨id, rfl⟩
  | @refused c rest run w err hreaches hrefused =>
    left
    obtain ⟨e, he⟩ := (lasting_known hvalid).reaches hreaches c List.mem_cons_self
    cases hrefused with
    | unknown hnone =>
      rw [hnone] at he
      cases he
    | gateway hg hcourse =>
      exact unsatisfied_of_refusal hvalid (Definition.mem_gateways hg)
        (Request.course_refuse hcourse)

/-- A task for which a token waits is an element of an accepted definition. -/
lemma exists_of_accepts (hvalid : d.ensureValid = .ok ()) {t : Token} {task : String}
    (hagrees : t.Agrees d) (haccepts : t.accepts task = true) :
    ∃ e, d.element? task = some e := by
  rw [Token.Agrees] at hagrees
  rw [Token.accepts] at haccepts
  cases hwait : t.wait with
  | userTask =>
    rw [hwait] at hagrees haccepts
    obtain ⟨n, hn⟩ := hagrees
    exact ⟨_, (show t.elementId = task by simpa using haccepts) ▸ hn⟩
  | subProcess =>
    rw [hwait] at hagrees haccepts
    obtain ⟨n, hn⟩ := hagrees
    exact ⟨_, (show t.elementId = task by simpa using haccepts) ▸ hn⟩
  | eventGateway candidates =>
    rw [hwait] at hagrees haccepts
    obtain ⟨g, -, -, rfl⟩ := hagrees
    obtain ⟨f, hf, rfl⟩ := List.mem_map.1
      (show task ∈ (d.outgoing g.id).map Flow.target by simpa using haccepts)
    exact Definition.target_of_valid hvalid (List.mem_filter.1 hf).1

namespace Engine

/-- A start under an accepted definition fails only where no flow is open, or at the limit.  An
instance with an accepted definition is continued unless it is not there, has ended, has no token
for the task or a suspended one, or fails for one of these two reasons. -/
theorem valid_failures {e : Engine} (h : e.Reachable) :
    (∀ (d : Definition) (businessKey : String) (vars : Option Variables) (err : EngineError),
      d.ensureValid = .ok () → (e.start d businessKey vars).1 = .error err →
        d.Unsatisfied err ∨
          ∃ id, err = .traversalLimitExceeded id e.config.maxTraversalSteps) ∧
    ∀ (id : String) (task : Option String) (updates : Option Variables) (err : EngineError),
      (∀ r, e.registered? id = some r → r.definition.ensureValid = .ok ()) →
      (e.continueInstance id task updates).1 = .error err →
        err = .instanceNotFound id ∨ err = .instanceEnded id ∨
        ∃ x, task = some x ∧ (err = .taskNotActive id x ∨ err = .tokenSuspended id x ∨
          ∃ r, e.registered? id = some r ∧ (r.definition.Unsatisfied err ∨
            ∃ id, err = .traversalLimitExceeded id e.config.maxTraversalSteps)) := by
  constructor
  · intro d businessKey vars err hvalid hfail
    cases start_error h hfail with
    | noStart hnone => exact absurd hnone (Definition.startEvents_of_valid hvalid)
    | halts hhalts => exact hhalts.of_valid hvalid
  · intro id task updates err hvalid hfail
    cases continueInstance_error h hfail with
    | unknown => exact .inl rfl
    | ended => exact .inr (.inl rfl)
    | @notActive task => exact .inr (.inr ⟨task, rfl, .inl rfl⟩)
    | @suspended task => exact .inr (.inr ⟨task, rfl, .inr (.inl rfl)⟩)
    | @noElement task r token hr hlive hfind hnone =>
      have hagrees := (h.sound.kept id r hr hlive).waits token (List.mem_of_find?_eq_some hfind)
      obtain ⟨element, helement⟩ :=
        exists_of_accepts (hvalid r hr) hagrees (by simpa using List.find?_some hfind)
      rw [hnone] at helement
      cases helement
    | @halts task r _ hr hhalts =>
      exact .inr (.inr ⟨task, rfl, .inr (.inr ⟨r, hr, hhalts.of_valid (hvalid r hr)⟩)⟩)

/-! ## A choice without a way out -/

/-- A choice with one guarded flow, after a task. -/
def undecided : Definition :=
  { Definition.empty "undecided" with
    startEvents := [.unnamed "start"]
    endEvents := [.unnamed "end"]
    userTasks := [.unnamed "t"]
    gateways := [.unnamed "choose" .exclusive none]
    flows := [⟨"f1", "start", "t", none⟩, ⟨"f2", "t", "choose", none⟩,
      ⟨"f3", "choose", "end", some "false"⟩] }

/-- The same choice right after the start. -/
def hasty : Definition :=
  { undecided with
    flows := ⟨"f0", "start", "choose", none⟩ :: undecided.flows }

/-- An instance that waits before the choice. -/
def beforeChoice : Engine := (small.call (.start undecided "key" none)).2

lemma reachable_beforeChoice : beforeChoice.Reachable := reachable_small.call _

/-- The choice is passed neither from the start nor from the task, and the checks warn of it. -/
theorem valid_failures_undecided :
    hasty.ensureValid = .ok () ∧ undecided.ensureValid = .ok () ∧
      (∃ err, (beforeChoice.start hasty "key" none).1 = .error err ∧
        (hasty.Unsatisfied err ∨
          ∃ id, err = .traversalLimitExceeded id beforeChoice.config.maxTraversalSteps)) ∧
      ∃ err, (beforeChoice.continueInstance firstId (some "t") none).1 = .error err ∧
        (err = .instanceNotFound firstId ∨ err = .instanceEnded firstId ∨
        ∃ x, some "t" = some x ∧ (err = .taskNotActive firstId x ∨ err = .tokenSuspended firstId x ∨
          ∃ r, beforeChoice.registered? firstId = some r ∧ (r.definition.Unsatisfied err ∨
            ∃ id, err = .traversalLimitExceeded id beforeChoice.config.maxTraversalSteps))) := by
  obtain ⟨hstart, hproceed⟩ := valid_failures reachable_beforeChoice
  have hhasty : hasty.ensureValid = .ok () := by decide +kernel
  have hundecided : undecided.ensureValid = .ok () := by decide +kernel
  have hregistered : ∀ r, beforeChoice.registered? firstId = some r →
      r.definition.ensureValid = .ok () := by
    intro r hr
    have hd : (beforeChoice.registered? firstId).all (·.definition == undecided) = true := by
      decide +kernel
    rw [hr, Option.all_some, beq_iff_eq] at hd
    rw [hd]
    exact hundecided
  have hstarted : (beforeChoice.start hasty "key" none).1 =
      .error (.noSatisfiedFlow "choose") := error_of_failure? (by decide +kernel)
  have hproceeded : (beforeChoice.continueInstance firstId (some "t") none).1 =
      .error (.noSatisfiedFlow "choose") := error_of_failure? (by decide +kernel)
  exact ⟨hhasty, hundecided, ⟨_, hstarted, hstart hasty "key" none _ hhasty hstarted⟩,
    _, hproceeded, hproceed firstId (some "t") none _ hregistered hproceeded⟩

end Engine

end ProcessEngine

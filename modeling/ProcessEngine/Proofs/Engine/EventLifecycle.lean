import ProcessEngine.Proofs.Engine.CarriedForks
import ProcessEngine.Proofs.Engine.Successes
import ProcessEngine.Proofs.Event.Shape

/-!
# The lifecycle of events

What an engine publishes of one instance tells its life.  `Told` says which words the names of its
events can form, depending on whether the instance is live, has ended, or is not registered; a call
lengthens the word in one of a few ways (`Told.success`), so that after any calls it has the shape
of a life.  The end is told by the call that brings it, and the tasks that a call creates are the
ones that it leaves to be done (`events_follow_lifecycle`).
-/

namespace ProcessEngine

/-! ## What is published -/

lemma EventBus.published_publishAll (b : EventBus) (es : List Event) :
    (b.publishAll es).published.toList = b.published.toList ++ es := by
  induction es generalizing b with
  | nil => exact (List.append_nil _).symm
  | cons e rest ih =>
    rw [publishAll, List.foldl_cons, ← publishAll, ih, publish, Array.toList_push,
      List.append_assoc]
    rfl

/-- Whether an event reports that a task was created. -/
def Event.isCreation : Event → Bool
  | .taskCreated .. => true
  | _ => false

lemma Event.instanceId?_of_isEvaluation {e : Event} (h : e.isEvaluation = true) :
    e.instanceId? = none ∧ e.isCreation = false := by
  cases e <;> first | exact ⟨rfl, rfl⟩ | cases h

namespace Engine

/-- The engines that calls lead to, if all that was published was published on one bus; listeners
may come to it and go, and the coordinator may be used for compensation. -/
inductive Heard : Engine → Prop
  | new (config : Config) (clock : Nat → Instant) : Heard (.new config (.start clock))
  | call {e : Engine} (h : Heard e) (c : Call) : Heard (e.call c).2
  | withCoordinator {e : Engine} (h : Heard e) (c : Compensation.Coordinator) :
      Heard (e.withCoordinator c)
  | withBus {e : Engine} (h : Heard e) {b : EventBus}
      (hb : b.published = e.workspace.bus.published) : Heard (e.withBus b)

/-- The events that were published of an instance. -/
def eventsOf (e : Engine) (id : String) : List Event :=
  e.workspace.bus.published.toList.filter (·.instanceId? == some id)

/-- The events that a call publishes. -/
def publishedBy (e : Engine) (c : Call) : List Event :=
  (e.call c).2.workspace.bus.published.toList.drop e.workspace.bus.published.size

/-- The tokens of an instance at user tasks that were not parked before. -/
def newTasks (e : Engine) (i : Instance) : List Token :=
  i.tokens.filter fun t => t.isTask && (e.tokensOf i.id).all (·.id != t.id)

variable {e : Engine}

lemma Heard.reachable (h : Heard e) : e.Reachable := by
  induction h with
  | new config clock => exact .new config clock
  | call h c ih => exact ih.call c
  | withCoordinator h c ih => exact ih.withCoordinator c
  | @withBus e h b hb ih => exact ih.withBus b

/-- The identifiers of parked tokens were issued. -/
theorem Reachable.tokens_issued (h : e.Reachable) :
    ∀ id, ∀ t ∈ e.tokensOf id, t.id.value ≤ e.workspace.supply.issued := by
  induction h with
  | new config clock => nofun
  | @call e h c ih =>
    have hcomes := call_comes h.sound c
    generalize e.call c = result at hcomes
    cases hcomes with
    | failed hunseen =>
      intro id t ht
      exact Nat.le_trans (ih id t ht) hunseen.issued
    | @succeeded d run e' ts es hsuccess hsettled =>
      intro id t ht
      rw [tokensOf, get?, hsettled.registered] at ht
      split_ifs at ht with hid
      · cases ht
      · obtain ⟨kept, htokens, hkept⟩ := hsuccess.tokens
        have hmem : t ∈ kept ++ ts := htokens ▸ ht
        rcases List.mem_append.1 hmem with hmem | hmem
        · obtain ⟨o, ho, heq⟩ := hkept t hmem
          rw [← heq]
          exact Nat.le_trans (ih _ o ho) hsettled.issued
        · exact (hsuccess.fresh t hmem).2
      · exact Nat.le_trans (ih id t ht) hsettled.issued
  | withCoordinator h c ih => exact ih
  | withBus h b ih => exact ih

end Engine

/-! ## What calls tell -/

lemma Definition.of_mem_creations {d : Definition} {p : String} {ts : List Token} {x : Event}
    (h : x ∈ d.creations p ts) :
    x.name = "task.created" ∧ x.instanceId? = some p ∧ x.isCreation = true := by
  obtain ⟨t, -, rfl⟩ := List.mem_map.1 h
  exact ⟨rfl, rfl, rfl⟩

namespace Call.Tells

variable {c : Call} {i : Instance} {d : Definition} {ts : List Token} {told : List Event}

/-- All that is told is told of the instance. -/
lemma instanceId? (h : c.Tells i (d.creations i.id ts) told) :
    ∀ x ∈ told, x.instanceId? = some i.id := by
  have hcreated : ∀ x ∈ d.creations i.id ts, x.instanceId? = some i.id := fun x hx =>
    (Definition.of_mem_creations hx).2.1
  have hending : ∀ x ∈ i.ending, x.instanceId? = some i.id := by
    intro x hx
    rw [Instance.ending] at hx
    split_ifs at hx
    · rw [List.mem_singleton.1 hx]
      rfl
    · cases hx
  generalize d.creations i.id ts = created at h hcreated
  intro x hx
  cases h with
  | start d' businessKey vars =>
    simp only [List.mem_append, List.mem_singleton] at hx
    rcases hx with ((rfl | hx) | rfl) | hx
    · rfl
    · exact hcreated x hx
    · rfl
    · exact hending x hx
  | proceed task updates hid =>
    simp only [List.mem_append, List.mem_singleton] at hx
    rcases hx with (rfl | hx) | hx
    · rw [hid]
      rfl
    · exact hcreated x hx
    · exact hending x hx
  | suspend element elements hid hlive | resume element elements hid hlive
  | terminate reason hid hended =>
    simp only [List.mem_cons, List.not_mem_nil, or_false] at hx
    rcases hx with rfl | rfl <;> rw [hid] <;> rfl

/-- The tasks that are told to be created. -/
lemma filter_isCreation (h : c.Tells i (d.creations i.id ts) told) :
    told.filter (·.isCreation) = d.creations i.id ts := by
  have hcreated : (d.creations i.id ts).filter (·.isCreation) = d.creations i.id ts :=
    List.filter_eq_self.2 fun x hx => (Definition.of_mem_creations hx).2.2
  have hending : i.ending.filter (·.isCreation) = [] := by
    rw [Instance.ending]
    split_ifs <;> rfl
  generalize d.creations i.id ts = created at h hcreated
  cases h with
  | start =>
    simp only [List.filter_append, hcreated, hending, List.append_nil]
    exact List.append_nil _
  | proceed =>
    simp only [List.filter_append, hcreated, hending, List.append_nil]
    rfl
  | suspend | resume | terminate => rfl

/-- The end is told by calls that move tokens, if the instance has ended. -/
lemma processEnd_mem (h : c.Tells i (d.creations i.id ts) told) (id : String) :
    .processEnd id ∈ told ↔ c.moves = true ∧ i.id = id ∧ i.isEnded = true := by
  have hcreated : Event.processEnd id ∉ d.creations i.id ts := fun hmem => by
    cases (Definition.of_mem_creations hmem).2.2
  have hending : Event.processEnd id ∈ i.ending ↔ i.id = id ∧ i.isEnded = true := by
    rw [Instance.ending]
    by_cases hended : i.isEnded = true <;> simp [hended, eq_comm]
  generalize d.creations i.id ts = created at h hcreated
  cases h with
  | start => simp [hcreated, hending, Call.moves]
  | proceed => simp [hcreated, hending, Call.moves]
  | suspend | resume | terminate => simp [Call.moves]

/-- The names of the tasks that are created. -/
lemma tasks_creations (d : Definition) (p : String) (ts : List Token) :
    (d.creations p ts).map Event.name ∈ Life.tasks.matches' := by
  refine Life.tasks_of_forall fun a ha => ?_
  obtain ⟨x, hx, rfl⟩ := List.mem_map.1 ha
  exact (Definition.of_mem_creations hx).1

/-- What a start tells opens the life of an instance. -/
lemma opens (h : c.Tells i (d.creations i.id ts) told) (hc : c.starts = true) :
    told.map Event.name ∈ (Life.phase i.isEnded).matches' := by
  have hcreated := tasks_creations d i.id ts
  generalize d.creations i.id ts = created at h hcreated
  cases h with
  | start d' businessKey vars =>
    have hopening : ["process.start"] ++ created.map Event.name ++ ["process.started"] ∈
        Life.opening.matches' :=
      Life.append_mem (Life.append_mem (Life.mem_char _) hcreated) (Life.mem_char _)
    rw [List.map_append, List.map_append, List.map_append, Instance.ending]
    cases i.isEnded with
    | false =>
      rw [if_neg Bool.false_ne_true, List.map_nil, List.append_nil]
      exact Life.alive_of_opening hopening
    | true => exact Life.ended_of_opening hopening
  | _ => cases hc

/-- What is told when an instance is continued, suspended or resumed carries its life on. -/
lemma carriesOn (h : c.Tells i (d.creations i.id ts) told) (hc : c.starts = false)
    (hc' : c.isTermination = false) {w : List String} (hw : w ∈ Life.alive.matches') :
    w ++ told.map Event.name ∈ (Life.phase i.isEnded).matches' := by
  have hcreated := tasks_creations d i.id ts
  generalize d.creations i.id ts = created at h hcreated
  cases h with
  | start => cases hc
  | terminate => cases hc'
  | proceed task updates hid =>
    have hcontinued : ["process.continue"] ++ created.map Event.name ∈
        (RegularExpression.char "process.continue" * Life.tasks).matches' :=
      Life.append_mem (Life.mem_char _) hcreated
    rw [List.map_append, List.map_append, Instance.ending]
    cases i.isEnded with
    | false =>
      rw [if_neg Bool.false_ne_true, List.map_nil, List.append_nil]
      exact Life.alive_append_round hw (Life.mem_add_left (Life.mem_add_left hcontinued))
    | true => exact Life.alive_append_closing hw (Life.append_mem hcontinued (Life.mem_char _))
  | suspend element elements hid hlive =>
    rw [hlive]
    exact Life.alive_append_round hw (Life.mem_add_left (Life.mem_add_right
      (Life.append_mem (Life.mem_char _) (Life.mem_char _))))
  | resume element elements hid hlive =>
    rw [hlive]
    exact Life.alive_append_round hw (Life.mem_add_right
      (Life.append_mem (Life.mem_char _) (Life.mem_char _)))

/-- What a termination tells. -/
lemma terminates (h : c.Tells i (d.creations i.id ts) told) (hc : c.isTermination = true) :
    told.map Event.name = ["process.terminate", "process.terminated"] := by
  generalize d.creations i.id ts = created at h
  cases h with
  | terminate => rfl
  | _ => cases hc

end Call.Tells

/-! ## The events of an instance -/

namespace Engine

/-- The names of the events that were published of an instance. -/
def story (e : Engine) (id : String) : List String := (e.eventsOf id).map Event.name

variable {e e' : Engine} {es fs : List Event} {id : String}

/-- Evaluations belong to no instance. -/
lemma story_of_bus (he : ∀ x ∈ es, x.isEvaluation = true) {p : String}
    (hf : ∀ x ∈ fs, x.instanceId? = some p)
    (hbus : e'.workspace.bus = e.workspace.bus.publishAll (es ++ fs)) (id : String) :
    e'.story id = e.story id ++ if p = id then fs.map Event.name else [] := by
  have hevaluations : es.filter (·.instanceId? == some id) = [] := by
    refine List.filter_eq_nil_iff.2 fun x hx => ?_
    rw [(Event.instanceId?_of_isEvaluation (he x hx)).1]
    simp
  have htold : fs.filter (·.instanceId? == some id) = if p = id then fs else [] := by
    split_ifs with hp
    · exact List.filter_eq_self.2 fun x hx => by simp [hf x hx, hp]
    · exact List.filter_eq_nil_iff.2 fun x hx => by simp [hf x hx, hp]
  rw [story, eventsOf, hbus, EventBus.published_publishAll, List.filter_append, List.filter_append,
    hevaluations, htold, List.nil_append, List.map_append, story, eventsOf]
  split_ifs <;> rfl

lemma publishedBy_of_bus {c : Call}
    (hbus : (e.call c).2.workspace.bus = e.workspace.bus.publishAll es) : e.publishedBy c = es := by
  rw [publishedBy, hbus, EventBus.published_publishAll, ← Array.length_toList, List.drop_left]

end Engine

/-- What is told of an instance so far, depending on whether it is registered and has ended. -/
structure Told (e : Engine) (id : String) : Prop where
  registered : ∀ r, e.registered? id = some r →
    e.story id ∈ (Life.phase r.current.isEnded).matches'
  gone : e.registered? id = none → e.story id ∈ Life.shape.matches'
  issued : e.story id ≠ [] → Issued e.workspace.supply.issued id

namespace Told

variable {e e' : Engine} {id : String}

/-- Nothing was told of the instance. -/
lemma congr (h : Told e id) (hstory : e'.story id = e.story id)
    (hregistered : e'.registered? id = e.registered? id)
    (hissued : e.workspace.supply.issued ≤ e'.workspace.supply.issued) : Told e' id where
  registered r hr := by
    rw [hstory]
    exact h.registered r (hregistered ▸ hr)
  gone hnone := by
    rw [hstory]
    exact h.gone (hregistered ▸ hnone)
  issued hne := by
    rw [hstory] at hne
    exact (h.issued hne).mono hissued

/-- At every time the story of an instance has the shape of a life. -/
lemma shaped (h : Told e id) : e.story id ∈ Life.shape.matches' := by
  cases hr : e.registered? id with
  | none => exact h.gone hr
  | some r => exact Life.shape_of_course (Life.course_of_phase (h.registered r hr))

/-- A call succeeds on the instance. -/
lemma success (h : Told e id) (hsound : e.Sound) (hsound' : e'.Sound) {c : Call} {d : Definition}
    {run : Run} {ts : List Token} {es : List HistoryEntry} (hid : run.current.id = id)
    (hsuccess : e.Success c d run e'.workspace.supply.issued ts es)
    (hsettled : e.Settled c d run e') : Told e' id := by
  obtain ⟨evaluations, hevaluations, hbus⟩ := hsettled.bus
  have htells := hsuccess.tells
  have hstory := Engine.story_of_bus hevaluations htells.instanceId? hbus id
  have hregistered := hsettled.registered id
  have hissued := hsuccess.issued hsound hsound' hsettled
  have hconcerns := hsuccess.concerns
  rw [if_pos hid] at hstory
  rw [if_pos hid.symm] at hregistered
  rw [hid] at hissued hconcerns
  refine ⟨fun r hr => ?_, fun hnone => ?_, fun _ => hissued⟩
  · rw [hregistered] at hr
    split_ifs at hr with hterminated
    cases hr
    rw [hstory]
    cases hconcerns with
    | new d businessKey vars =>
      have hnothing : e.story e.workspace.supply.instanceId.1 = [] := by
        by_contra hne
        exact (h.issued hne).ne_instanceId rfl
      rw [hnothing]
      exact htells.opens rfl
    | known hc hknown hlive =>
      have halive := h.registered _ hknown
      rw [hlive (Bool.eq_false_iff.2 hterminated)] at halive
      exact htells.carriesOn hc (Bool.eq_false_iff.2 hterminated) halive
  · rw [hregistered] at hnone
    split_ifs at hnone with hterminated
    rw [hstory, htells.terminates hterminated]
    cases hconcerns with
    | new => cases hterminated
    | known hc hknown =>
      exact Life.shape_terminated (Life.course_of_phase (h.registered _ hknown))

/-- A call, whatever comes of it. -/
theorem call (h : Told e id) (hreachable : e.Reachable) (c : Call) : Told (e.call c).2 id := by
  have hsound' := (hreachable.call c).sound
  have hcomes := Engine.call_comes hreachable.sound c
  generalize e.call c = result at hcomes hsound'
  cases hcomes with
  | @failed err w hunseen =>
    obtain ⟨es, hes, hbus⟩ := hunseen.published
    have hstory : Engine.story { e with workspace := w } id = e.story id := by
      have hnothing : ∀ x ∈ ([] : List Event), x.instanceId? = some id := nofun
      rw [Engine.story_of_bus hes hnothing (by rw [List.append_nil]; exact hbus) id, if_pos rfl]
      exact List.append_nil _
    exact h.congr hstory rfl hunseen.issued
  | @succeeded d run e' ts es hsuccess hsettled =>
    by_cases hid : run.current.id = id
    · exact h.success hreachable.sound hsound' hid hsuccess hsettled
    · obtain ⟨evaluations, hevaluations, hbus⟩ := hsettled.bus
      refine h.congr ?_ ?_ hsettled.issued
      · rw [Engine.story_of_bus hevaluations hsuccess.tells.instanceId? hbus, if_neg hid,
          List.append_nil]
      · rw [hsettled.registered, if_neg (Ne.symm hid)]

end Told

namespace Engine

variable {e : Engine}

lemma Heard.told (h : Heard e) (id : String) : Told e id := by
  induction h with
  | new config clock => exact ⟨nofun, fun _ => .inl rfl, fun hne => absurd rfl hne⟩
  | call h c ih => exact ih.call h.reachable c
  | withCoordinator h c ih => exact ih.congr rfl rfl (Nat.le_refl _)
  | @withBus e h b hb ih =>
    refine ih.congr ?_ rfl (Nat.le_refl _)
    rw [story, eventsOf, story, eventsOf]
    rw [show (e.withBus b).workspace.bus.published = e.workspace.bus.published from hb]

/-! ## The tasks of a call -/

/-- The new tokens of an instance are those whose identifiers were issued in the call. -/
lemma Success.newTasks_eq (h : e.Reachable) {c : Call} {d : Definition} {run : Run} {issued : Nat}
    {ts : List Token} {es : List HistoryEntry} (hsuccess : e.Success c d run issued ts es) :
    e.newTasks run.current = ts.filter (·.isTask) := by
  obtain ⟨kept, htokens, hkept⟩ := hsuccess.tokens
  have hold : kept.filter (fun t => t.isTask &&
      (e.tokensOf run.current.id).all (·.id != t.id)) = [] := by
    refine List.filter_eq_nil_iff.2 fun t ht hnew => ?_
    obtain ⟨o, ho, heq⟩ := hkept t ht
    rw [Bool.and_eq_true, List.all_eq_true] at hnew
    simpa [heq] using hnew.2 o ho
  have hnew : ts.filter (fun t => t.isTask &&
      (e.tokensOf run.current.id).all (·.id != t.id)) = ts.filter (·.isTask) := by
    refine List.filter_congr fun t ht => ?_
    have hall : (e.tokensOf run.current.id).all (·.id != t.id) = true := by
      refine List.all_eq_true.2 fun o ho => ?_
      have hissued := h.tokens_issued _ o ho
      have hfresh := (hsuccess.fresh t ht).1
      refine bne_iff_ne.2 fun heq => ?_
      rw [heq] at hissued
      omega
    rw [hall, Bool.and_true]
  rw [newTasks, htokens, List.filter_append, hold, hnew, List.nil_append]

/-- The instance that a call is about has not ended before, unless the call terminates it. -/
lemma Concerns.live {c : Call} {d : Definition} {id : String} (h : e.Concerns c d id)
    (hsound : e.Sound) (hc : c.isTermination = false) :
    ∀ i, e.get? id = some i → i.isEnded = false := by
  intro i hi
  cases h with
  | new =>
    rw [get?, hsound.registered?_instanceId] at hi
    cases hi
  | known _ hr hlive =>
    rw [get?_of_registered hr] at hi
    cases hi
    exact hlive hc

/-- What the events of one call tell: the end of an instance if the call has brought it, and the
tasks that it has created. -/
structure Reports (e : Engine) (c : Call) (result : Except EngineError Instance) (e' : Engine)
    (events : List Event) : Prop where
  published : e'.workspace.bus.published.toList = e.workspace.bus.published.toList ++ events
  ends : ∀ id, .processEnd id ∈ events ↔ c.moves = true ∧ ∃ i, result = .ok i ∧ i.id = id ∧
    i.isEnded = true ∧ ∀ j, e.get? id = some j → j.isEnded = false
  creations : ∀ i, result = .ok i → ∃ d,
    (c.isTermination = false → e'.registered? i.id = some ⟨i, d⟩) ∧
      events.filter (·.isCreation) = (e.newTasks i).map (d.created i.id)
  nothing : ∀ err, result = .error err → events.filter (·.isCreation) = []

lemma filter_isCreation_evaluations {es : List Event} (h : ∀ x ∈ es, x.isEvaluation = true) :
    es.filter (·.isCreation) = [] :=
  List.filter_eq_nil_iff.2 fun x hx => by simp [(Event.instanceId?_of_isEvaluation (h x hx)).2]

lemma processEnd_not_mem_evaluations {es : List Event} (h : ∀ x ∈ es, x.isEvaluation = true)
    (id : String) : .processEnd id ∉ es := fun hmem => by
  cases h _ hmem

/-- A call that fails reports nothing of an instance. -/
lemma Reports.failed {c : Call} {err : EngineError} {e' : Engine} {es : List Event}
    (hes : ∀ x ∈ es, x.isEvaluation = true)
    (hbus : e'.workspace.bus = e.workspace.bus.publishAll es) :
    Reports e c (.error err) e' es where
  published := by rw [hbus, EventBus.published_publishAll]
  ends id := by
    refine ⟨fun hmem => absurd hmem (processEnd_not_mem_evaluations hes id), ?_⟩
    rintro ⟨-, i, hi, -⟩
    cases hi
  creations := nofun
  nothing _ _ := filter_isCreation_evaluations hes

/-- A call that succeeds reports the tasks that it leaves to be done, and the end if it has brought
it. -/
lemma Reports.succeeded (h : e.Reachable) {c : Call} {d : Definition} {run : Run} {e' : Engine}
    {issued : Nat} {ts : List Token} {es : List Event} {entries : List HistoryEntry}
    (hsuccess : e.Success c d run issued ts entries) (hsettled : e.Settled c d run e')
    (hes : ∀ x ∈ es, x.isEvaluation = true)
    (hbus : e'.workspace.bus = e.workspace.bus.publishAll (es ++ run.events)) :
    Reports e c (.ok run.current) e' (es ++ run.events) where
  published := by rw [hbus, EventBus.published_publishAll]
  ends id := by
    have htells := hsuccess.tells.processEnd_mem id
    rw [List.mem_append, or_iff_right (processEnd_not_mem_evaluations hes id), htells]
    constructor
    · rintro ⟨hmoves, rfl, hended⟩
      refine ⟨hmoves, run.current, rfl, rfl, hended, hsuccess.concerns.live h.sound ?_⟩
      cases c <;> first | rfl | cases hmoves
    · rintro ⟨hmoves, i, hi, hid, hended, -⟩
      cases hi
      exact ⟨hmoves, hid, hended⟩
  creations i hi := by
    cases hi
    refine ⟨d, fun hc => ?_, ?_⟩
    · rw [hsettled.registered, if_pos rfl, hc]
      rfl
    · rw [List.filter_append, filter_isCreation_evaluations hes, hsuccess.tells.filter_isCreation,
        hsuccess.newTasks_eq h]
      rfl
  nothing := nofun

/-- The events of an instance follow its life.  At every time the events that were published of an
instance form, in the order of publication, a word of the shape of a life.  What a call publishes
has the end of an instance in it exactly if the call starts or continues the instance and thereby
ends it, and the tasks created in it are, in order, those at which the call has parked tokens of the
instance that it returns. -/
theorem events_follow_lifecycle (h : Heard e) :
    (∀ id, e.story id ∈ Life.shape.matches') ∧
      ∀ c, Reports e c (e.call c).1 (e.call c).2 (e.publishedBy c) := by
  refine ⟨fun id => (h.told id).shaped, fun c => ?_⟩
  have hcomes := call_comes h.reachable.sound c
  generalize hresult : e.call c = result at hcomes
  cases hcomes with
  | @failed err w hunseen =>
    obtain ⟨es, hes, hbus⟩ := hunseen.published
    rw [publishedBy_of_bus (show (e.call c).2.workspace.bus = _ by rw [hresult]; exact hbus)]
    exact .failed hes hbus
  | @succeeded d run e' ts entries hsuccess hsettled =>
    obtain ⟨es, hes, hbus⟩ := hsettled.bus
    rw [publishedBy_of_bus (show (e.call c).2.workspace.bus = _ by rw [hresult]; exact hbus)]
    exact .succeeded h.reachable hsuccess hsettled hes hbus

lemma Heard.after (h : Heard e) (cs : List Call) : Heard (e.after cs) := by
  induction cs generalizing e with
  | nil => exact h
  | cons c rest ih => exact ih (h.call c)

/-- Two tasks side by side. -/
def chores : Definition :=
  { Definition.empty "chores" with
    startEvents := [.unnamed "start"]
    endEvents := [.unnamed "end"]
    userTasks := [⟨"wash", some "Wash up"⟩, .unnamed "sweep"]
    gateways := [.unnamed "fork" .parallel none, .unnamed "join" .parallel none]
    flows := [⟨"f1", "start", "fork", none⟩, ⟨"f2", "fork", "wash", none⟩,
      ⟨"f3", "fork", "sweep", none⟩, ⟨"f4", "wash", "join", none⟩, ⟨"f5", "sweep", "join", none⟩,
      ⟨"f6", "join", "end", none⟩] }

/-- One of two tasks is done, and the other one was put off for a while. -/
def oneChoreLeft : Engine :=
  small.after [.start chores "key" none, .proceed firstId (some "wash") none,
    .suspend firstId (some "sweep"), .resume firstId none]

lemma heard_oneChoreLeft : Heard oneChoreLeft := (Heard.new _ _).after _

/-- The second of two tasks is about to end the instance. -/
theorem events_follow_lifecycle_chores :
    Heard oneChoreLeft ∧
      oneChoreLeft.story firstId = ["process.start", "task.created", "task.created",
        "process.started", "process.continue", "process.suspend", "process.suspended",
        "process.resume", "process.resumed"] ∧
      oneChoreLeft.ends (.proceed firstId (some "sweep") none) = true ∧
      (∀ id, oneChoreLeft.story id ∈ Life.shape.matches') ∧
      ∀ c, Reports oneChoreLeft c (oneChoreLeft.call c).1 (oneChoreLeft.call c).2
        (oneChoreLeft.publishedBy c) :=
  ⟨heard_oneChoreLeft, by decide +kernel, by decide +kernel,
    events_follow_lifecycle heard_oneChoreLeft⟩

end Engine

end ProcessEngine

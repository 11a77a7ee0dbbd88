import ProcessEngine.Proofs.Engine.CompensationLog
import ProcessEngine.Proofs.Isolation.Calls
import ProcessEngine.Proofs.Isolation.Desks

/-!
# Instances do not interfere

A session is a run of steps: calls to one engine, whose store and coordinator all instances share,
and operations of its coordinator.  Every call finds its own surroundings, that is the times that it
will read and the identifiers that it will be given, none of which was given out before.

An instance is not interfered with (`Session.noninterference`): without the steps that concern other
instances, the remaining steps, each in the same surroundings as before, are answered as before, and
what is left of the instance is the same.  Only the coordinator numbers all records with one
counter, so the numbers of records are others, in the same order.

The proof goes along the session.  A step for the instance is made in both runs and keeps
`Session.Matches` (`Matches.follow`); a step for another instance is made in one of them, which the
instance does not see, but for the numbers still to come (`Matches.skip`).
-/

namespace ProcessEngine

open Compensation (Answer Completion Desk Plan)

/-! ## Sessions -/

/-- A step of a session: a call to the engine in the surroundings that it finds, or an operation of
its coordinator. -/
inductive Step
  | call (supply : Supply) (c : Call)
  | operate (o : Compensation.Operation)

/-- Whether a step concerns an instance. -/
def Step.concerns (p : String) : Step → Bool
  | .call supply c => c.target supply == p
  | .operate o => o.instanceId == p

/-- What comes back from a step. -/
inductive Response
  | returned (result : Except EngineError Instance)
  | answered (a : Answer)

namespace Response

/-- A response with the new numbers of records. -/
def renumber (σ : Nat → Nat) : Response → Response
  | .returned result => .returned result
  | .answered a => .answered (a.renumber σ)

/-- The numbers of records in a response. -/
def sequences : Response → List Nat
  | .returned _ => []
  | .answered a => a.sequences

lemma renumber_congr {σ τ : Nat → Nat} {r : Response} (h : ∀ n ∈ r.sequences, τ n = σ n) :
    r.renumber τ = r.renumber σ := by
  cases r with
  | returned => rfl
  | answered a => exact congrArg Response.answered (Answer.renumber_congr h)

end Response

/-- An engine, and the plans that were made with its coordinator in order. -/
structure Session where
  engine : Engine
  plans : List Plan

namespace Session

/-- The coordinator of the engine with its plans. -/
def desk? (s : Session) : Option Desk := s.engine.coordinator.map (⟨·, s.plans⟩)

/-- The session after a call in given surroundings. -/
def afterCall (s : Session) (supply : Supply) (c : Call) : Session :=
  { s with engine := ((s.engine.withSupply supply).call c).2 }

/-- Carries out a step.  An operation is not answered without a coordinator, nor if the desk has no
answer. -/
def perform (s : Session) : Step → Option (Response × Session)
  | .call supply c =>
    some (.returned ((s.engine.withSupply supply).call c).1, s.afterCall supply c)
  | .operate o =>
    (s.desk?.bind (·.perform o)).map fun (a, d) =>
      (.answered a, ⟨s.engine.withCoordinator d.coordinator, d.plans⟩)

/-- The sessions that begin: nothing has happened to the engine, nor to its coordinator. -/
inductive Opens : Session → Prop
  | plain (config : Config) (clock : Nat → Instant) : Opens ⟨.new config (.start clock), []⟩
  | wired (config : Config) (clock : Nat → Instant) (policy : RetryPolicy) :
      Opens ⟨(Engine.new config (.start clock)).withCoordinator (.new policy), []⟩

/-- Whether no identifier that a step will be given was given out before. -/
def Accepts (s : Session) : Step → Prop
  | .call supply _ => s.engine.workspace.supply.issued ≤ supply.issued
  | .operate _ => True

/-- The steps of a session with the responses to them. -/
inductive Runs : Session → List (Step × Response) → Session → Prop
  | nil (s : Session) : Runs s [] s
  | cons {s t u : Session} {step : Step} {response : Response} {rest : List (Step × Response)}
      (haccepts : s.Accepts step) (hstep : s.perform step = some (response, t))
      (hrest : Runs t rest u) : Runs s ((step, response) :: rest) u

/-- What is left of an instance by two sessions is the same, but for the numbers of its records: the
registered instance, its gateway states in order and the generations of its gateways, the events
published about it, and its records, scopes, subscriptions, handlers and plans.  All that can be
asked about an instance without a change to it is read off these. -/
structure SameView (σ : Nat → Nat) (p : String) (s s' : Session) : Prop where
  registered : s.engine.registered? p = s'.engine.registered? p
  store : s.engine.workspace.store.Agree p s'.engine.workspace.store
  events : s.engine.eventsOf p = s'.engine.eventsOf p
  desk : Option.Rel (Desk.SameView σ p) s.desk? s'.desk?

/-- What is left of an instance by two sessions is the same, and will be.  The second session may be
behind. -/
structure Matches (σ : Nat → Nat) (p : String) (s s' : Session) : Prop where
  numbering : StrictMono σ
  sound : s.engine.Sound
  sound' : s'.engine.Sound
  config : s.engine.config = s'.engine.config
  registered : s.engine.registered? p = s'.engine.registered? p
  store : s.engine.workspace.store.Agree p s'.engine.workspace.store
  issued : s'.engine.workspace.supply.issued ≤ s.engine.workspace.supply.issued
  events : s.engine.eventsOf p = s'.engine.eventsOf p
  desk : Option.Rel (Desk.Matches σ p) s.desk? s'.desk?

/-- The last number that was given out, if any. -/
def lastSequence (s : Session) : Nat := s.desk?.elim 0 (·.coordinator.lastSequence)

variable {σ : Nat → Nat} {p : String} {s s' t t' : Session} {step : Step} {response : Response}

lemma Matches.sameView (h : s.Matches σ p s') : s.SameView σ p s' := by
  refine ⟨h.registered, h.store, h.events, ?_⟩
  have hdesk := h.desk
  generalize s.desk? = d, s'.desk? = d' at hdesk
  cases hdesk with
  | none => exact .none
  | some hdesk => exact .some hdesk.sameView

lemma Matches.opens (h : s.Opens) (p : String) : s.Matches id p s := by
  have hmatches : ∀ {e : Engine}, e.Sound →
      (∀ c, e.coordinator = some c → c.Matches id p c) → Session.Matches id p ⟨e, []⟩ ⟨e, []⟩ := by
    intro e hsound hc
    refine ⟨strictMono_id, hsound, hsound, rfl, rfl, .refl _ _, Nat.le_refl _, rfl, ?_⟩
    rw [desk?]
    cases hcoordinator : e.coordinator with
    | none => exact .none
    | some c => exact .some ⟨hc c hcoordinator, rfl, nofun⟩
  cases h with
  | plain config clock =>
    refine hmatches (.new config clock) fun c hc => ?_
    simp only [Engine.new] at hc
    split_ifs at hc
    cases hc
    exact .new p config.retry
  | wired config clock policy =>
    refine hmatches ((Engine.Sound.new config clock).congr rfl rfl rfl) fun c hc => ?_
    cases hc
    exact .new p policy

/-! ## Surroundings -/

/-- An engine stays in good order whatever surroundings it finds. -/
lemma sound_withSupply {e : Engine} (h : e.Sound) {supply : Supply}
    (hissued : e.workspace.supply.issued ≤ supply.issued) : (e.withSupply supply).Sound where
  workspace := ⟨h.workspace.keyed.mono hissued, h.workspace.joins, h.workspace.forks⟩
  known id r hr := ⟨(h.known id r hr).1, (h.known id r hr).2.mono hissued⟩
  stored := h.stored
  kept := h.kept
  ended := h.ended

/-- Two engines that agree on an instance still do in the same surroundings. -/
lemma Matches.agree (h : s.Matches σ p s') {supply : Supply}
    (hissued : s.engine.workspace.supply.issued ≤ supply.issued) :
    (s.engine.withSupply supply).Agree p (s'.engine.withSupply supply) :=
  ⟨h.config, h.registered, rfl, h.store, h.sound.workspace.keyed.mono hissued,
    h.sound'.workspace.keyed.mono (Nat.le_trans h.issued hissued)⟩

/-! ## Steps for the instance -/

/-- The same completed tasks are recorded at both desks. -/
lemma Matches.recorded (h : s.Matches σ p s') {e e' : Engine} {completions : List Completion}
    (hc : e.coordinator = (s.engine.recordCompletions completions).coordinator)
    (hc' : e'.coordinator = (s'.engine.recordCompletions completions).coordinator) :
    Option.Rel (Desk.Matches σ p) (Session.mk e s.plans).desk? (Session.mk e' s'.plans).desk? ∧
      s'.lastSequence ≤ (Session.mk e' s'.plans).lastSequence := by
  have hdesk := h.desk
  simp only [lastSequence, desk?] at hdesk ⊢
  rw [hc, hc']
  simp only [Engine.recordCompletions]
  cases hcoordinator : s.engine.coordinator with
  | none =>
    rw [hcoordinator] at hdesk
    cases hcoordinator' : s'.engine.coordinator with
    | none => exact ⟨.none, Nat.le_refl _⟩
    | some c' =>
      rw [hcoordinator'] at hdesk
      cases hdesk
  | some c =>
    rw [hcoordinator] at hdesk
    cases hcoordinator' : s'.engine.coordinator with
    | none =>
      rw [hcoordinator'] at hdesk
      cases hdesk
    | some c' =>
      rw [hcoordinator'] at hdesk
      have hlast := c'.lastSequence_recordAll completions
      cases hdesk with
      | some hdesk =>
        exact ⟨.some (hdesk.move (hdesk.coordinator.recordAll completions) hlast), hlast⟩

/-- A call about the instance comes to the same in sessions that match. -/
lemma Matches.call (h : s.Matches σ p s') {supply : Supply} {c : Call}
    (hp : c.target supply = p) (haccepts : s.Accepts (.call supply c))
    (hstep : s.perform (.call supply c) = some (response, t)) :
    ∃ t', s'.Accepts (.call supply c) ∧ s'.perform (.call supply c) = some (response, t') ∧
      t.Matches σ p t' ∧ s'.lastSequence ≤ t'.lastSequence ∧ response.sequences = [] ∧
      response.renumber σ = response := by
  subst hp
  cases hstep
  have haccepts' : s'.engine.workspace.supply.issued ≤ supply.issued :=
    Nat.le_trans h.issued haccepts
  have hsound := sound_withSupply h.sound haccepts
  have hsound' := sound_withSupply h.sound' haccepts'
  have hsame := Engine.call_same hsound hsound' (h.agree haccepts)
  obtain ⟨events, completions, htold, htold'⟩ := hsame.told
  obtain ⟨hdesk, hlast⟩ := h.recorded htold.coordinator htold'.coordinator
  have hevents : ((s.engine.withSupply supply).call c).2.eventsOf (c.target supply) =
      ((s'.engine.withSupply supply).call c).2.eventsOf (c.target supply) := by
    rw [Engine.eventsOf_of_bus htold.bus, Engine.eventsOf_of_bus htold'.bus]
    exact congrArg (· ++ _) h.events
  refine ⟨s'.afterCall supply c, haccepts', ?_,
    { numbering := h.numbering
      sound := hsound.call c
      sound' := hsound'.call c
      config := hsame.agree.config
      registered := hsame.agree.registered
      store := hsame.agree.workspace.store
      issued := (congrArg Supply.issued hsame.agree.workspace.supply).ge
      events := hevents
      desk := hdesk }, hlast, rfl, rfl⟩
  exact congrArg (fun result => some (Response.returned result, s'.afterCall supply c))
    hsame.result.symm

/-- An operation for the instance is answered alike in sessions that match. -/
lemma Matches.operate (h : s.Matches σ p s') {o : Compensation.Operation} (hp : o.instanceId = p)
    (hstep : s.perform (.operate o) = some (response, t)) :
    ∃ a t', s'.perform (.operate o) = some (.answered a, t') ∧
      response = .answered (a.renumber σ) ∧ t.Matches σ p t' ∧
      s'.lastSequence ≤ t'.lastSequence ∧ ∀ n ∈ a.sequences, n ≤ t'.lastSequence := by
  obtain ⟨⟨a, d⟩, hanswer, hdone⟩ := Option.map_eq_some_iff.1 hstep
  obtain ⟨d₀, hd₀, hanswer⟩ := Option.bind_eq_some_iff.1 hanswer
  cases hdone
  have hdesk := h.desk
  rw [hd₀] at hdesk
  cases hd₀' : s'.desk? with
  | none =>
    rw [hd₀'] at hdesk
    cases hdesk
  | some d₀' =>
    rw [hd₀'] at hdesk
    cases hdesk with
    | some hdesk =>
      have hsame := hdesk.perform hp
      rw [hanswer] at hsame
      generalize hanswer' : d₀'.perform o = x' at hsame
      cases hsame with
      | @answered a _ d' hd hlast hknown =>
        refine ⟨a, ⟨s'.engine.withCoordinator d'.coordinator, d'.plans⟩, ?_, rfl,
          { numbering := h.numbering
            sound := h.sound.congr rfl rfl rfl
            sound' := h.sound'.congr rfl rfl rfl
            config := h.config
            registered := h.registered
            store := h.store
            issued := h.issued
            events := h.events
            desk := .some hd }, ?_, hknown⟩
        · rw [perform, hd₀', Option.bind_some, hanswer', Option.map_some]
        · rw [lastSequence, hd₀']
          exact hlast

/-- A step for the instance is answered alike in sessions that match. -/
theorem Matches.follow (h : s.Matches σ p s') (hp : step.concerns p = true)
    (haccepts : s.Accepts step) (hstep : s.perform step = some (response, t)) :
    ∃ response' t', s'.Accepts step ∧ s'.perform step = some (response', t') ∧
      response = response'.renumber σ ∧ t.Matches σ p t' ∧ s'.lastSequence ≤ t'.lastSequence ∧
      ∀ n ∈ response'.sequences, n ≤ t'.lastSequence := by
  cases step with
  | call supply c =>
    obtain ⟨t', haccepts', hstep', ht, hlast, hnone, hsame⟩ :=
      h.call (by simpa [Step.concerns] using hp) haccepts hstep
    refine ⟨response, t', haccepts', hstep', hsame.symm, ht, hlast, ?_⟩
    rw [hnone]
    exact List.forall_mem_nil _
  | operate o =>
    obtain ⟨a, t', hstep', hsame, ht, hlast, hknown⟩ :=
      h.operate (by simpa [Step.concerns] using hp) hstep
    exact ⟨.answered a, t', trivial, hstep', hsame, ht, hlast, hknown⟩

/-! ## Steps for other instances -/

/-- The desk was used for other instances only. -/
lemma Matches.apart (h : s.Matches σ p s') {x : Option Desk}
    (hx : Option.Rel (Desk.Untouched p) s.desk? x) :
    ∃ τ, StrictMono τ ∧ (∀ n ≤ s'.lastSequence, τ n = σ n) ∧
      Option.Rel (Desk.Matches τ p) x s'.desk? := by
  have hdesk := h.desk
  rw [lastSequence]
  generalize s.desk? = d, s'.desk? = d' at hdesk hx
  cases hx with
  | none =>
    cases hdesk
    exact ⟨σ, h.numbering, fun _ _ => rfl, .none⟩
  | some hx =>
    cases hdesk with
    | some hdesk =>
      obtain ⟨τ, hτ, ht⟩ := hdesk.untouched hx
      exact ⟨τ, ht.coordinator.numbering, hτ, .some ht⟩

/-- The instance does not see a step for another one. -/
theorem Matches.skip (h : s.Matches σ p s') (hp : step.concerns p = false)
    (haccepts : s.Accepts step) (hstep : s.perform step = some (response, t)) :
    ∃ τ, (∀ n ≤ s'.lastSequence, τ n = σ n) ∧ t.Matches τ p s' := by
  cases step with
  | call supply c =>
    cases hstep
    have hne : p ≠ c.target supply := by
      rintro rfl
      simp [Step.concerns] at hp
    have hsound := sound_withSupply h.sound haccepts
    have helsewhere := Engine.call_elsewhere hsound hne
    obtain ⟨completions, hothers, hcoordinator⟩ := helsewhere.coordinator
    have hx : Option.Rel (Desk.Untouched p) s.desk? (s.afterCall supply c).desk? := by
      rw [desk?, desk?, afterCall, hcoordinator]
      simp only [Engine.recordCompletions, Engine.withSupply]
      cases s.engine.coordinator with
      | none => exact .none
      | some coordinator => exact .some ⟨.recordAll coordinator hothers, rfl⟩
    obtain ⟨τ, hτ, hold, hdesk⟩ := h.apart hx
    exact ⟨τ, hold,
      { numbering := hτ
        sound := hsound.call c
        sound' := h.sound'
        config := helsewhere.config.trans h.config
        registered := helsewhere.registered.symm.trans h.registered
        store := helsewhere.store.symm.trans h.store
        issued := Nat.le_trans h.issued (Nat.le_trans haccepts helsewhere.issued)
        events := helsewhere.events.trans h.events
        desk := hdesk }⟩
  | operate o =>
    obtain ⟨⟨a, d⟩, hanswer, hdone⟩ := Option.map_eq_some_iff.1 hstep
    obtain ⟨d₀, hd₀, hanswer⟩ := Option.bind_eq_some_iff.1 hanswer
    cases hdone
    have hne : o.instanceId ≠ p := by simpa [Step.concerns] using hp
    have hx : Option.Rel (Desk.Untouched p) s.desk? (some d) :=
      hd₀ ▸ .some (.perform hne hanswer)
    obtain ⟨τ, hτ, hold, hdesk⟩ := h.apart hx
    exact ⟨τ, hold,
      { numbering := hτ
        sound := h.sound.congr rfl rfl rfl
        sound' := h.sound'
        config := h.config
        registered := h.registered
        store := h.store
        issued := h.issued
        events := h.events
        desk := hdesk }⟩

/-! ## Sessions -/

/-- What becomes of a session that matches a longer one. -/
theorem Matches.runs (h : s.Matches σ p s') {trace : List (Step × Response)}
    (hruns : s.Runs trace t) :
    ∃ τ trace' t', (∀ n ≤ s'.lastSequence, τ n = σ n) ∧ s'.Runs trace' t' ∧
      trace.filter (·.1.concerns p) = trace'.map (Prod.map id (Response.renumber τ)) ∧
      t.Matches τ p t' := by
  -- Along the first session.  A step for another instance changes the renumbering, but not for the
  -- numbers that were given out, so the responses up to then stay as they are.
  induction hruns generalizing σ s' with
  | nil s => exact ⟨σ, [], s', fun _ _ => rfl, .nil s', rfl, h⟩
  | @cons s t u step response rest haccepts hstep hrest ih =>
    cases hp : step.concerns p with
    | true =>
      obtain ⟨response', t', haccepts', hstep', rfl, ht, hlast, hknown⟩ :=
        h.follow hp haccepts hstep
      obtain ⟨τ, rest', u', hτ, hrest', hsame, hu⟩ := ih ht
      refine ⟨τ, (step, response') :: rest', u', fun n hn => hτ n (Nat.le_trans hn hlast),
        .cons haccepts' hstep' hrest', ?_, hu⟩
      have hresponse : response'.renumber τ = response'.renumber σ :=
        Response.renumber_congr fun n hn => hτ n (hknown n hn)
      rw [List.filter_cons_of_pos (by exact hp), hsame, List.map_cons, Prod.map_apply, hresponse,
        id]
    | false =>
      obtain ⟨τ₀, hτ₀, ht⟩ := h.skip hp haccepts hstep
      obtain ⟨τ, rest', u', hτ, hrest', hsame, hu⟩ := ih ht
      refine ⟨τ, rest', u', fun n hn => (hτ n hn).trans (hτ₀ n hn), hrest', ?_, hu⟩
      rw [List.filter_cons_of_neg (by simp [hp]), hsame]

/-- Instances do not interfere.  Without the steps that concern other instances the remaining steps
of a session are answered as before, and what is left of the instance is the same, but for the
numbers of records, which are in the same order.  The identifiers need no renaming, since every step
takes them from its surroundings.  What a session begins with is a session, so this is so after each
of its steps. -/
theorem noninterference {s₀ : Session} (hopens : s₀.Opens) {trace : List (Step × Response)}
    (hruns : s₀.Runs trace s) (p : String) :
    ∃ σ trace' s', StrictMono σ ∧ s₀.Runs trace' s' ∧
      trace.filter (·.1.concerns p) = trace'.map (Prod.map id (Response.renumber σ)) ∧
      s.SameView σ p s' := by
  obtain ⟨σ, trace', s', -, hruns', hsame, hs⟩ := (Matches.opens hopens p).runs hruns
  exact ⟨σ, trace', s', hs.numbering, hruns', hsame, hs.sameView⟩

/-! ## Two bookings -/

/-- Surroundings in which time stands still. -/
def still (issued : Nat) : Supply := ⟨fun _ => .ofSeconds 0, 0, issued⟩

lemma Runs.call {supply : Supply} {c : Call} {rest : List (Step × Response)}
    (hissued : s.engine.workspace.supply.issued ≤ supply.issued)
    (hrest : (s.afterCall supply c).Runs rest t) :
    s.Runs ((.call supply c, .returned ((s.engine.withSupply supply).call c).1) :: rest) t :=
  .cons hissued rfl hrest

lemma Runs.operate {o : Compensation.Operation} {rest : List (Step × Response)}
    (hstep : s.perform (.operate o) = some (response, t)) (hrest : t.Runs rest t') :
    s.Runs ((.operate o, response) :: rest) t' :=
  .cons trivial hstep hrest

/-- Nothing is booked yet. -/
def unbooked : Session := ⟨Engine.recording, []⟩

/-- A trip is booked. -/
def booked : Session := unbooked.afterCall (still 0) (.start Engine.booking "one" none)

/-- Another trip is booked. -/
def bothBooked : Session := booked.afterCall (still 100) (.start Engine.booking "two" none)

/-- The first trip is confirmed. -/
def confirmed : Session := bothBooked.afterCall (still 200) Engine.confirmation

/-- The steps that lead there, before the first trip is undone. -/
def bookingSteps : List Step :=
  [.call (still 0) (.start Engine.booking "one" none),
    .call (still 100) (.start Engine.booking "two" none),
    .call (still 200) Engine.confirmation,
    .operate (.compensate Engine.firstId none none)]

lemma undone_confirmed :
    (confirmed.perform (.operate (.compensate Engine.firstId none none))).isSome = true := by
  decide +kernel

/-- Undoing the first of two trips comes to what it would without the second one. -/
theorem noninterference_bookings :
    ∃ trace s, unbooked.Runs trace s ∧ trace.map Prod.fst = bookingSteps ∧
      ∃ σ trace' s', StrictMono σ ∧ unbooked.Runs trace' s' ∧
        trace.filter (·.1.concerns Engine.firstId) =
          trace'.map (Prod.map id (Response.renumber σ)) ∧
        s.SameView σ Engine.firstId s' := by
  obtain ⟨⟨response, t⟩, hundone⟩ := Option.isSome_iff_exists.1 undone_confirmed
  have hlast : confirmed.Runs _ t := .operate hundone (.nil t)
  have hthird : bothBooked.Runs _ t := .call (by decide +kernel) hlast
  have hsecond : booked.Runs _ t := .call (by decide +kernel) hthird
  have hruns : unbooked.Runs _ t := .call (Nat.zero_le _) hsecond
  exact ⟨_, t, hruns, rfl, noninterference (.wired _ _ _) hruns Engine.firstId⟩

end Session

end ProcessEngine

import ProcessEngine.Proofs.Engine.Visit
import ProcessEngine.Proofs.Gateway.Closing
import ProcessEngine.Proofs.Gateway.Counting

/-!
# What holds of an instance

`Kept` is the invariant of an instance and the gateway states that are stored for it: the frames of
its parked tokens are sound, every token waits for what its element calls for, forks are closed by
released joins only, and every token that has come to a joining gateway is counted at a join.  No
visit breaks it (`Visited.kept`).
-/

namespace ProcessEngine

/-- How often an element was completed. -/
def Instance.completions (i : Instance) (x : String) : Nat :=
  i.history.countP fun entry => entry.elementId == x && entry.status == .completed

/-- An entry counts if it completes the element. -/
lemma Instance.completions_record (i : Instance) (element : String) (kind : ElementKind)
    (status : HistoryStatus) (execution : Option String) (now : Instant) (x : String) :
    (i.record element kind status execution now).completions x =
      i.completions x + if element = x ∧ status = .completed then 1 else 0 := by
  rw [completions, record, List.countP_append, completions]
  simp [List.countP_cons]

/-- What a token waits for is what its element calls for. -/
def Token.Agrees (d : Definition) (t : Token) : Prop :=
  match t.wait with
  | .userTask => ∃ n, d.element? t.elementId = some (.userTask n)
  | .subProcess => ∃ n, d.element? t.elementId = some (.subProcess n)
  | .eventGateway candidates => ∃ g, d.element? t.elementId = some (.gateway g) ∧
      g.kind = .eventBased ∧ candidates = (d.outgoing g.id).map Flow.target

/-- Whether an event-based gateway leads to an element.  The element is then completed without a
visit when it is chosen. -/
def Definition.Offers (d : Definition) (x : String) : Prop :=
  ∃ g, d.element? g.id = some (.gateway g) ∧ g.kind = .eventBased ∧
    x ∈ (d.outgoing g.id).map Flow.target

/-- The invariant of an instance and its gateway states. -/
structure Kept (d : Definition) (i : Instance) (states : List GatewayState) : Prop where
  frames : ∀ t ∈ i.tokens, ∀ f ∈ t.frames, f.Carried states
  waits : ∀ t ∈ i.tokens, t.Agrees d
  forks : ForksClosed d states
  sized : JoinsSized d states
  counted : ∀ g, d.element? g.id = some (.gateway g) → d.Joins g → ¬d.Offers g.id →
    i.completions g.id = arrivals g.id states

namespace Kept

variable {d : Definition} {i j : Instance} {states : List GatewayState}

/-- A new instance. -/
lemma fresh (ht : i.tokens = []) (hh : i.history = []) : Kept d i [] where
  frames := by simp [ht]
  waits := by simp [ht]
  forks := nofun
  sized := nofun
  counted g _ _ _ := by simp [Instance.completions, hh, arrivals]

/-- Tokens may be dropped, suspended and resumed, and elements that no token comes to be
completed. -/
lemma congr (h : Kept d i states)
    (htokens : ∀ t ∈ j.tokens, ∃ o ∈ i.tokens,
      t.elementId = o.elementId ∧ t.wait = o.wait ∧ t.frames = o.frames)
    (hcompletions : ∀ g, d.element? g.id = some (.gateway g) → d.Joins g → ¬d.Offers g.id →
      j.completions g.id = i.completions g.id) : Kept d j states where
  frames t ht := by
    obtain ⟨o, ho, -, -, heq⟩ := htokens t ht
    rw [heq]
    exact h.frames o ho
  waits t ht := by
    obtain ⟨o, ho, hid, hwait, -⟩ := htokens t ht
    rw [Token.Agrees, hid, hwait]
    exact h.waits o ho
  forks := h.forks
  sized := h.sized
  counted g hg hjoins hoffers :=
    (hcompletions g hg hjoins hoffers).trans (h.counted g hg hjoins hoffers)

/-- Variables do not matter. -/
lemma mergeVariables (h : Kept d i states) (updates : Variables) :
    Kept d (i.mergeVariables updates) states :=
  h.congr (fun t ht => ⟨t, ht, rfl, rfl, rfl⟩) fun _ _ _ _ => rfl

/-- One more token is parked. -/
lemma park (h : Kept d i states) {t : Token} (hf : ∀ f ∈ t.frames, f.Carried states)
    (hwait : t.Agrees d) : Kept d { i with tokens := i.tokens ++ [t] } states where
  frames o ho := by
    rcases List.mem_append.1 ho with ho | ho
    · exact h.frames o ho
    · rw [List.mem_singleton.1 ho]
      exact hf
  waits o ho := by
    rcases List.mem_append.1 ho with ho | ho
    · exact h.waits o ho
    · rw [List.mem_singleton.1 ho]
      exact hwait
  forks := h.forks
  sized := h.sized
  counted := h.counted

/-- A token comes to a gateway. -/
lemma effect {run : Run} {g : Gateway} {u : Uid} {frames : List Frame} {issued issued' : Nat}
    {decision : Decision} {states' : List GatewayState} (h : Kept d run.current states)
    (hs : SoundStates run.current.id issued states) (hf : ∀ f ∈ frames, f.Carried states)
    (hg : d.element? g.id = some (.gateway g))
    (heff : (run.request d g u frames).Effect run.current.id issued states decision issued'
      states') (execution : String) (now : Instant) :
    Kept d (run.recorded g.id .gateway .completed execution now).current states' where
  frames t ht f hft := by
    obtain ⟨-, hkept, -⟩ := heff.sound hs hf
    exact (h.frames t ht f hft).mono hkept
  waits := h.waits
  forks := heff.forksClosed hg hs (fun f hmem => (hf f hmem).toSound) h.forks
  sized := h.sized.effect hs (fun f hmem => (hf f hmem).toSound) hg heff
  counted k hk hjoins hoffers := by
    obtain ⟨hmeets, hnot⟩ := heff.arrivals hs k.id
    have hcompletions := run.current.completions_record g.id .gateway .completed (some execution)
      now k.id
    simp only [and_true] at hcompletions
    rw [Run.recorded, hcompletions, h.counted k hk hjoins hoffers]
    by_cases hmeet : (run.request d g u frames).Meets
    · rw [hmeets hmeet]
      rfl
    · rw [hnot hmeet, if_neg, Nat.add_zero]
      -- A joining gateway that does not refuse the token has it meet others.
      intro heq
      rw [heq, hk] at hg
      obtain rfl : k = g := by simpa using hg
      rcases Run.meets_of_joins run u frames hjoins with
        ⟨e, hcourse⟩ | hmeet'
      · exact heff.not_refused e hcourse
      · exact hmeet hmeet'

end Kept

/-- A stage of a walk at which everything is in order. -/
structure Stage.Kept (d : Definition) (s : Stage) : Prop where
  states : SoundStates s.run.current.id s.issued s.states
  pending : ∀ c ∈ s.pending, ∀ f ∈ c.frames, f.Carried s.states
  kept : ProcessEngine.Kept d s.run.current s.states

namespace Stage.Kept

variable {d : Definition} {c : Cursor} {rest : List Cursor} {run : Run} {issued issued' : Nat}
  {states states' : List GatewayState}

/-- The only token in flight of a new instance. -/
lemma fresh {w : Workspace} (hw : w.Sound) (ht : run.current.tokens = [])
    (hh : run.current.history = []) (hnone : w.store.states run.current.id = []) (x : String) :
    (run.stage [⟨x, []⟩] w).Kept d where
  states := hw.states run.current.id
  pending := by simp [Run.stage]
  kept := by
    rw [Run.stage, hnone]
    exact .fresh ht hh

/-- The other tokens in flight stay in order while the first one comes to its element. -/
lemma others (h : Stage.Kept d ⟨c :: rest, run, issued, states⟩)
    (hkept : ForksKept states states') : ∀ x ∈ rest, ∀ f ∈ x.frames, f.Carried states' :=
  fun x hx f hf => (h.pending x (List.mem_cons_of_mem c hx) f hf).mono hkept

/-- A token that comes to a gateway keeps everything in order, and so do the tokens that leave. -/
lemma effect {g : Gateway} {decision : Decision}
    (h : Stage.Kept d ⟨c :: rest, run, issued, states⟩)
    (he : d.element? c.elementId = some (.gateway g))
    (heff : (run.request d g ⟨issued + 1⟩ c.frames).Effect run.current.id (issued + 1) states
      decision issued' states') (now : Instant) :
    Stage.Kept d ⟨decision.cursors c.frames ++ rest,
      run.recorded g.id .gateway .completed (Uid.mk (issued + 1)).text now, issued', states'⟩ ∧
      ForksKept states states' := by
  have hfirst := h.states.mono (Nat.le_succ issued)
  have hc := h.pending c List.mem_cons_self
  have hg : d.element? g.id = some (.gateway g) := Definition.element?_self he
  obtain ⟨hstates', hforks, hcursors⟩ := heff.sound hfirst hc
  refine ⟨⟨hstates', fun x hx => ?_, h.kept.effect hfirst hc hg heff _ now⟩, hforks⟩
  rcases List.mem_append.1 hx with hx | hx
  · exact hcursors x hx
  · exact h.others hforks x hx

end Stage.Kept

/-- A visit keeps everything in order. -/
theorem Visited.kept {d : Definition} {s t : Stage} (hv : Visited d s t) (h : s.Kept d) :
    t.Kept d := by
  cases hv with
  | @complete c rest run issued states e now he hkind =>
    have hcurrent := run.current_completed e (Uid.mk (issued + 1)).text now
    have hother : ∀ g, d.element? g.id = some (.gateway g) → e.id ≠ g.id := by
      intro g hg heq
      rw [← heq, Definition.element?_self he] at hg
      obtain rfl := Option.some.inj hg
      simp [Element.kind, ElementKind.isPassing] at hkind
    refine ⟨?_, fun x hx f hf => ?_, ?_⟩
    · rw [hcurrent]
      exact h.states.mono (Nat.le_succ issued)
    · rcases List.mem_append.1 hx with hx | hx
      · obtain ⟨flow, -, rfl⟩ := List.mem_map.1 hx
        exact h.pending c List.mem_cons_self f hf
      · exact h.others (.refl _) x hx f hf
    · rw [hcurrent]
      refine h.kept.congr (fun o ho => ⟨o, ho, rfl, rfl, rfl⟩) fun g hg _ _ => ?_
      rw [Run.recorded, Instance.completions_record, if_neg fun hand => hother g hg hand.1]
      rfl
  | @userTask c rest run issued states task he =>
    refine ⟨h.states.mono (Nat.le_succ issued), h.others (.refl _), ?_⟩
    exact Kept.park (i := run.current) h.kept (h.pending c List.mem_cons_self)
      ⟨task, Definition.element?_self he⟩
  | @subProcess c rest run issued states sub he =>
    refine ⟨h.states.mono (Nat.le_succ issued), h.others (.refl _), ?_⟩
    exact h.kept.park (h.pending c List.mem_cons_self) ⟨sub, Definition.element?_self he⟩
  | @goOn c rest run issued issued' states states' g decision now he heff hgo =>
    exact (h.effect he heff now).1
  | @absorbed c rest run issued issued' states states' g decision now he heff hwait hjoin =>
    obtain ⟨hlater, hforks⟩ := h.effect he heff now
    exact ⟨hlater.states, h.others hforks, hlater.kept⟩
  | @offered c rest run issued issued' states states' g decision now he heff hwait hjoin =>
    obtain ⟨hlater, hforks⟩ := h.effect he heff now
    obtain ⟨hkind, hnext⟩ := heff.offers hwait hjoin
    refine ⟨hlater.states.mono (Nat.le_succ issued'), h.others hforks, hlater.kept.park
      (fun f hf => (h.pending c List.mem_cons_self f hf).mono hforks) ?_⟩
    exact ⟨g, Definition.element?_self he, hkind, hnext⟩

end ProcessEngine

import ProcessEngine.Proofs.Definition.Reachability
import ProcessEngine.Proofs.Engine.Conservation
import ProcessEngine.Proofs.Engine.Successes

/-!
# Elements that tokens come to

Tokens walk along flows and start at a start event, so every element that an instance names is led
to from there.  This lasts (`lasting_reached`), and it holds of what is left of an instance that is
terminated as well.  The elements that the checks report as out of reach are therefore never named
by any instance of the definition (`unreached_avoided`).
-/

namespace ProcessEngine

/-- Whether an instance names an element: in an entry of its history, or as the place of a token. -/
def Instance.mentions (i : Instance) (x : String) : Prop :=
  (∃ entry ∈ i.history, entry.elementId = x) ∨ ∃ t ∈ i.tokens, t.elementId = x

/-- Paths of flows lead to the elements that tokens in flight come to and to those that the instance
names. -/
structure Reached (d : Definition) (pending : List Cursor) (i : Instance) : Prop where
  pending : ∀ c ∈ pending, d.LeadsTo c.elementId
  history : ∀ entry ∈ i.history, d.LeadsTo entry.elementId
  tokens : ∀ t ∈ i.tokens, d.LeadsTo t.elementId

variable {d : Definition} {i j : Instance} {c : Cursor} {rest next : List Cursor} {x : String}

lemma Reached.of_mentions {pending : List Cursor} (h : Reached d pending i) (hx : i.mentions x) :
    d.LeadsTo x := by
  rcases hx with ⟨entry, hentry, rfl⟩ | ⟨t, ht, rfl⟩
  · exact h.history entry hentry
  · exact h.tokens t ht

/-! ## Visits -/

/-- A token that leaves an element comes to what the element leads to. -/
lemma leadsTo_leave (hx : d.LeadsTo x) (frames : List Frame) :
    ∀ c ∈ d.leave x frames, d.LeadsTo c.elementId := by
  intro c hc
  obtain ⟨f, hf, rfl⟩ := List.mem_map.1 hc
  exact hx.target hf

/-- So does a token that a gateway sends on. -/
lemma leadsTo_cursors {run : Run} {g : Gateway} {u : Uid} {frames stack : List Frame} {p : String}
    {issued issued' : Nat} {states states' : List GatewayState} {decision : Decision}
    (hg : d.LeadsTo g.id)
    (heff : (run.request d g u frames).Effect p issued states decision issued' states') :
    ∀ c ∈ decision.cursors stack, d.LeadsTo c.elementId := by
  intro c hc
  have hnext : c.elementId ∈ decision.next :=
    decision.map_elementId_cursors stack ▸ List.mem_map_of_mem hc
  obtain ⟨f, hf, htarget⟩ := List.mem_map.1 (heff.next_subset _ hnext)
  exact htarget ▸ hg.target hf

namespace Reached

/-- The element of the first token is completed. -/
lemma complete (h : Reached d (c :: rest) i) (hnext : ∀ c ∈ next, d.LeadsTo c.elementId)
    {entry : HistoryEntry} (hentry : entry.elementId = c.elementId)
    (hhistory : j.history = i.history ++ [entry]) (htokens : j.tokens = i.tokens) :
    Reached d (next ++ rest) j where
  pending := List.forall_mem_append.2 ⟨hnext, fun x hx => h.pending x (List.mem_cons_of_mem c hx)⟩
  history := by
    rw [hhistory]
    refine List.forall_mem_append.2 ⟨h.history, List.forall_mem_singleton.2 ?_⟩
    rw [hentry]
    exact h.pending c List.mem_cons_self
  tokens := htokens ▸ h.tokens

/-- A token is parked where another one was completed or has come to. -/
lemma park {pending : List Cursor} (h : Reached d pending i) {t : Token}
    (ht : d.LeadsTo t.elementId) (hhistory : j.history = i.history)
    (htokens : j.tokens = i.tokens ++ [t]) : Reached d pending j where
  pending := h.pending
  history := hhistory ▸ h.history
  tokens := by
    rw [htokens]
    exact List.forall_mem_append.2 ⟨h.tokens, List.forall_mem_singleton.2 ht⟩

/-- The first token is no longer in flight. -/
lemma tail (h : Reached d (c :: rest) i) : Reached d rest i :=
  { h with pending := fun x hx => h.pending x (List.mem_cons_of_mem c hx) }

end Reached

/-- A visit comes to elements that are led to. -/
theorem Visited.reached {s t : Stage} (h : Reached d s.pending s.run.current)
    (hv : Visited d s t) : Reached d t.pending t.run.current := by
  cases hv with
  | @complete c rest run issued states e now he hkind =>
    have hc : d.LeadsTo c.elementId := h.pending c List.mem_cons_self
    have hid : e.id = c.elementId := Definition.element?_id he
    rw [Run.current_completed]
    exact h.complete (leadsTo_leave hc c.frames)
      (show (HistoryEntry.mk e.id e.kind .completed _ _ _).elementId = _ from hid) rfl rfl
  | @userTask c rest run issued states task he =>
    have hid : task.id = c.elementId := Definition.element?_id he
    exact h.tail.park (hid ▸ h.pending c List.mem_cons_self) rfl rfl
  | @subProcess c rest run issued states sub he =>
    have hid : sub.id = c.elementId := Definition.element?_id he
    exact h.tail.park (hid ▸ h.pending c List.mem_cons_self) rfl rfl
  | @goOn c rest run issued issued' states states' g decision now he heff hgo =>
    have hid : g.id = c.elementId := Definition.element?_id he
    have hg : d.LeadsTo g.id := hid ▸ h.pending c List.mem_cons_self
    exact h.complete (leadsTo_cursors hg heff) hid rfl rfl
  | @absorbed c rest run issued issued' states states' g decision now he heff hwait hjoin =>
    have hid : g.id = c.elementId := Definition.element?_id he
    have hnone : ∀ c ∈ ([] : List Cursor), d.LeadsTo c.elementId := nofun
    exact h.complete hnone hid rfl rfl
  | @offered c rest run issued issued' states states' g decision now he heff hwait hjoin =>
    have hid : g.id = c.elementId := Definition.element?_id he
    have hg : d.LeadsTo g.id := hid ▸ h.pending c List.mem_cons_self
    have hnone : ∀ c ∈ ([] : List Cursor), d.LeadsTo c.elementId := nofun
    have hcompleted : Reached d rest
        (run.recorded g.id .gateway .completed (Uid.mk (issued + 1)).text now).current :=
      h.complete hnone hid rfl rfl
    exact hcompleted.park hg rfl rfl

/-! ## Runs -/

/-- A task that a token waits for is led to. -/
lemma leadsTo_of_accepts {t : Token} {task : String} (ht : d.LeadsTo t.elementId)
    (hagrees : t.Agrees d) (haccepts : t.accepts task = true) : d.LeadsTo task := by
  rw [Token.Agrees] at hagrees
  rw [Token.accepts] at haccepts
  cases hwait : t.wait with
  | userTask | subProcess =>
    rw [hwait] at haccepts
    exact (show t.elementId = task by simpa using haccepts) ▸ ht
  | eventGateway candidates =>
    rw [hwait] at hagrees haccepts
    obtain ⟨g, hg, -, rfl⟩ := hagrees
    have hid : g.id = t.elementId := Definition.element?_id hg
    obtain ⟨f, hf, rfl⟩ := List.mem_map.1
      (show task ∈ (d.outgoing g.id).map Flow.target by simpa using haccepts)
    exact ht.target (hid ▸ hf)

/-- What an instance names is led to, throughout. -/
theorem lasting_reached (d : Definition) : Lasting d fun pending i _ => Reached d pending i where
  start {first _} hfirst ht hh := by
    refine ⟨List.forall_mem_singleton.2 ?_, by simp [hh], by simp [ht]⟩
    exact Definition.leadsTo_startEvent (List.mem_of_head? hfirst)
  visited _ h hv := hv.reached h
  taken {run _ task token element} now hk h hfind he := by
    have htoken := List.mem_of_find?_eq_some hfind
    have htask : d.LeadsTo task := leadsTo_of_accepts (h.tokens token htoken)
      (hk.waits token htoken) (by simpa using List.find?_some hfind)
    have hleft : Reached d [⟨task, token.frames⟩]
        { run.current with tokens := run.current.tokens.eraseP (·.accepts task) } :=
      ⟨List.forall_mem_singleton.2 htask, h.history,
        fun t ht => h.tokens t (List.mem_of_mem_eraseP ht)⟩
    rw [Engine.taken, Run.current_completed, ← List.append_nil (d.leave task token.frames)]
    exact hleft.complete (leadsTo_leave htask _) (Definition.element?_id he) rfl rfl
  unmoved {i j _} hunmoved h := by
    obtain ⟨entries, hhistory, hentries⟩ := hunmoved.history
    refine ⟨h.pending, ?_, fun t ht => ?_⟩
    · rw [hhistory]
      refine List.forall_mem_append.2 ⟨h.history, fun entry hentry => ?_⟩
      obtain ⟨t, ht, heq⟩ := hentries entry hentry
      exact heq ▸ h.tokens t ht
    · obtain ⟨o, ho, hcore⟩ := hunmoved.exists_token ht
      have helement : o.core.elementId = t.core.elementId := congrArg Token.elementId hcore
      exact helement ▸ h.tokens o ho

namespace Engine

variable {e : Engine}

lemma reached_registered (h : e.Reachable) {id : String} {r : Registered}
    (hr : e.registered? id = some r) : Reached r.definition [] r.current := by
  obtain ⟨states, hreached, -⟩ := (lasting_reached r.definition).registered h id r hr rfl
  exact hreached

/-- A call is about one definition. -/
lemma Concerns.unique {call : Call} {d' : Definition} {id : String} (h : e.Concerns call d id)
    (h' : e.Concerns call d' id) : d' = d := by
  cases h with
  | new => cases h' with
    | new => rfl
    | known hc => cases hc
  | known _ hr => cases h' with
    | new => contradiction
    | known _ hr' => rw [Option.some.inj (hr.symm.trans hr')]

/-- What is left of an instance that is terminated names elements that it has named before. -/
lemma reached_terminated (h : e.Reachable) {id : String} {reason : Option String}
    (hok : (e.terminate id reason).1 = .ok i) :
    ∃ r, e.registered? i.id = some r ∧ Reached r.definition [] i := by
  rw [terminate] at hok
  cases hr : e.registered? id with
  | none =>
    rw [hr] at hok
    cases hok
  | some r =>
    have hreached := reached_registered h hr
    obtain ⟨run, supply, hrun, -, -, hid, -⟩ := terminateRun_spec r reason e.workspace
    obtain ⟨htokens, entries, hhistory, helements, -⟩ := terminateRun_ok hrun
    rw [hr] at hok
    simp only [perform_ok hrun, Except.ok.injEq] at hok
    subst hok
    rw [hid, (h.sound.known id r hr).1]
    refine ⟨r, hr, List.forall_mem_nil _, ?_, htokens ▸ List.forall_mem_nil _⟩
    rw [hhistory]
    refine List.forall_mem_append.2 ⟨hreached.history, fun entry hentry => ?_⟩
    obtain ⟨t, ht, heq⟩ := List.mem_map.1 (helements ▸ List.mem_map_of_mem hentry)
    exact heq ▸ hreached.tokens t ht

/-- What a call returns names elements that are led to. -/
lemma reached_returned (h : e.Reachable) {call : Call} (hok : (e.call call).1 = .ok i)
    (hd : e.Concerns call d i.id) : Reached d [] i := by
  have hcomes := call_comes h.sound call
  have hafter : (e.call call).2.Reachable := h.call call
  cases hc : call.isTermination with
  | true =>
    obtain ⟨id, reason, rfl⟩ : ∃ id reason, call = .terminate id reason := by
      cases call <;> first | exact ⟨_, _, rfl⟩ | cases hc
    obtain ⟨r, hr, hreached⟩ := reached_terminated h hok
    have hknown : e.Concerns (.terminate id reason) r.definition i.id := .known rfl hr nofun
    rwa [hknown.unique hd]
  | false =>
    generalize e.call call = result at hok hcomes hafter
    cases hcomes with
    | failed => cases hok
    | @succeeded d' run e' parked entries hsuccess hsettled =>
      obtain rfl : run.current = i := Except.ok.inj hok
      obtain rfl : d' = d := hd.unique hsuccess.concerns
      have hregistered := hsettled.registered run.current.id
      rw [if_pos rfl, hc] at hregistered
      exact reached_registered hafter hregistered

end Engine

/-! ## Elements out of reach -/

/-- The warnings about elements that cannot be reached are about the elements that no start event
leads to, in their order; and no instance of the definition names such an element, neither while a
call is at work on it, nor when it is registered, nor when a call returns it. -/
theorem unreached_avoided (hstart : d.startEvents ≠ []) :
    d.issues.filter (·.rule == "D5") =
        (d.elementIds.filter fun id => ¬d.LeadsTo id).map .unreachable ∧
      ∀ x, ¬d.LeadsTo x →
        (∀ pending run w, Reaches d pending run w → ¬run.current.mentions x) ∧
        ∀ e : Engine, e.Reachable →
          (∀ id r, e.registered? id = some r → r.definition = d → ¬r.current.mentions x) ∧
          ∀ call i, (e.call call).1 = .ok i → e.Concerns call d i.id → ¬i.mentions x := by
  refine ⟨Definition.unreachable_issues hstart, fun x hx => ⟨fun pending run w hreaches hnamed => ?_,
    fun e he => ⟨?_, fun call i hok hconcerns hnamed => ?_⟩⟩⟩
  · exact hx (((lasting_reached d).reaches hreaches).of_mentions hnamed)
  · rintro id r hr rfl hnamed
    exact hx ((Engine.reached_registered he hr).of_mentions hnamed)
  · exact hx ((Engine.reached_returned he hok hconcerns).of_mentions hnamed)

namespace Engine

/-- A task is led to, and another one is not. -/
def stranded : Definition :=
  { Definition.empty "stranded" with
    startEvents := [.unnamed "start"]
    endEvents := [.unnamed "end"]
    userTasks := [.unnamed "t", .unnamed "lost"]
    flows := [⟨"f1", "start", "t", none⟩, ⟨"f2", "t", "end", none⟩,
      ⟨"f3", "lost", "end", none⟩] }

/-- An instance waits at the task that is led to. -/
def stopped : Engine := (small.call (.start stranded "key" none)).2

lemma reachable_stopped : stopped.Reachable := reachable_small.call _

lemma stopped_registered : (stopped.registered? firstId).any (fun r =>
    r.definition == stranded && r.current.tokens.any (·.elementId == "t")) = true := by
  decide +kernel

/-- The task that is not led to is reported, and the instance does not name it. -/
theorem unreached_avoided_stranded :
    stranded.startEvents ≠ [] ∧ ¬stranded.LeadsTo "lost" ∧
      stranded.issues.filter (·.rule == "D5") = [.unreachable "lost"] ∧
      ∃ r, stopped.registered? firstId = some r ∧ r.definition = stranded ∧
        r.current.mentions "t" ∧ ¬r.current.mentions "lost" := by
  have hstart : stranded.startEvents ≠ [] := by decide
  have hlost : ¬stranded.LeadsTo "lost" := by decide
  obtain ⟨hissues, havoided⟩ := unreached_avoided hstart
  obtain ⟨r, hr, hbody⟩ := (Option.any_eq_true _ _).1 stopped_registered
  simp only [Bool.and_eq_true, beq_iff_eq, List.any_eq_true] at hbody
  obtain ⟨hd, ht⟩ := hbody
  refine ⟨hstart, hlost, ?_, r, hr, hd, .inr ht, ?_⟩
  · rw [hissues]
    decide
  · exact ((havoided "lost" hlost).2 stopped reachable_stopped).1 firstId r hr hd

end Engine

end ProcessEngine

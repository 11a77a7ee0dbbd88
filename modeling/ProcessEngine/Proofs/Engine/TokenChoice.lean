import ProcessEngine.Proofs.Engine.CarriedForks
import ProcessEngine.Proofs.Engine.Failures
import ProcessEngine.Proofs.Engine.ParkedTokens
import ProcessEngine.Proofs.Engine.Successes
import ProcessEngine.Proofs.Engine.Turns

/-!
# Which token is taken for a task

Several tokens may accept the same task: two of them may wait at it, or one at an event-based
gateway that offers it.  A call that completes the task takes the first of them, and is refused if
that one is suspended, even if another one is not (`refused_before_free_token`).  That is the only
exception: in all other cases a token is taken that accepts the task and is not suspended, and the
call is refused only if there is none (`takesFree_iff`).
-/

namespace ProcessEngine

/-- A token is taken away, the task is completed in its name, and tokens with new ids are parked
behind the others. -/
structure Instance.Completes (task : String) (t : Token) (i j : Instance) : Prop where
  tokens : ∃ front rest parked, i.tokens = front ++ t :: rest ∧ j.tokens = front ++ rest ++ parked ∧
    ∀ new ∈ parked, ∀ old ∈ i.tokens, new.id ≠ old.id
  history : ∃ entry entries, j.history = i.history ++ entry :: entries ∧
    entry.elementId = task ∧ entry.status = .completed ∧ entry.executionId = some t.id.text

/-- The first token that accepts a task is suspended, and one behind it is not. -/
def Shadowed (task : String) (ts : List Token) : Prop :=
  (ts.find? (·.accepts task)).any (·.suspended) = true ∧
    ∃ t ∈ ts, t.accepts task = true ∧ t.suspended = false

instance (task : String) (ts : List Token) : Decidable (Shadowed task ts) :=
  inferInstanceAs (Decidable (_ ∧ _))

namespace Engine

variable {e : Engine} {r : Registered} {d : Definition} {id task : String} {limit : Nat}
  {updates : Option Variables} {run run' : Run} {w w' : Workspace} {t : Token}

/-- What becomes of a token that is taken for a task: the task is completed, or the walk from it
fails. -/
inductive Takes (e : Engine) (r : Registered) (task : String) (t : Token) :
    Except EngineError Instance → Prop
  | completed {i : Instance} (h : r.current.Completes task t i) : Takes e r task t (.ok i)
  | unknown (h : r.definition.element? task = none) :
      Takes e r task t (.error (.elementNotFound r.definition.id task))
  | limit : Takes e r task t
      (.error (.traversalLimitExceeded r.current.id e.config.maxTraversalSteps))
  | refused {c : Cursor} {rest : List Cursor} {run run' : Run} {w w' : Workspace}
      {err : EngineError}
      (hwalks : Run.Walks r.definition (r.definition.leave task t.frames) run w (c :: rest) run' w')
      (hrefused : Refused r.definition run' c err) : Takes e r task t (.error err)

/-- A task is completed with a token that accepts it and is not suspended.  The call is refused if
there is none: because no token accepts the task, or because all that do are suspended. -/
structure TakesFree (e : Engine) (id : String) (r : Registered) (task : String)
    (result : Except EngineError Instance) : Prop where
  notActive : result = .error (.taskNotActive id task) ↔
    ∀ t ∈ r.current.tokens, t.accepts task = false
  suspended : result = .error (.tokenSuspended id task) ↔
    (∃ t ∈ r.current.tokens, t.accepts task = true) ∧
      ∀ t ∈ r.current.tokens, t.accepts task = true → t.suspended = true
  taken : (∃ t ∈ r.current.tokens, t.accepts task = true ∧ t.suspended = false) →
    ∃ t ∈ r.current.tokens, t.accepts task = true ∧ t.suspended = false ∧ e.Takes r task t result

/-! ## The first token that accepts the task -/

/-- If the walk succeeds, the task was completed with the first token that accepts it. -/
lemma completes_of_continueFrom (hw : w.Sound)
    (hk : Kept d run.current (w.store.states run.current.id))
    (hlive : run.current.isEnded = false)
    (hknown : ∀ o ∈ run.current.tokens, o.id.value ≤ w.supply.issued)
    (hfind : run.current.tokens.find? (·.accepts task) = some t)
    (h : continueFrom run d limit task w = .ok run' w') :
    run.current.Completes task t run'.current := by
  obtain ⟨token, run₁, w₁, run₂, w₂, htask, hwalks, hfinish⟩ := continueFrom_ok h
  obtain ⟨hw₁, hstage, -, hended⟩ := completeTask_kept hw hk htask
  obtain ⟨hfind', element, helement, rfl, rfl⟩ := completeTask_ok htask
  obtain rfl : t = token := Option.some.inj (hfind.symm.trans hfind')
  obtain ⟨parked, entries, hadds⟩ := hwalks.adds hw₁ hstage
  have hlive₂ : run₂.current.isEnded = false := by
    rw [Instance.isEnded, hadds.endedAt, hended]
    exact hlive
  obtain ⟨hconcludes, -⟩ := Run.finish_concludes hlive₂ hfinish
  obtain ⟨haccepts, front, rest, htokens, hfront⟩ := List.find?_eq_some_iff_append.1 hfind
  have hleft : run.current.tokens.eraseP (·.accepts task) = front ++ rest := by
    rw [htokens, List.eraseP_append_right _ (by simpa using hfront)]
    exact congrArg _ (List.eraseP_cons_of_pos haccepts)
  have htaken : (taken run task t element w.supply.now.1).current =
      Instance.record { run.current with tokens := front ++ rest } element.id element.kind
        .completed (some t.id.text) w.supply.now.1 := by
    rw [taken, Run.current_completed, hleft]
    rfl
  let time := Instance.entryTime { run.current with tokens := front ++ rest } w.supply.now.1
  let entry : HistoryEntry :=
    ⟨element.id, element.kind, .completed, time, time, some t.id.text⟩
  refine ⟨⟨front, rest, parked, htokens, ?_, fun new hnew old hold heq => ?_⟩,
    ⟨entry, entries, ?_, Definition.element?_id helement, rfl, rfl⟩⟩
  · rw [hconcludes.tokens, hadds.tokens, htaken]
    rfl
  · have hlater : w.supply.issued < new.id.value := (hadds.fresh new hnew).1
    have hbefore := hknown old hold
    rw [← heq] at hbefore
    omega
  · rw [hconcludes.history, hadds.history, htaken, List.append_cons]
    rfl

/-- If the walk fails, that is either the fault of the task or happens on the way from it. -/
lemma takes_of_error (hw : w.Sound) (hk : Kept r.definition run.current
      (w.store.states run.current.id)) (hid : run.current.id = r.current.id)
    (hfind : run.current.tokens.find? (·.accepts task) = some t) (hfree : t.suspended = false)
    {err : EngineError}
    (h : continueFrom run r.definition e.config.maxTraversalSteps task w = .error err w') :
    e.Takes r task t (.error err) := by
  rcases continueFrom_error hw hk h with
    ⟨w₁, htask⟩ | ⟨token, run₁, w₁, htask, hwalk⟩
  · rcases completeTask_error htask with
      ⟨hnone, -⟩ | ⟨token, hfind', ⟨hsuspended, -⟩ | ⟨hnone, rfl⟩⟩
    · rw [hnone] at hfind
      cases hfind
    · obtain rfl : t = token := Option.some.inj (hfind.symm.trans hfind')
      rw [hfree] at hsuspended
      cases hsuspended
    · exact .unknown hnone
  · obtain ⟨-, -, hsame, -⟩ := completeTask_kept hw hk htask
    obtain ⟨hfind', -⟩ := completeTask_ok htask
    obtain rfl : t = token := Option.some.inj (hfind.symm.trans hfind')
    rcases hwalk with rfl | ⟨c, rest, run₂, w₂, hwalks, hrefused⟩
    · rw [hsame, hid]
      exact .limit
    · exact .refused hwalks hrefused

/-- What a call on a live instance returns. -/
lemma onLive_running {action : Registered → Action Run} (hr : e.registered? id = some r)
    (hlive : r.current.isEnded = false) :
    (e.onLive id action).1 =
      match action r e.workspace with
      | .ok run _ => .ok run.current
      | .error err _ => .error err := by
  rw [onLive, live_running hr hlive]
  simp only [carryOut]
  cases haction : action r e.workspace with
  | ok run w => rw [perform_ok haction]; rfl
  | error err w => rw [perform_error haction]

/-- A call that completes a task on a live instance returns what the walk from the task returns. -/
lemma continueInstance_running (hr : e.registered? id = some r)
    (hlive : r.current.isEnded = false) (task : String) (updates : Option Variables) :
    (e.continueInstance id (some task) updates).1 =
      match continueFrom (continuing r id task (updates.getD [])) r.definition
        e.config.maxTraversalSteps task e.workspace with
      | .ok run _ => .ok run.current
      | .error err _ => .error err := by
  rw [continueInstance_eq, onLive_running hr hlive]
  rfl

/-- A call that completes a task goes by the first token that accepts it. -/
theorem continueInstance_first (h : e.Reachable) (hr : e.registered? id = some r)
    (hlive : r.current.isEnded = false) (task : String) (updates : Option Variables) :
    match r.current.tokens.find? (·.accepts task) with
    | none => (e.continueInstance id (some task) updates).1 = .error (.taskNotActive id task)
    | some t =>
      if t.suspended then
        (e.continueInstance id (some task) updates).1 = .error (.tokenSuspended id task)
      else e.Takes r task t (e.continueInstance id (some task) updates).1 := by
  have hid := (h.sound.known id r hr).1
  have hkept := h.sound.kept id r hr hlive
  rw [← hid] at hkept
  rw [continueInstance_running hr hlive task updates]
  obtain ⟨run, hrun⟩ : ∃ run, run = continuing r id task (updates.getD []) := ⟨_, rfl⟩
  rw [← hrun]
  -- Of the call, only the variables are written before a token is chosen.
  have hcurrent : run.current = r.current.mergeVariables (updates.getD []) := by rw [hrun]; rfl
  have hmerged : Kept r.definition run.current (e.workspace.store.states run.current.id) := by
    rw [hcurrent]
    exact hkept.mergeVariables _
  have htokens : run.current.tokens = r.current.tokens := by rw [hcurrent]; rfl
  have hsame : run.current.id = id := by rw [hcurrent]; exact hid
  have htask := completeTask_eq run r.definition task e.workspace
  rw [htokens, hsame] at htask
  cases hfind : r.current.tokens.find? (·.accepts task) with
  | none =>
    rw [hfind] at htask
    rw [continueFrom, Action.bind_of_error htask]
  | some t =>
    rw [hfind] at htask
    simp only at htask ⊢
    split_ifs at htask ⊢ with hsuspended
    · rw [continueFrom, Action.bind_of_error htask]
    · cases hwalk : continueFrom run r.definition e.config.maxTraversalSteps task e.workspace with
      | ok run' w' =>
        have hcompletes := completes_of_continueFrom h.sound.workspace hmerged
          (by rw [hcurrent]; exact hlive) (by rw [htokens]; exact (h.tidy id r hr).tokens.known)
          (htokens ▸ hfind) hwalk
        rw [hcurrent] at hcompletes
        exact .completed ⟨hcompletes.tokens, hcompletes.history⟩
      | error err w' =>
        exact takes_of_error h.sound.workspace hmerged (by rw [hcurrent]; rfl) (htokens ▸ hfind)
          (Bool.eq_false_iff.2 hsuspended) hwalk

/-- A token that is taken is not refused for being absent or suspended. -/
lemma Takes.ne_refused {result : Except EngineError Instance} (h : e.Takes r task t result) :
    result ≠ .error (.taskNotActive id task) ∧ result ≠ .error (.tokenSuspended id task) := by
  cases h with
  | completed | unknown | limit => exact ⟨nofun, nofun⟩
  | refused hwalks hrefused =>
    cases hrefused with
    | unknown => exact ⟨nofun, nofun⟩
    | gateway he hcourse =>
      cases Request.course_refuse hcourse with
      | deadEnd | noChoice | noSelection => exact ⟨nofun, nofun⟩

/-! ## Free tokens -/

namespace TakesFree

variable {result : Except EngineError Instance}

/-- A call is refused if no token accepts the task. -/
lemma of_none (hnone : ∀ t ∈ r.current.tokens, t.accepts task = false) :
    e.TakesFree id r task (.error (.taskNotActive id task)) where
  notActive := ⟨fun _ => hnone, fun _ => rfl⟩
  suspended := ⟨nofun, fun ⟨⟨t, ht, haccepts⟩, _⟩ => by
    rw [hnone t ht] at haccepts
    cases haccepts⟩
  taken := fun ⟨t, ht, haccepts, _⟩ => by
    rw [hnone t ht] at haccepts
    cases haccepts

/-- A call is refused if all tokens that accept the task are suspended. -/
lemma of_all (hsome : ∃ t ∈ r.current.tokens, t.accepts task = true)
    (hall : ∀ t ∈ r.current.tokens, t.accepts task = true → t.suspended = true) :
    e.TakesFree id r task (.error (.tokenSuspended id task)) where
  notActive := ⟨nofun, fun hnone => by
    obtain ⟨t, ht, haccepts⟩ := hsome
    rw [hnone t ht] at haccepts
    cases haccepts⟩
  suspended := ⟨fun _ => ⟨hsome, hall⟩, fun _ => rfl⟩
  taken := fun ⟨t, ht, haccepts, hfree⟩ => by
    rw [hall t ht haccepts] at hfree
    cases hfree

/-- A call may take a token that accepts the task and is not suspended. -/
lemma of_takes (ht : t ∈ r.current.tokens) (haccepts : t.accepts task = true)
    (hfree : t.suspended = false) (htakes : e.Takes r task t result) :
    e.TakesFree id r task result := by
  have hne : result ≠ .error (.taskNotActive id task) ∧
      result ≠ .error (.tokenSuspended id task) := htakes.ne_refused
  refine ⟨⟨fun heq => absurd heq hne.1, fun hnone => ?_⟩,
    ⟨fun heq => absurd heq hne.2, fun hall => ?_⟩, fun _ => ⟨t, ht, haccepts, hfree, htakes⟩⟩
  · rw [hnone t ht] at haccepts
    cases haccepts
  · rw [hall.2 t ht haccepts] at hfree
    cases hfree

end TakesFree

/-- The call goes by a token that accepts the task and is not suspended, and is refused only if
there is none, unless such a token stands behind a suspended one.  Then the call is refused. -/
theorem takesFree_iff (h : e.Reachable) (hr : e.registered? id = some r)
    (hlive : r.current.isEnded = false) (task : String) (updates : Option Variables) :
    (e.TakesFree id r task (e.continueInstance id (some task) updates).1 ↔
        ¬Shadowed task r.current.tokens) ∧
      (Shadowed task r.current.tokens →
        (e.continueInstance id (some task) updates).1 = .error (.tokenSuspended id task)) := by
  have hfirst := continueInstance_first h hr hlive task updates
  generalize (e.continueInstance id (some task) updates).1 = result at hfirst ⊢
  have hrefused : Shadowed task r.current.tokens → result = .error (.tokenSuspended id task) := by
    rintro ⟨hany, -⟩
    obtain ⟨first, hfind, hsuspended⟩ := (Option.any_eq_true _ _).1 hany
    rw [hfind] at hfirst
    exact (if_pos hsuspended).mp hfirst
  refine ⟨⟨fun hfree hshadowed => ?_, fun hclear => ?_⟩, hrefused⟩
  · have hall := (hfree.suspended.1 (hrefused hshadowed)).2
    obtain ⟨-, t, ht, haccepts, hnot⟩ := hshadowed
    rw [hall t ht haccepts] at hnot
    cases hnot
  cases hfind : r.current.tokens.find? (·.accepts task) with
  | none =>
    rw [hfind] at hfirst
    obtain rfl : result = .error (.taskNotActive id task) := hfirst
    exact .of_none (by simpa using List.find?_eq_none.1 hfind)
  | some t =>
    have ht := List.mem_of_find?_eq_some hfind
    have haccepts : t.accepts task = true := by simpa using List.find?_some hfind
    rw [hfind] at hfirst
    by_cases hsuspended : t.suspended = true
    · obtain rfl : result = .error (.tokenSuspended id task) := (if_pos hsuspended).mp hfirst
      refine .of_all ⟨t, ht, haccepts⟩ fun o ho hoaccepts => ?_
      by_contra hfree
      exact hclear ⟨by rwa [hfind], o, ho, hoaccepts, by simpa using hfree⟩
    · exact .of_takes ht haccepts (Bool.eq_false_iff.2 hsuspended) ((if_neg hsuspended).mp hfirst)

/-! ## A token behind a suspended one -/

/-- A task that is both waited for at once and offered by an event-based gateway. -/
def twiceWaited : Definition :=
  { Definition.empty "twice" with
    startEvents := [.unnamed "start"]
    endEvents := [.unnamed "end"]
    userTasks := [.unnamed "a", .unnamed "b", .unnamed "c"]
    gateways := [.unnamed "fork" .parallel none, .unnamed "wait" .eventBased none]
    flows := [⟨"f1", "start", "fork", none⟩, ⟨"f2", "fork", "wait", none⟩,
      ⟨"f3", "fork", "a", none⟩, ⟨"f4", "wait", "a", none⟩, ⟨"f5", "wait", "b", none⟩,
      ⟨"f6", "a", "c", none⟩, ⟨"f7", "b", "end", none⟩, ⟨"f8", "c", "end", none⟩] }

/-- One token waits at the gateway, and another one at the task. -/
def waitedTwice : Engine := (small.call (.start twiceWaited "key" none)).2

lemma reachable_waitedTwice : waitedTwice.Reachable := reachable_small.call _

/-- The token at the gateway is suspended. -/
def offerSuspended : Engine := (waitedTwice.call (.suspend firstId (some "wait"))).2

lemma reachable_offerSuspended : offerSuspended.Reachable := reachable_waitedTwice.call _

/-- The token at the task is suspended. -/
def taskSuspended : Engine := (waitedTwice.call (.suspend firstId (some "a"))).2

lemma reachable_taskSuspended : taskSuspended.Reachable := reachable_waitedTwice.call _

/-- Whether an instance is registered and live, and its tokens satisfy a condition. -/
def hasTokens (e : Engine) (id : String) (condition : List Token → Bool) : Bool :=
  (e.registered? id).any fun r => !r.current.isEnded && condition r.current.tokens

lemma exists_of_hasTokens {condition : List Token → Bool} (h : e.hasTokens id condition = true) :
    ∃ r, e.registered? id = some r ∧ r.current.isEnded = false ∧
      condition r.current.tokens = true := by
  obtain ⟨r, hr, hbody⟩ := (Option.any_eq_true _ _).1 h
  rw [Bool.and_eq_true, Bool.not_eq_true'] at hbody
  exact ⟨r, hr, hbody⟩

lemma shadowed_offerSuspended :
    offerSuspended.hasTokens firstId (fun ts => decide (Shadowed "a" ts)) = true := by
  decide +kernel

/-- The token at the gateway comes first: it is taken when the other one is suspended, and stands in
its way when it is suspended itself. -/
theorem takesFree_iff_twiceWaited :
    (∃ r, taskSuspended.registered? firstId = some r ∧ r.current.isEnded = false ∧
        r.current.tokens.map (fun t => (t.elementId, t.accepts "a", t.suspended)) =
          [("wait", true, false), ("a", true, true)] ∧
        taskSuspended.TakesFree firstId r "a"
          (taskSuspended.continueInstance firstId (some "a") none).1) ∧
      ∃ r, offerSuspended.registered? firstId = some r ∧ r.current.isEnded = false ∧
        Shadowed "a" r.current.tokens ∧
        (offerSuspended.continueInstance firstId (some "a") none).1 =
          .error (.tokenSuspended firstId "a") := by
  have hfirst : taskSuspended.hasTokens firstId (fun ts => !decide (Shadowed "a" ts) &&
      ts.map (fun t => (t.elementId, t.accepts "a", t.suspended)) ==
        [("wait", true, false), ("a", true, true)]) = true := by decide +kernel
  obtain ⟨r, hr, hlive, htokens⟩ := exists_of_hasTokens hfirst
  obtain ⟨r', hr', hlive', hshadowed⟩ := exists_of_hasTokens shadowed_offerSuspended
  simp only [Bool.and_eq_true, Bool.not_eq_true', decide_eq_false_iff_not, beq_iff_eq] at htokens
  have hshadowed := of_decide_eq_true hshadowed
  exact ⟨⟨r, hr, hlive, htokens.2,
      (takesFree_iff reachable_taskSuspended hr hlive "a" none).1.2 htokens.1⟩,
    r', hr', hlive', hshadowed,
    (takesFree_iff reachable_offerSuspended hr' hlive' "a" none).2 hshadowed⟩

/-- It is not so that a task is refused as suspended only if all tokens that accept it are. -/
theorem refused_before_free_token :
    ¬∀ (e : Engine) (id : String) (r : Registered) (task : String) (updates : Option Variables),
      e.Reachable → e.registered? id = some r → r.current.isEnded = false →
      e.TakesFree id r task (e.continueInstance id (some task) updates).1 := by
  intro hclaim
  obtain ⟨r, hr, hlive, hshadowed⟩ := exists_of_hasTokens shadowed_offerSuspended
  obtain ⟨-, t, ht, haccepts, hfree⟩ := of_decide_eq_true hshadowed
  have hfailure : failure? (offerSuspended.continueInstance firstId (some "a") none).1 =
      some (.tokenSuspended firstId "a") := by decide +kernel
  have htakes := hclaim offerSuspended firstId r "a" none reachable_offerSuspended hr hlive
  rw [(htakes.suspended.1 (error_of_failure? hfailure)).2 t ht haccepts] at hfree
  cases hfree

end Engine

end ProcessEngine

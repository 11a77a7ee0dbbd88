import ProcessEngine.Json.Record
import ProcessEngine.Proofs.Engine.Suspension
import ProcessEngine.Proofs.Fields

/-!
# The business key

An instance keeps the business key that it is started with, and start sets a variable of a reserved
name to it, whatever variables it is given.  Continuing an instance does not treat the name in a
special way, so the variable can be overwritten (`key_overwritten`).  It holds the last value that
such a call has given it, and the business key as long as none has; so it does in what is noted for
compensation (`key_follows`).
-/

namespace ProcessEngine

open Compensation (Completion Coordinator)

/-! ## What calls give to the variable -/

/-- The value that a call gives to the variable of the business key of an instance that is
registered. -/
def Call.keyUpdate : Call → Option Value
  | .proceed _ _ updates => (Fields.ofPairs (updates.getD [])).get? businessKeyName
  | _ => none

/-- The business key that a reply says an instance was started with. -/
def Reply.givenKey? (id : String) (reply : Reply) : Option String :=
  match reply.call with
  | .start _ businessKey _ => (reply.instance? id).map fun _ => businessKey
  | _ => none

/-- The value that a call which succeeded on an instance has given to the variable. -/
def Reply.keyUpdate? (id : String) (reply : Reply) : Option Value :=
  (reply.instance? id).bind fun _ => reply.call.keyUpdate

/-- The business key that an instance was started with. -/
def givenKey (id : String) (replies : List Reply) : Option String :=
  replies.findSome? (Reply.givenKey? id)

/-- The value that was given to the variable last since the instance was started. -/
def lastKeyUpdate (id : String) (replies : List Reply) : Option Value :=
  replies.reverse.findSome? (Reply.keyUpdate? id)

/-- What calls leave in the variable of the business key: the value that was given to it last, or
else the business key. -/
def keyVariable (id : String) (replies : List Reply) : Option Value :=
  (lastKeyUpdate id replies).or ((givenKey id replies).map .string)

section Replies

variable {id : String} {replies : List Reply} {reply : Reply}

lemma givenKey_concat (id : String) (replies : List Reply) (reply : Reply) :
    givenKey id (replies ++ [reply]) = (givenKey id replies).or (reply.givenKey? id) := by
  rw [givenKey, List.findSome?_append, List.findSome?_singleton, givenKey]

/-- The value that is given last wins. -/
lemma lastKeyUpdate_concat (id : String) (replies : List Reply) (reply : Reply) :
    lastKeyUpdate id (replies ++ [reply]) =
      (reply.keyUpdate? id).or (lastKeyUpdate id replies) := by
  rw [lastKeyUpdate, List.reverse_concat, ← List.singleton_append, List.findSome?_append,
    List.findSome?_singleton, lastKeyUpdate]

/-- The variable is the business key as long as it was given no other value last. -/
lemma keyVariable_eq_iff {businessKey : String} (h : givenKey id replies = some businessKey) :
    keyVariable id replies = some (.string businessKey) ↔
      ∀ v, lastKeyUpdate id replies = some v → v = .string businessKey := by
  rw [keyVariable, h]
  cases lastKeyUpdate id replies with
  | none => exact iff_of_true rfl nofun
  | some v => simp

/-- A reply that does not return the instance says nothing of its key. -/
lemma Reply.givenKey?_eq_none (h : reply.instance? id = none) : reply.givenKey? id = none := by
  rw [givenKey?]
  split
  · rw [h]
    rfl
  · rfl

lemma Reply.keyUpdate?_eq_none (h : reply.instance? id = none) : reply.keyUpdate? id = none := by
  rw [keyUpdate?, h]
  rfl

/-- Nothing is known of the key of an instance that was never returned. -/
lemma key_of_returned_nil (h : returned id replies = []) :
    givenKey id replies = none ∧ lastKeyUpdate id replies = none := by
  have hnone := List.filterMap_eq_nil_iff.1 h
  refine ⟨List.findSome?_eq_none_iff.2 fun reply hreply => ?_,
    List.findSome?_eq_none_iff.2 fun reply hreply => ?_⟩
  · exact Reply.givenKey?_eq_none (hnone reply hreply)
  · exact Reply.keyUpdate?_eq_none (hnone reply (List.mem_reverse.1 hreply))

end Replies

/-! ## What a call does to the variables -/

/-- The variables and the business key stay the same. -/
structure Instance.KeepsKey (i j : Instance) : Prop where
  id : j.id = i.id
  vars : j.vars = i.vars
  businessKey : j.businessKey = i.businessKey

lemma Instance.KeepsKey.refl (i : Instance) : i.KeepsKey i := ⟨rfl, rfl, rfl⟩

lemma Instance.KeepsKey.trans {i j k : Instance} (h : i.KeepsKey j) (h' : j.KeepsKey k) :
    i.KeepsKey k :=
  ⟨h'.id.trans h.id, h'.vars.trans h.vars, h'.businessKey.trans h.businessKey⟩

lemma Visited.keepsKey {d : Definition} {s t : Stage} (h : Visited d s t) :
    s.run.current.KeepsKey t.run.current := by
  cases h with
  | complete =>
    rw [Run.current_completed]
    exact ⟨rfl, rfl, rfl⟩
  | _ => exact ⟨rfl, rfl, rfl⟩

lemma Run.Walks.keepsKey {d : Definition} {pending pending' : List Cursor} {run run' : Run}
    {w w' : Workspace} (h : Run.Walks d pending run w pending' run' w') (hw : w.Sound)
    (hk : (run.stage pending w).Kept d) : run.current.KeepsKey run'.current :=
  h.of_visited (R := fun s t => s.run.current.KeepsKey t.run.current) (fun _ => .refl _)
    (fun h h' => h.trans h') (fun _ hvisited => hvisited.keepsKey) hw hk

lemma Run.finish_keepsKey {run run' : Run} {w w' : Workspace} (h : run.finish w = .ok run' w') :
    run.current.KeepsKey run'.current := by
  rw [finish] at h
  split_ifs at h
  · obtain ⟨ended, supply, hclose, -⟩ := close_spec run w
    rw [Action.bind_of_ok hclose] at h
    cases h
    exact ⟨rfl, rfl, rfl⟩
  · cases h
    exact .refl _

namespace Engine

variable {e : Engine} {r : Registered} {d : Definition} {run run' : Run} {w w' : Workspace}
  {i : Instance} {id : String}

lemma firstWalk_keepsKey {limit : Nat} {first : Node} (hw : w.Sound)
    (hk : (run.stage [⟨first.id, []⟩] w).Kept d) (h : firstWalk run d limit first w = .ok run' w') :
    run.current.KeepsKey run'.current := by
  obtain ⟨run₁, w₁, hwalk, hfinish⟩ := Action.bind_eq_ok.1 h
  have hfinished : (run₁.emit (.processStarted run₁.current.id)).current.KeepsKey run'.current :=
    Run.finish_keepsKey hfinish
  exact ((Run.walks_of_traverse hwalk).keepsKey hw hk).trans hfinished

lemma continueFrom_keepsKey {limit : Nat} {task : String} (hw : w.Sound)
    (hk : Kept d run.current (w.store.states run.current.id))
    (h : continueFrom run d limit task w = .ok run' w') : run.current.KeepsKey run'.current := by
  obtain ⟨token, run₁, w₁, run₂, w₂, htask, hwalks, hfinish⟩ := continueFrom_ok h
  obtain ⟨hw₁, hstage, -, -⟩ := completeTask_kept hw hk htask
  obtain ⟨-, element, -, rfl, -⟩ := completeTask_ok htask
  have htaken : run.current.KeepsKey (taken run task token element w.supply.now.1).current := by
    rw [taken, Run.current_completed]
    exact ⟨rfl, rfl, rfl⟩
  exact (htaken.trans (hwalks.keepsKey hw₁ hstage)).trans (Run.finish_keepsKey hfinish)

lemma suspendRun_keepsKey {element : Option String} (h : suspendRun r element w = .ok run w') :
    r.current.KeepsKey run.current := by
  rw [suspendRun_eq] at h
  split at h
  · cases h
  · obtain ⟨run₁, w₁, hrecord, hrun⟩ := Action.bind_eq_ok.1 h
    cases hrun
    obtain ⟨history, supply, hrecorded, -⟩ := recordTokens_spec r.definition .suspended
      (r.current.tokens.filter fun t => !t.suspended && isAt element t) (suspending r element) w
    rw [hrecorded] at hrecord
    cases hrecord
    exact ⟨rfl, rfl, rfl⟩

lemma resumeRun_keepsKey {element : Option String} (h : resumeRun r element w = .ok run w') :
    r.current.KeepsKey run.current := by
  rw [resumeRun_eq] at h
  split_ifs at h
  cases h
  exact ⟨rfl, rfl, rfl⟩

lemma terminateRun_keepsKey {reason : Option String} (h : terminateRun r reason w = .ok run w') :
    r.current.KeepsKey run.current := by
  obtain ⟨run₁, w₁, hrecord, hrest⟩ := Action.bind_eq_ok.1 h
  obtain ⟨run₂, w₂, hclose, hrun⟩ := Action.bind_eq_ok.1 hrest
  obtain ⟨history, supply, hrecorded, -⟩ := recordTokens_spec r.definition .cancelled
    r.current.tokens (terminating r reason) w
  obtain ⟨ended, later, hclosed, -⟩ := Run.close_spec run₁ w₁
  rw [hclosed] at hclose
  cases hclose
  cases hrun
  have hrun₁ := hrecorded.symm.trans hrecord
  cases hrun₁
  exact ⟨rfl, rfl, rfl⟩

/-- What a call that succeeds makes of the business key.  A start sets the variable; any other call
leaves it as it was, unless it gives it a value. -/
inductive KeyStep (e : Engine) : Call → Instance → Prop
  | start {d : Definition} {businessKey : String} {vars : Option Variables} {i : Instance}
      (hid : i.id = e.workspace.supply.instanceId.1) (hkey : i.businessKey = businessKey)
      (hvariable : i.vars.get? businessKeyName = some (.string businessKey)) :
      KeyStep e (.start d businessKey vars) i
  | goOn {c : Call} {r : Registered} {i : Instance} (hstarts : c.starts = false)
      (hr : e.registered? i.id = some r) (hkey : i.businessKey = r.current.businessKey)
      (hvariable : i.vars.get? businessKeyName =
        c.keyUpdate.or (r.current.vars.get? businessKeyName)) : KeyStep e c i

/-- A call that gives the variable no value. -/
lemma KeyStep.of_keepsKey (h : e.Sound) {c : Call} (hstarts : c.starts = false)
    (hr : e.registered? id = some r) (hnone : c.keyUpdate = none)
    (hkeeps : r.current.KeepsKey i) : e.KeyStep c i := by
  refine .goOn (r := r) hstarts ?_ hkeeps.businessKey ?_
  · rw [hkeeps.id, (h.known id r hr).1]
    exact hr
  · rw [hnone, hkeeps.vars]
    rfl

/-- A call that continues an instance. -/
lemma KeyStep.of_merged (h : e.Sound) {task : Option String} {updates : Option Variables}
    (hr : e.registered? id = some r)
    (hkeeps : (r.current.mergeVariables (updates.getD [])).KeepsKey i) :
    e.KeyStep (.proceed id task updates) i := by
  refine .goOn (r := r) rfl ?_ hkeeps.businessKey ?_
  · rw [hkeeps.id, Instance.mergeVariables, (h.known id r hr).1]
    exact hr
  · rw [hkeeps.vars, Instance.mergeVariables, Fields.get?_merge]
    rfl

/-- What a call is about to commit. -/
lemma keyStep_of_pending (h : e.Sound) {c : Call} {e₁ : Engine}
    (hpending : e.pending c = some (d, run, e₁)) : e.KeyStep c run.current := by
  cases c with
  | start d' businessKey vars =>
    obtain ⟨first, rest, run₀, supply, -, rfl, hopening, hfirst⟩ :=
      Lasting.ok_of_pendingStart hpending
    obtain ⟨htokens, hhistory, hnone, hsound⟩ := opening_spec h hopening
    have hkeeps := firstWalk_keepsKey hsound (.fresh hsound htokens hhistory hnone first.id) hfirst
    cases hopening
    refine .start hkeeps.id hkeeps.businessKey ?_
    rw [hkeeps.vars]
    exact (Fields.get?_insert _ _ _ _).trans (if_pos rfl)
  | proceed id task updates =>
    obtain ⟨r, hr, hlive, rfl, hok⟩ := Lasting.ok_of_pendingOnLive hpending
    refine .of_merged h hr ?_
    cases task with
    | none =>
      generalize e₁.workspace = w at hok
      cases hok
      exact .refl _
    | some task =>
      have hkept := h.kept id r hr hlive
      rw [← (h.known id r hr).1] at hkept
      exact continueFrom_keepsKey h.workspace (hkept.mergeVariables _) hok
  | suspend id element =>
    obtain ⟨r, hr, -, rfl, hok⟩ := Lasting.ok_of_pendingOnLive hpending
    exact .of_keepsKey h rfl hr rfl (suspendRun_keepsKey hok)
  | resume id element =>
    obtain ⟨r, hr, -, rfl, hok⟩ := Lasting.ok_of_pendingOnLive hpending
    exact .of_keepsKey h rfl hr rfl (resumeRun_keepsKey hok)
  | terminate id reason => cases hpending

/-- What a call that succeeds returns. -/
theorem call_keyStep (h : e.Sound) {c : Call} (hok : (e.call c).1 = .ok i) : e.KeyStep c i := by
  rcases yielded_cases h hok with ⟨d, run, e₁, hpending, rfl⟩ |
    ⟨id, reason, r, run, w, rfl, hr, hrun, rfl⟩
  · exact keyStep_of_pending h hpending
  · exact .of_keepsKey h rfl hr rfl (terminateRun_keepsKey hrun)

end Engine

/-! ## The invariant -/

/-- The state of an instance that was returned last has the business key that it was started with
and the variable as the calls have left it, and it is the registered one. -/
structure KeyHeld (id : String) (replies : List Reply) (e : Engine) : Prop where
  last : ∀ r, e.registered? id = some r → (returned id replies).getLast? = some r.current
  issued : returned id replies ≠ [] → Issued e.workspace.supply.issued id
  key : ∀ i, (returned id replies).getLast? = some i →
    givenKey id replies = some i.businessKey ∧
      i.vars.get? businessKeyName = keyVariable id replies

namespace KeyHeld

variable {id : String} {replies : List Reply} {e e' : Engine}

/-- A reply that does not return the instance. -/
lemma concat_none (h : KeyHeld id replies e) {reply : Reply} (hnone : reply.instance? id = none)
    (hregistered : e'.registered? id = e.registered? id)
    (hissued : e.workspace.supply.issued ≤ e'.workspace.supply.issued) :
    KeyHeld id (replies ++ [reply]) e' := by
  have hreturned := returned_concat_none replies hnone
  have hgiven : givenKey id (replies ++ [reply]) = givenKey id replies := by
    rw [givenKey_concat, Reply.givenKey?_eq_none hnone, Option.or_none]
  have hvariable : keyVariable id (replies ++ [reply]) = keyVariable id replies := by
    rw [keyVariable, lastKeyUpdate_concat, hgiven, Reply.keyUpdate?_eq_none hnone, Option.none_or,
      keyVariable]
  refine ⟨fun r hr => ?_, fun hne => ?_, ?_⟩
  · rw [hreturned]
    exact h.last r (hregistered ▸ hr)
  · rw [hreturned] at hne
    exact (h.issued hne).mono hissued
  · rw [hreturned, hgiven, hvariable]
    exact h.key

/-- A call that succeeds on the instance. -/
lemma step (h : KeyHeld id replies e) {c : Call} {i : Instance} (hstep : e.KeyStep c i)
    (hid : i.id = id) :
    givenKey id (replies ++ [⟨c, .ok i⟩]) = some i.businessKey ∧
      i.vars.get? businessKeyName = keyVariable id (replies ++ [⟨c, .ok i⟩]) := by
  have hinstance : Reply.instance? id ⟨c, .ok i⟩ = some i := if_pos hid
  have hupdate : Reply.keyUpdate? id ⟨c, .ok i⟩ = c.keyUpdate := by
    rw [Reply.keyUpdate?, hinstance]
    rfl
  rw [keyVariable, lastKeyUpdate_concat, givenKey_concat, hupdate]
  cases hstep with
  | @start d businessKey vars _ hnew hkey hvariable =>
    have hnone : returned id replies = [] := by
      by_contra hne
      exact (h.issued hne).ne_instanceId (hid.symm.trans hnew)
    obtain ⟨hgiven, hlast⟩ := key_of_returned_nil hnone
    have hgives : Reply.givenKey? id ⟨.start d businessKey vars, .ok i⟩ = some businessKey := by
      rw [Reply.givenKey?, hinstance]
      rfl
    rw [hgiven, hgives, hlast, hvariable, hkey]
    exact ⟨rfl, rfl⟩
  | @goOn _ r _ hstarts hr hkey hvariable =>
    obtain ⟨hgiven, hbefore⟩ := h.key r.current (h.last r (hid ▸ hr))
    rw [hgiven, Option.some_or, hkey, hvariable, hbefore, keyVariable, hgiven, Option.or_assoc]
    exact ⟨rfl, rfl⟩

/-- A call, whatever comes of it. -/
theorem call (h : KeyHeld id replies e) (hreachable : e.Reachable) (c : Call) :
    KeyHeld id (replies ++ [⟨c, (e.call c).1⟩]) (e.call c).2 := by
  have hsound' := (hreachable.call c).sound
  have hcomes := Engine.call_comes hreachable.sound c
  have hstep : ∀ i, (e.call c).1 = .ok i → e.KeyStep c i :=
    fun i => Engine.call_keyStep hreachable.sound
  generalize e.call c = result at hcomes hsound' hstep
  cases hcomes with
  | failed hunseen => exact h.concat_none rfl rfl hunseen.issued
  | @succeeded d run e' ts es hsuccess hsettled =>
    by_cases hid : run.current.id = id
    · have hreturned := returned_concat_ok replies c hid
      refine ⟨fun r hr => ?_, fun _ => ?_, fun i hi => ?_⟩
      · rw [hsettled.registered, if_pos hid.symm] at hr
        split_ifs at hr
        cases hr
        rw [hreturned, List.getLast?_concat]
      · rw [← hid]
        exact hsuccess.issued hreachable.sound hsound' hsettled
      · rw [hreturned, List.getLast?_concat] at hi
        cases hi
        exact h.step (hstep _ rfl) hid
    · have hregistered : e'.registered? id = e.registered? id := by
        rw [hsettled.registered, if_neg (Ne.symm hid)]
      exact h.concat_none (if_neg hid) hregistered hsettled.issued

end KeyHeld

/-! ## What is noted -/

/-- Recording completions adds records with their variables. -/
lemma Compensation.Coordinator.recordAll_records (c : Coordinator) (notes : List Completion) :
    ∃ added, (notes.foldl (fun c note => (c.recordExecution note).2) c).records =
        c.records ++ added ∧ added.map Compensation.Record.toCompletion = notes := by
  induction notes generalizing c with
  | nil => exact ⟨[], (List.append_nil _).symm, rfl⟩
  | cons note rest ih =>
    obtain ⟨added, hrecords, hnotes⟩ := ih (c.recordExecution note).2
    refine ⟨(c.recordExecution note).1 :: added, ?_, ?_⟩
    · rw [List.foldl_cons, hrecords, List.append_cons]
      rfl
    · rw [List.map_cons, hnotes]
      rfl

namespace Engine

variable {id : String} {replies : List Reply} {e : Engine}

lemma Answered.keyHeld (h : Answered replies e) (id : String) : KeyHeld id replies e := by
  induction h with
  | new config clock => exact ⟨nofun, fun hne => absurd rfl hne, nofun⟩
  | call h c ih => exact ih.call h.reachable c
  | withCoordinator h c ih => exact ⟨ih.last, ih.issued, ih.key⟩
  | withBus h b ih => exact ⟨ih.last, ih.issued, ih.key⟩

/-- An instance keeps the business key that it was started with, and its variable of the reserved
name holds the value that a continuation has given it last, or the business key if none has; so it
holds the business key if and only if that value, if there is one, is the same.  This is so of every
state that calls return, of registered instances, and of what the completed tasks of a call are
recorded with. -/
theorem key_follows (h : Answered replies e) :
    (∀ id i, e.get? id = some i → (returned id replies).getLast? = some i) ∧
      (∀ id i, (returned id replies).getLast? = some i →
        givenKey id replies = some i.businessKey ∧
          i.vars.get? businessKeyName = keyVariable id replies ∧
          (i.vars.get? businessKeyName = some (.string i.businessKey) ↔
            ∀ v, lastKeyUpdate id replies = some v → v = .string i.businessKey)) ∧
      ∀ call c, e.coordinator = some c →
        ∃ c' added, (e.call call).2.coordinator = some c' ∧ c'.records = c.records ++ added ∧
          ∀ record ∈ added, record.vars.get? businessKeyName =
            keyVariable record.instanceId (replies ++ [⟨call, (e.call call).1⟩]) := by
  refine ⟨fun id i hi => ?_, fun id i hi => ?_, fun call c hc => ?_⟩
  · obtain ⟨r, hr, rfl⟩ := Option.map_eq_some_iff.1 hi
    exact (h.keyHeld id).last r hr
  · obtain ⟨hgiven, hvariable⟩ := (h.keyHeld id).key i hi
    exact ⟨hgiven, hvariable, by rw [hvariable, keyVariable_eq_iff hgiven]⟩
  · have hcomes := call_comes h.reachable.sound call
    have hstep : ∀ i, (e.call call).1 = .ok i → e.KeyStep call i :=
      fun i => call_keyStep h.reachable.sound
    generalize e.call call = result at hcomes hstep
    cases hcomes with
    | failed => exact ⟨c, [], hc, (List.append_nil _).symm, nofun⟩
    | @succeeded d run e' ts es hsuccess hsettled =>
      obtain ⟨added, hrecords, hnotes⟩ := c.recordAll_records run.completions
      refine ⟨_, added, ?_, hrecords, fun record hrecord => ?_⟩
      · rw [hsettled.coordinator, hc]
        rfl
      · obtain ⟨entry, hnoted⟩ := hsuccess.noted.exists_entry record.toCompletion
          (hnotes ▸ List.mem_map_of_mem hrecord)
        rw [hnoted.vars, hnoted.instanceId]
        exact ((h.keyHeld run.current.id).step (hstep _ rfl) rfl).2

/-! ## A booking under another key -/

/-- The confirmation of a booking, which gives a value to the variable of the reserved name. -/
def rekeying : Call :=
  .proceed firstId (some "confirm") (some [(businessKeyName, .string "voyage")])

/-- The booking is confirmed. -/
def rekeyed : Engine := (unconfirmed.call rekeying).2

/-- What the calls of the booking have returned. -/
def rekeyedReplies : List Reply :=
  [⟨.start booking "trip" none, (recording.call (.start booking "trip" none)).1⟩,
    ⟨rekeying, (unconfirmed.call rekeying).1⟩]

lemma answered_unconfirmed :
    Answered [⟨.start booking "trip" none, (recording.call (.start booking "trip" none)).1⟩]
      unconfirmed := by
  have hrecording : Answered [] recording := .withCoordinator (.new _ _) _
  exact hrecording.call _

lemma answered_rekeyed : Answered rekeyedReplies rekeyed := answered_unconfirmed.call rekeying

/-- The business key of a registered instance, and the text that its variable holds. -/
def keys (e : Engine) (id : String) : Option (String × Option String) :=
  (e.get? id).map fun i => (i.businessKey, (i.vars.get? businessKeyName).bind Json.text?)

/-- The activities that are recorded of an instance, with the texts that the variable held. -/
def recordedKeys (e : Engine) (id : String) : Option (List (String × Option String)) :=
  e.coordinator.map fun c => (c.recordsOf id).map fun record =>
    (record.activityId, (record.vars.get? businessKeyName).bind Json.text?)

lemma keys_rekeyed : rekeyed.keys firstId = some ("trip", some "voyage") := by decide +kernel

/-- Two calls on a booking. -/
theorem key_follows_rekeyed :
    Answered rekeyedReplies rekeyed ∧ givenKey firstId rekeyedReplies = some "trip" ∧
      (keyVariable firstId rekeyedReplies).bind Json.text? = some "voyage" ∧
      (∀ id i, rekeyed.get? id = some i → (returned id rekeyedReplies).getLast? = some i) ∧
      (∀ id i, (returned id rekeyedReplies).getLast? = some i →
        givenKey id rekeyedReplies = some i.businessKey ∧
          i.vars.get? businessKeyName = keyVariable id rekeyedReplies ∧
          (i.vars.get? businessKeyName = some (.string i.businessKey) ↔
            ∀ v, lastKeyUpdate id rekeyedReplies = some v → v = .string i.businessKey)) ∧
      ∀ call c, rekeyed.coordinator = some c →
        ∃ c' added, (rekeyed.call call).2.coordinator = some c' ∧
          c'.records = c.records ++ added ∧
          ∀ record ∈ added, record.vars.get? businessKeyName = keyVariable record.instanceId
            (rekeyedReplies ++ [⟨call, (rekeyed.call call).1⟩]) :=
  ⟨answered_rekeyed, by decide +kernel, by decide +kernel, key_follows answered_rekeyed⟩

/-- It is not so that the variable of the reserved name always holds the business key: neither in an
instance, nor in the record of a task that was completed by the call which has overwritten it. -/
theorem key_overwritten :
    (¬∀ (e : Engine) (id : String) (i : Instance), e.Reachable → e.get? id = some i →
        i.vars.get? businessKeyName = some (.string i.businessKey)) ∧
      rekeyed.recordedKeys firstId =
        some [("flight", some "trip"), ("hotel", some "trip"), ("confirm", some "voyage")] := by
  refine ⟨fun hclaim => ?_, by decide +kernel⟩
  obtain ⟨i, hi, hkeys⟩ := Option.map_eq_some_iff.1 keys_rekeyed
  rw [hclaim rekeyed firstId i answered_rekeyed.reachable hi] at hkeys
  obtain ⟨hkey, htext⟩ := Prod.mk.inj hkeys
  have hsame : some i.businessKey = some "voyage" := htext
  rw [hkey] at hsame
  exact absurd hsame (by decide)

end Engine

end ProcessEngine

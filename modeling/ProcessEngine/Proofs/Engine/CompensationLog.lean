import ProcessEngine.Proofs.Compensation.Records
import ProcessEngine.Proofs.Engine.CarriedForks
import ProcessEngine.Proofs.Engine.Successes
import ProcessEngine.Proofs.Lists

/-!
# The compensation log

History is written while tokens walk, and a coordinator gets its records only after a call has
succeeded.  Still the two logs are one: the records of an instance are the tasks that its history
says are completed, one record for each, in the same order, with the variables that the call which
completed the task has returned (`records_mirror_history`).
-/

namespace ProcessEngine

open Compensation (Completion Coordinator)

/-! ## What calls return -/

/-- A call with what it has returned. -/
structure Reply where
  call : Call
  result : Except EngineError Instance

/-- The instance that a reply returns, if it is the one with the given id. -/
def Reply.instance? (id : String) (reply : Reply) : Option Instance :=
  match reply.result with
  | .ok i => if i.id = id then some i else none
  | .error _ => none

/-- The definition that a reply says an instance was started with. -/
def Reply.definition? (id : String) (reply : Reply) : Option Definition :=
  match reply.call with
  | .start d _ _ => (reply.instance? id).map fun _ => d
  | _ => none

/-- The states of an instance that calls have returned, in order. -/
def returned (id : String) (replies : List Reply) : List Instance :=
  replies.filterMap (Reply.instance? id)

/-- The definition that an instance was started with. -/
def startedWith (id : String) (replies : List Reply) : Option Definition :=
  replies.findSome? (Reply.definition? id)

/-- The history of an instance that was returned last. -/
def lastHistory (id : String) (replies : List Reply) : List HistoryEntry :=
  ((returned id replies).getLast?.map Instance.history).getD []

/-- The entries of a history that say that a task was completed, with their positions. -/
def completedTasks (history : List HistoryEntry) : List (HistoryEntry × Nat) :=
  history.zipIdx.filter fun x => x.1.isCompletedTask

/-- A completion mirrors an entry at a position of the history of an instance: it notes the entry,
with the variables of the first returned state whose history reaches to that position. -/
def Mirrors (id : String) (replies : List Reply) (entry : HistoryEntry × Nat)
    (note : Completion) : Prop :=
  ∃ d i, startedWith id replies = some d ∧
    (returned id replies).find? (fun i => entry.2 < i.history.length) = some i ∧
    Noted d id i.vars entry.1 note

namespace Engine

/-- The engines that calls lead to, with the replies to the calls, if completed tasks are recorded
with a coordinator all along.  At first the coordinator has no records of the given instance, and it
is used for all but recording that instance, and forgetting it. -/
inductive Wired (id : String) : List Reply → Engine → Prop
  | new (config : Config) (clock : Nat → Instant) (hrecord : config.recordExecutions = true) :
      Wired id [] (.new config (.start clock))
  | withCoordinator (config : Config) (clock : Nat → Instant) {c : Coordinator}
      (hnone : c.recordsOf id = []) :
      Wired id [] ((Engine.new config (.start clock)).withCoordinator c)
  | call {replies : List Reply} {e : Engine} (h : Wired id replies e) (c : Call) :
      Wired id (replies ++ [⟨c, (e.call c).1⟩]) (e.call c).2
  | use {replies : List Reply} {e : Engine} {c c' : Coordinator} (h : Wired id replies e)
      (hc : e.coordinator = some c) (huse : c.Uses id c') : Wired id replies (e.withCoordinator c')
  | withBus {replies : List Reply} {e : Engine} (h : Wired id replies e) (b : EventBus) :
      Wired id replies (e.withBus b)

variable {id : String} {replies : List Reply} {e : Engine}

lemma Wired.reachable (h : Wired id replies e) : e.Reachable := by
  induction h with
  | new config clock => exact .new config clock
  | withCoordinator config clock => exact .withCoordinator (.new config clock) _
  | call h c ih => exact ih.call c
  | use h hc huse ih => exact ih.withCoordinator _
  | withBus h b ih => exact ih.withBus b

end Engine

/-! ## Replies in order -/

section Replies

variable {id : String} {replies : List Reply} {reply : Reply}

lemma returned_concat (id : String) (replies : List Reply) (reply : Reply) :
    returned id (replies ++ [reply]) = returned id replies ++ (reply.instance? id).toList := by
  rw [returned, List.filterMap_append, returned]
  cases h : reply.instance? id <;> simp [h]

lemma returned_concat_none (replies : List Reply) (h : reply.instance? id = none) :
    returned id (replies ++ [reply]) = returned id replies := by
  rw [returned_concat, h]
  exact List.append_nil _

lemma returned_concat_ok (replies : List Reply) (c : Call) {i : Instance} (h : i.id = id) :
    returned id (replies ++ [⟨c, .ok i⟩]) = returned id replies ++ [i] := by
  rw [returned_concat, Reply.instance?]
  simp only [if_pos h]
  rfl

lemma startedWith_concat (id : String) (replies : List Reply) (reply : Reply) :
    startedWith id (replies ++ [reply]) =
      (startedWith id replies).or (reply.definition? id) := by
  rw [startedWith, List.findSome?_append, List.findSome?_singleton, startedWith]

/-- A reply that does not return the instance does not say what it was started with. -/
lemma Reply.definition?_eq_none (h : reply.instance? id = none) : reply.definition? id = none := by
  rw [definition?]
  split
  · rw [h]
    rfl
  · rfl

/-- An instance that was never returned was never started. -/
lemma startedWith_eq_none (h : returned id replies = []) : startedWith id replies = none := by
  rw [startedWith, List.findSome?_eq_none_iff]
  intro reply hreply
  exact Reply.definition?_eq_none (List.filterMap_eq_nil_iff.1 h reply hreply)

lemma lastHistory_of_getLast? {i : Instance} (h : (returned id replies).getLast? = some i) :
    lastHistory id replies = i.history := by
  rw [lastHistory, h]
  rfl

/-- What mirrors an entry still does when more is returned. -/
lemma Mirrors.concat {entry : HistoryEntry × Nat} {note : Completion}
    (h : Mirrors id replies entry note) (reply : Reply) :
    Mirrors id (replies ++ [reply]) entry note := by
  obtain ⟨d, i, hd, hi, hnoted⟩ := h
  refine ⟨d, i, ?_, ?_, hnoted⟩
  · rw [startedWith_concat, hd]
    rfl
  · rw [returned_concat, List.find?_append, hi]
    rfl

/-- The entries that are made between two returned states are mirrored with the variables of the
later one. -/
lemma mirrors_of_allNoted {d : Definition} {i : Instance} {entries : List HistoryEntry}
    {notes : List Completion} {n : Nat} (hstarted : startedWith id (replies ++ [reply]) = some d)
    (hreply : reply.instance? id = some i)
    (hbefore : ∀ j ∈ returned id replies, j.history.length ≤ n)
    (hlength : i.history.length = n + entries.length)
    (hnoted : AllNoted d id i.vars entries notes) :
    List.Forall₂ (Mirrors id (replies ++ [reply]))
      ((entries.zipIdx n).filter fun x => x.1.isCompletedTask) notes := by
  refine (forall₂_zipIdx hnoted n).imp ?_
  rintro entry note ⟨hle, hlt, hnote⟩
  refine ⟨d, i, hstarted, ?_, hnote⟩
  have hnone : (returned id replies).find? (fun j => entry.2 < j.history.length) = none := by
    rw [List.find?_eq_none]
    intro j hj
    have := hbefore j hj
    simp
    omega
  rw [returned_concat, hreply, List.find?_append, hnone, Option.none_or, Option.toList_some,
    List.find?_cons_of_pos]
  simp
  omega

/-- A longer history has the completed tasks of its beginning, and then those of the rest. -/
lemma completedTasks_append (history entries : List HistoryEntry) :
    completedTasks (history ++ entries) = completedTasks history ++
      (entries.zipIdx history.length).filter fun x => x.1.isCompletedTask := by
  rw [completedTasks, List.zipIdx_append, List.filter_append, Nat.zero_add, completedTasks]

end Replies

/-! ## The invariant -/

/-- The last state of an instance that was returned is the registered one, no earlier state has a
longer history, and the records mirror the completed tasks of its history. -/
structure Mirrored (id : String) (replies : List Reply) (e : Engine) : Prop where
  last : ∀ r, e.registered? id = some r →
    startedWith id replies = some r.definition ∧ (returned id replies).getLast? = some r.current
  issued : returned id replies ≠ [] → Issued e.workspace.supply.issued id
  longest : ∀ i ∈ returned id replies, i.history.length ≤ (lastHistory id replies).length
  log : ∃ c log, e.coordinator = some c ∧ c.Logs id log ∧
    List.Forall₂ (Mirrors id replies) (completedTasks (lastHistory id replies)) log

namespace Mirrored

variable {id : String} {replies : List Reply} {e e' : Engine}

/-- Nothing was returned yet. -/
lemma start {c : Coordinator} (hregistry : e.registry = []) (hc : e.coordinator = some c)
    (hnone : c.recordsOf id = []) : Mirrored id [] e where
  last r hr := by
    rw [Engine.registered?, hregistry] at hr
    cases hr
  issued h := absurd rfl h
  longest := nofun
  log := ⟨c, [], hc, .nil hnone, .nil⟩

/-- Something happened that does not concern the instance. -/
lemma elsewhere (h : Mirrored id replies e)
    (hregistered : e'.registered? id = e.registered? id)
    (hissued : e.workspace.supply.issued ≤ e'.workspace.supply.issued)
    (hlog : ∀ c log, e.coordinator = some c → c.Logs id log →
      ∃ c', e'.coordinator = some c' ∧ c'.Logs id log) : Mirrored id replies e' where
  last r hr := h.last r (hregistered ▸ hr)
  issued hne := (h.issued hne).mono hissued
  longest := h.longest
  log := by
    obtain ⟨c, log, hc, hlogs, hall⟩ := h.log
    obtain ⟨c', hc', hlogs'⟩ := hlog c log hc hlogs
    exact ⟨c', log, hc', hlogs', hall⟩

/-- A reply that does not return the instance. -/
lemma concat_none (h : Mirrored id replies e) {reply : Reply} (hnone : reply.instance? id = none) :
    Mirrored id (replies ++ [reply]) e := by
  have hreturned := returned_concat_none replies hnone
  have hstarted : startedWith id (replies ++ [reply]) = startedWith id replies := by
    rw [startedWith_concat, Reply.definition?_eq_none hnone, Option.or_none]
  have hhistory : lastHistory id (replies ++ [reply]) = lastHistory id replies := by
    rw [lastHistory, hreturned, lastHistory]
  refine ⟨?_, ?_, ?_, ?_⟩
  · rw [hreturned, hstarted]
    exact h.last
  · rw [hreturned]
    exact h.issued
  · rw [hreturned, hhistory]
    exact h.longest
  · obtain ⟨c, log, hc, hlogs, hall⟩ := h.log
    rw [hhistory]
    exact ⟨c, log, hc, hlogs, hall.imp fun _ _ hmirrors => hmirrors.concat reply⟩

/-- The history of an instance goes on from where it was when it was returned last, and it is known
with which definition it was started. -/
lemma concerned (h : Mirrored id replies e) (hsound : e.Sound) {c : Call} {d : Definition}
    (hconcerns : e.Concerns c d id) {i : Instance} (hid : i.id = id) :
    e.historyOf id = lastHistory id replies ∧
      startedWith id (replies ++ [⟨c, .ok i⟩]) = some d := by
  rw [startedWith_concat]
  cases hconcerns with
  | new d businessKey vars =>
    have hnone : returned e.workspace.supply.instanceId.1 replies = [] := by
      by_contra hne
      exact (h.issued hne).ne_instanceId rfl
    have hget : e.get? e.workspace.supply.instanceId.1 = none := by
      rw [Engine.get?, hsound.registered?_instanceId]
      rfl
    refine ⟨?_, ?_⟩
    · rw [Engine.historyOf, hget, lastHistory, hnone]
      rfl
    · rw [startedWith_eq_none hnone, Option.none_or, Reply.definition?, Reply.instance?]
      simp only [if_pos hid]
      rfl
  | known _ hr _ =>
    obtain ⟨hstarted, hlast⟩ := h.last _ hr
    refine ⟨?_, ?_⟩
    · rw [Engine.historyOf_of_registered hr, lastHistory_of_getLast? hlast]
    · rw [hstarted]
      rfl

/-- A call that succeeds on the instance. -/
lemma success (h : Mirrored id replies e) (hsound : e.Sound) (hsound' : e'.Sound) {c : Call}
    {d : Definition} {run : Run} {ts : List Token} {es : List HistoryEntry}
    (hid : run.current.id = id)
    (hsuccess : e.Success c d run e'.workspace.supply.issued ts es)
    (hsettled : e.Settled c d run e') :
    Mirrored id (replies ++ [⟨c, .ok run.current⟩]) e' := by
  obtain ⟨hhistory, hstarted⟩ := h.concerned hsound (hid ▸ hsuccess.concerns) hid
  have hreturned := returned_concat_ok replies c hid
  have hlonger : run.current.history = lastHistory id replies ++ es := by
    rw [← hhistory, ← hid]
    exact hsuccess.history
  have hlast : (returned id (replies ++ [⟨c, .ok run.current⟩])).getLast? = some run.current := by
    rw [hreturned, List.getLast?_concat]
  have hnow := lastHistory_of_getLast? hlast
  refine ⟨fun r hr => ?_, fun _ => ?_, fun i hi => ?_, ?_⟩
  · rw [hsettled.registered, if_pos hid.symm] at hr
    split_ifs at hr
    cases hr
    exact ⟨hstarted, hlast⟩
  · rw [← hid]
    exact hsuccess.issued hsound hsound' hsettled
  · rw [hnow, hlonger, List.length_append]
    rw [hreturned] at hi
    rcases List.mem_append.1 hi with hi | hi
    · exact Nat.le_trans (h.longest i hi) (Nat.le_add_right _ _)
    · rw [List.mem_singleton.1 hi, hlonger, List.length_append]
  · obtain ⟨coordinator, log, hc, hlogs, hall⟩ := h.log
    have hnoted := hsuccess.noted
    rw [hid] at hnoted
    refine ⟨_, log ++ run.completions, ?_, hlogs.recordAll hnoted.instanceId, ?_⟩
    · rw [hsettled.coordinator, hc]
      rfl
    · rw [hnow, hlonger, completedTasks_append]
      refine List.rel_append (hall.imp fun _ _ hmirrors => hmirrors.concat _) ?_
      exact mirrors_of_allNoted hstarted (if_pos hid) h.longest
        (by rw [hlonger, List.length_append]) hnoted

/-- A call, whatever comes of it. -/
theorem call (h : Mirrored id replies e) (hreachable : e.Reachable) (c : Call) :
    Mirrored id (replies ++ [⟨c, (e.call c).1⟩]) (e.call c).2 := by
  have hsound' := (hreachable.call c).sound
  have hcomes := Engine.call_comes hreachable.sound c
  generalize e.call c = result at hcomes hsound'
  cases hcomes with
  | @failed err w hunseen =>
    have hsame : Mirrored id replies { e with workspace := w } :=
      h.elsewhere rfl hunseen.issued fun c log hc hlogs => ⟨c, hc, hlogs⟩
    exact hsame.concat_none rfl
  | @succeeded d run e' ts es hsuccess hsettled =>
    by_cases hid : run.current.id = id
    · exact h.success hreachable.sound hsound' hid hsuccess hsettled
    · have hnone : Reply.instance? id ⟨c, .ok run.current⟩ = none := if_neg hid
      have hregistered : e'.registered? id = e.registered? id := by
        rw [hsettled.registered, if_neg (Ne.symm hid)]
      refine (h.elsewhere hregistered hsettled.issued fun c log hc hlogs => ?_).concat_none hnone
      rw [hsettled.coordinator, hc]
      refine ⟨_, rfl, hlogs.recordOthers fun note hnote => ?_⟩
      rw [hsuccess.noted.instanceId note hnote]
      exact hid

end Mirrored

namespace Engine

variable {id : String} {replies : List Reply} {e : Engine}

lemma Wired.mirrored (h : Wired id replies e) : Mirrored id replies e := by
  induction h with
  | new config clock hrecord =>
    have hc : (Engine.new config (.start clock)).coordinator = some (.new config.retry) :=
      if_pos hrecord
    exact .start rfl hc rfl
  | withCoordinator config clock hnone => exact .start rfl rfl hnone
  | call h c ih => exact ih.call h.reachable c
  | use h hc huse ih =>
    refine ih.elsewhere rfl (Nat.le_refl _) fun c log hc' hlogs => ⟨_, rfl, ?_⟩
    rw [hc] at hc'
    cases hc'
    exact hlogs.spared huse.spares
  | withBus h b ih =>
    exact ih.elsewhere rfl (Nat.le_refl _) fun c log hc hlogs => ⟨c, hc, hlogs⟩

/-- The compensation log mirrors history.  At every point the records of an instance are, one for
one and in order, the tasks that its last history says are completed, with the variables that the
call which completed the task has returned, and with ascending sequence numbers.  While the instance
is registered its last history is the registered one. -/
theorem records_mirror_history (h : Wired id replies e) :
    ∃ c, e.coordinator = some c ∧
      (∀ i, e.get? id = some i → (returned id replies).getLast? = some i) ∧
      List.Forall₂ (fun entry record => Mirrors id replies entry record.toCompletion)
        (completedTasks (lastHistory id replies)) (c.recordsOf id) ∧
      (c.recordsOf id).Pairwise fun a b => a.sequence < b.sequence := by
  obtain ⟨hlast, -, -, c, log, hc, hlogs, hall⟩ := h.mirrored
  refine ⟨c, hc, fun i hi => ?_, ?_, hlogs.ascending⟩
  · obtain ⟨r, hr, rfl⟩ := Option.map_eq_some_iff.1 hi
    exact (hlast r hr).2
  · rw [← hlogs.completions] at hall
    exact List.forall₂_map_right_iff.1 hall

/-! ## A booking -/

/-- Two bookings, and a confirmation that is waited for. -/
def booking : Definition :=
  { Definition.empty "booking" with
    startEvents := [.unnamed "start"]
    endEvents := [.unnamed "end"]
    userTasks := [⟨"confirm", some "Confirm"⟩]
    serviceTasks := [.unnamed "flight", .unnamed "hotel"]
    flows := [⟨"f1", "start", "flight", none⟩, ⟨"f2", "flight", "hotel", none⟩,
      ⟨"f3", "hotel", "confirm", none⟩, ⟨"f4", "confirm", "end", none⟩] }

/-- An engine with a coordinator that holds nothing. -/
def recording : Engine := small.withCoordinator (.new .standard)

/-- The booking waits for its confirmation. -/
def unconfirmed : Engine := (recording.call (.start booking "trip" none)).2

lemma unconfirmed_coordinator : unconfirmed.coordinator.isSome = true := by decide +kernel

/-- A handler is registered in the meantime that gives the flight back. -/
def cancellable : Engine :=
  unconfirmed.withCoordinator ((unconfirmed.coordinator.get unconfirmed_coordinator).register
    firstId "flight" ⟨fun _ _ => .done, none⟩)

/-- The confirmation of something else, which fails. -/
def misguided : Call := .proceed firstId (some "seat") none

/-- The confirmation of the booking. -/
def confirmation : Call := .proceed firstId (some "confirm") (some [("seat", .string "12A")])

/-- The booking is confirmed in the end. -/
def confirmed : Engine := ((cancellable.call misguided).2.call confirmation).2

/-- What the calls of the booking have returned. -/
def bookingReplies : List Reply :=
  [⟨.start booking "trip" none, (recording.call (.start booking "trip" none)).1⟩,
    ⟨misguided, (cancellable.call misguided).1⟩,
    ⟨confirmation, ((cancellable.call misguided).2.call confirmation).1⟩]

lemma wired_confirmed : Wired firstId bookingReplies confirmed := by
  have hrecording : Wired firstId [] recording := .withCoordinator _ _ rfl
  have hstarted : Wired firstId _ unconfirmed := hrecording.call _
  have hregistered : Wired firstId _ cancellable :=
    hstarted.use (Option.some_get unconfirmed_coordinator).symm (.register _ _ _ _)
  exact (hregistered.call misguided).call confirmation

/-- Three tasks of the booking are on record. -/
theorem records_mirror_history_booking :
    Wired firstId bookingReplies confirmed ∧
      confirmed.coordinator.map (fun c => (c.recordsOf firstId).map fun r => r.activityId) =
        some ["flight", "hotel", "confirm"] ∧
      ∃ c, confirmed.coordinator = some c ∧
        (∀ i, confirmed.get? firstId = some i →
          (returned firstId bookingReplies).getLast? = some i) ∧
        List.Forall₂ (fun entry record => Mirrors firstId bookingReplies entry record.toCompletion)
          (completedTasks (lastHistory firstId bookingReplies)) (c.recordsOf firstId) ∧
        (c.recordsOf firstId).Pairwise fun a b => a.sequence < b.sequence :=
  ⟨wired_confirmed, by decide +kernel, records_mirror_history wired_confirmed⟩

end Engine

end ProcessEngine

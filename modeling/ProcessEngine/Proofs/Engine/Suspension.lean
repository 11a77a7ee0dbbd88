import ProcessEngine.Proofs.Engine.CompensationLog
import ProcessEngine.Proofs.Engine.ParkedTokens

/-!
# Suspended instances

An instance is meant to be suspended when all its parked tokens are.  Suspending and resuming keep
to that, but completing a task does not look at the state: if the tokens that it leaves behind are
all suspended, the instance stays active all the same (`active_while_suspended`).  That is the only
exception.  A live instance is suspended if and only if all its tokens are, and the last call that
concerned them did not complete a task (`suspended_iff`).
-/

namespace ProcessEngine

/-! ## What a walk does not change -/

/-- Tokens are parked that are not suspended; the state of the instance stays the same. -/
structure Instance.GoesOn (i j : Instance) : Prop where
  state : j.state = i.state
  tokens : ∃ ts, j.tokens = i.tokens ++ ts ∧ ∀ t ∈ ts, t.suspended = false

namespace Instance.GoesOn

variable {i j k : Instance}

lemma of_eq (hstate : j.state = i.state) (htokens : j.tokens = i.tokens) : i.GoesOn j :=
  ⟨hstate, [], by rw [htokens, List.append_nil], nofun⟩

lemma trans (h : i.GoesOn j) (h' : j.GoesOn k) : i.GoesOn k := by
  obtain ⟨ts, hts, hall⟩ := h.tokens
  obtain ⟨us, hus, hall'⟩ := h'.tokens
  refine ⟨h'.state.trans h.state, ts ++ us, by rw [hus, hts, List.append_assoc], fun t ht => ?_⟩
  rcases List.mem_append.1 ht with ht | ht
  · exact hall t ht
  · exact hall' t ht

/-- One token is parked. -/
lemma park (hstate : j.state = i.state) {t : Token} (htokens : j.tokens = i.tokens ++ [t])
    (ht : t.suspended = false) : i.GoesOn j :=
  ⟨hstate, [t], htokens, fun o ho => by rw [List.mem_singleton.1 ho, ht]⟩

end Instance.GoesOn

lemma Visited.goesOn {d : Definition} {s t : Stage} (h : Visited d s t) :
    s.run.current.GoesOn t.run.current := by
  cases h with
  | @complete c rest run issued states e now he hkind =>
    have hcurrent := run.current_completed e (Uid.mk (issued + 1)).text now
    exact .of_eq (by rw [hcurrent]; rfl) (by rw [hcurrent]; rfl)
  | userTask | subProcess | offered => exact .park rfl rfl rfl
  | goOn | absorbed => exact .of_eq rfl rfl

lemma Run.Walks.goesOn {d : Definition} {pending pending' : List Cursor} {run run' : Run}
    {w w' : Workspace} (h : Run.Walks d pending run w pending' run' w') (hw : w.Sound)
    (hk : (run.stage pending w).Kept d) : run.current.GoesOn run'.current :=
  h.of_visited (R := fun s t => s.run.current.GoesOn t.run.current) (fun _ => .of_eq rfl rfl)
    (fun h h' => h.trans h') (fun _ hvisited => hvisited.goesOn) hw hk

lemma Run.finish_goesOn {run run' : Run} {w w' : Workspace} (h : run.finish w = .ok run' w') :
    run.current.GoesOn run'.current := by
  rw [finish] at h
  split_ifs at h
  · obtain ⟨ended, supply, hclose, -⟩ := close_spec run w
    rw [Action.bind_of_ok hclose] at h
    cases h
    exact .of_eq rfl rfl
  · cases h
    exact .of_eq rfl rfl

/-! ## The last call that concerned the tokens -/

/-- Whether a call completes a task. -/
def Call.completes : Call → Bool
  | .proceed _ (some _) _ => true
  | _ => false

/-- Whether a call may touch the tokens of an instance.  One that only sets variables does not. -/
def Call.touches : Call → Bool
  | .proceed _ none _ => false
  | _ => true

/-- Whether a reply is to a call that has succeeded on an instance and may touch its tokens. -/
def Reply.touches (id : String) (reply : Reply) : Bool :=
  (reply.instance? id).isSome && reply.call.touches

/-- Whether the last call that may have touched the tokens of an instance completed a task. -/
def lastCompletes (id : String) (replies : List Reply) : Bool :=
  (replies.filter (·.touches id)).getLast?.any (·.call.completes)

lemma lastCompletes_concat (id : String) (replies : List Reply) (reply : Reply) :
    lastCompletes id (replies ++ [reply]) =
      if reply.touches id then reply.call.completes else lastCompletes id replies := by
  rw [lastCompletes, List.filter_append]
  split_ifs with h
  · rw [List.filter_cons_of_pos h, List.filter_nil, List.getLast?_concat]
    rfl
  · rw [List.filter_cons_of_neg h, List.filter_nil, List.append_nil, lastCompletes]

namespace Engine

/-- The engines that calls lead to, with the replies to the calls. -/
inductive Answered : List Reply → Engine → Prop
  | new (config : Config) (clock : Nat → Instant) : Answered [] (.new config (.start clock))
  | call {replies : List Reply} {e : Engine} (h : Answered replies e) (c : Call) :
      Answered (replies ++ [⟨c, (e.call c).1⟩]) (e.call c).2
  | withCoordinator {replies : List Reply} {e : Engine} (h : Answered replies e)
      (c : Compensation.Coordinator) : Answered replies (e.withCoordinator c)
  | withBus {replies : List Reply} {e : Engine} (h : Answered replies e) (b : EventBus) :
      Answered replies (e.withBus b)

lemma Answered.reachable {replies : List Reply} {e : Engine} (h : Answered replies e) :
    e.Reachable := by
  induction h with
  | new config clock => exact .new config clock
  | call h c ih => exact ih.call c
  | withCoordinator h c ih => exact ih.withCoordinator c
  | withBus h b ih => exact ih.withBus b

/-! ## The state of an instance -/

/-- An instance is suspended if and only if all its tokens are and no task was completed last. -/
def StateFollows (i : Instance) (completed : Bool) : Prop :=
  i.state = .suspended ↔ (∀ t ∈ i.tokens, t.suspended = true) ∧ completed = false

variable {e e₁ : Engine} {r : Registered} {d : Definition} {run : Run} {w : Workspace} {id : String}

/-- A new instance is active, and its tokens are not suspended. -/
lemma start_stateFollows (h : e.Sound) {d' : Definition} {businessKey : String}
    {vars : Option Variables}
    (hpending : e.pending (.start d' businessKey vars) = some (d, run, e₁))
    (hparked : run.current.tokens ≠ []) : StateFollows run.current false := by
  obtain ⟨first, rest, run₀, supply, -, rfl, hopening, hfirst⟩ :=
    Lasting.ok_of_pendingStart hpending
  obtain ⟨htokens, hhistory, hnone, hsound⟩ := opening_spec h hopening
  obtain ⟨run₁, w₁, hwalk, hfinish⟩ := Action.bind_eq_ok.1 hfirst
  have hfinished : (run₁.emit (.processStarted run₁.current.id)).current.GoesOn run.current :=
    Run.finish_goesOn hfinish
  have hgoes := ((Run.walks_of_traverse hwalk).goesOn hsound
    (.fresh hsound htokens hhistory hnone first.id)).trans hfinished
  obtain ⟨ts, hts, hall⟩ := hgoes.tokens
  rw [htokens, List.nil_append] at hts
  have hactive : run.current.state = .active := by
    rw [hgoes.state]
    cases hopening
    rfl
  refine ⟨fun hsuspended => ?_, fun hsuspended => ?_⟩
  · rw [hactive] at hsuspended
    cases hsuspended
  · obtain ⟨t, ht⟩ := List.exists_mem_of_ne_nil _ hparked
    have htrue := hsuspended.1 t ht
    rw [hall t (hts ▸ ht)] at htrue
    cases htrue

/-- Completing a task does not change the state, which is active, since the token that is taken is
not suspended. -/
lemma continueFrom_stateFollows {run' : Run} {w' : Workspace} {limit : Nat} {task : String}
    (hw : w.Sound) (hk : Kept d run.current (w.store.states run.current.id))
    (hbefore : run.current.state = .suspended → ∀ t ∈ run.current.tokens, t.suspended = true)
    (h : continueFrom run d limit task w = .ok run' w') : StateFollows run'.current true := by
  obtain ⟨token, run₁, w₁, run₂, w₂, htask, hwalks, hfinish⟩ := continueFrom_ok h
  obtain ⟨hw₁, hstage, -, -⟩ := completeTask_kept hw hk htask
  have hgoes : run₁.current.GoesOn run'.current :=
    (hwalks.goesOn hw₁ hstage).trans (Run.finish_goesOn hfinish)
  refine ⟨fun hsuspended => ?_, by simp⟩
  obtain ⟨hfind, element, helement, rfl, -⟩ := completeTask_ok htask
  rw [hgoes.state, taken, Run.current_completed] at hsuspended
  have htoken := hbefore hsuspended token (List.mem_of_find?_eq_some hfind)
  rw [completeTask_eq, hfind] at htask
  simp only [htoken, if_true] at htask
  cases htask

/-- Suspending sees to it that the state follows. -/
lemma suspendRun_stateFollows {element : Option String} {w' : Workspace}
    (hbefore : r.current.state = .suspended → ∀ t ∈ r.current.tokens, t.suspended = true)
    (h : suspendRun r element w = .ok run w') : StateFollows run.current false := by
  rw [suspendRun_eq] at h
  split at h
  · cases h
  obtain ⟨run₁, w₁, hrecord, hrun⟩ := Action.bind_eq_ok.1 h
  cases hrun
  obtain ⟨history, supply, hrecorded, -⟩ := recordTokens_spec r.definition .suspended
    (r.current.tokens.filter fun t => !t.suspended && isAt element t) (suspending r element) w
  rw [hrecorded] at hrecord
  cases hrecord
  by_cases hall : (suspendedTokens element r.current.tokens).all (·.suspended) = true
  · exact ⟨fun _ => ⟨fun t ht => List.all_eq_true.1 hall t ht, rfl⟩, fun _ => if_pos hall⟩
  · refine ⟨fun hsuspended => absurd ?_ hall, fun hsuspended => absurd ?_ hall⟩
    · have hstate : r.current.state = .suspended := (if_neg hall).symm.trans hsuspended
      refine List.all_eq_true.2 fun t ht => ?_
      obtain ⟨o, ho, rfl⟩ := List.mem_map.1 ht
      split
      · rfl
      · exact hbefore hstate o ho
    · exact List.all_eq_true.2 hsuspended.1

/-- Resuming makes the instance active, and at least one token is not suspended then. -/
lemma resumeRun_stateFollows {element : Option String} {w' : Workspace}
    (h : resumeRun r element w = .ok run w') : StateFollows run.current false := by
  rw [resumeRun_eq] at h
  split_ifs at h with hnone
  cases h
  refine ⟨nofun, fun hsuspended => absurd ?_ hnone⟩
  rw [List.isEmpty_iff, List.filter_eq_nil_iff]
  intro t ht hchosen
  have hresumed := hsuspended.1 _ (List.mem_map_of_mem ht)
  rw [if_pos hchosen] at hresumed
  cases hresumed

/-- What a call is about to commit follows if the live instances did. -/
theorem stateFollows_of_pending (h : e.Reachable) {replies : List Reply}
    (hbefore : ∀ id r, e.registered? id = some r → r.current.isEnded = false →
      StateFollows r.current (lastCompletes id replies))
    {c : Call} (hpending : e.pending c = some (d, run, e₁))
    (hparked : run.current.tokens ≠ []) :
    StateFollows run.current
      (lastCompletes run.current.id (replies ++ [⟨c, .ok run.current⟩])) := by
  have htouches : Reply.touches run.current.id ⟨c, .ok run.current⟩ = c.touches := by
    rw [Reply.touches, Reply.instance?]
    simp only [if_true]
    rfl
  rw [lastCompletes_concat, htouches]
  cases c with
  | start d' businessKey vars => exact start_stateFollows h.sound hpending hparked
  | proceed id task updates =>
    obtain ⟨r, hr, hlive, rfl, hok⟩ := Lasting.ok_of_pendingOnLive hpending
    have hfollows := hbefore id r hr hlive
    have hid := (h.sound.known id r hr).1
    cases task with
    | none =>
      have hrun : EStateM.Result.ok _ _ = EStateM.Result.ok run e₁.workspace := hok
      rw [← (EStateM.Result.ok.inj hrun).1]
      rw [← hid] at hfollows
      rw [Call.touches, if_neg Bool.false_ne_true]
      exact hfollows
    | some task =>
      have hkept := h.sound.kept id r hr hlive
      rw [← hid] at hkept
      exact continueFrom_stateFollows h.sound.workspace (hkept.mergeVariables _)
        (fun hstate => (hfollows.1 hstate).1) hok
  | suspend id element =>
    obtain ⟨r, hr, hlive, rfl, hok⟩ := Lasting.ok_of_pendingOnLive hpending
    exact suspendRun_stateFollows (fun hstate => ((hbefore id r hr hlive).1 hstate).1) hok
  | resume id element =>
    obtain ⟨r, hr, hlive, rfl, hok⟩ := Lasting.ok_of_pendingOnLive hpending
    exact resumeRun_stateFollows hok
  | terminate id reason => cases hpending

/-- A live instance is suspended if and only if all its parked tokens are, and the last call that
may have touched them did not complete a task. -/
theorem suspended_iff {replies : List Reply} (h : Answered replies e) :
    ∀ id r, e.registered? id = some r → r.current.isEnded = false →
      (r.current.state = .suspended ↔
        (∀ t ∈ r.current.tokens, t.suspended = true) ∧ lastCompletes id replies = false) := by
  induction h with
  | new config clock => nofun
  | @call replies e h c ih =>
    have houtcome := call_outcome h.reachable.sound c
    have htidy := (h.reachable.call c).tidy
    generalize e.call c = result at houtcome htidy
    intro id r hr hlive
    -- A reply about another instance does not count.
    have hother : ∀ reply : Reply, reply.instance? id = none →
        lastCompletes id (replies ++ [reply]) = lastCompletes id replies := fun reply hnone => by
      rw [lastCompletes_concat, Reply.touches, hnone]
      rfl
    cases houtcome with
    | failed =>
      rw [hother _ rfl]
      exact ih id r hr hlive
    | @committed _ d run w es hpending =>
      have hparked := (htidy id r hr).ended
      rw [Lasting.registered?_commit] at hr
      split_ifs at hr with hid
      · obtain rfl := Option.some.inj hr
        rw [hid]
        refine stateFollows_of_pending h.reachable ih hpending fun hnone => ?_
        rw [hparked hnone] at hlive
        cases hlive
      · rw [hother ⟨c, .ok run.current⟩ (if_neg (Ne.symm hid))]
        exact ih id r hr hlive
    | @terminated gone reason r' run supply _ _ _ hgone =>
      rw [registered?, registry_settle, ← registered?, registered?_unregister] at hr
      split_ifs at hr with hid
      rw [← hgone] at hid
      rw [hother ⟨.terminate gone reason, .ok run.current⟩ (if_neg (Ne.symm hid))]
      exact ih id r hr hlive
  | withCoordinator h c ih => exact ih
  | withBus h b ih => exact ih

/-! ## A task that is left suspended -/

/-- Two tasks that can be done in any order. -/
def twoTasks : Definition :=
  { Definition.empty "two" with
    startEvents := [.unnamed "start"]
    endEvents := [.unnamed "end"]
    userTasks := [.unnamed "a", .unnamed "b"]
    gateways := [.unnamed "fork" .parallel none]
    flows := [⟨"f1", "start", "fork", none⟩, ⟨"f2", "fork", "a", none⟩, ⟨"f3", "fork", "b", none⟩,
      ⟨"f4", "a", "end", none⟩, ⟨"f5", "b", "end", none⟩] }

/-- Both tasks wait. -/
def bothWait : Engine := (small.call (.start twoTasks "key" none)).2

/-- One of them is suspended. -/
def oneSuspended : Engine := (bothWait.call (.suspend firstId (some "a"))).2

/-- The other one is done. -/
def suspendedLeft : Engine := (oneSuspended.call (.proceed firstId (some "b") none)).2

/-- What the calls have returned. -/
def twoTasksReplies : List Reply :=
  [⟨.start twoTasks "key" none, (small.call (.start twoTasks "key" none)).1⟩,
    ⟨.suspend firstId (some "a"), (bothWait.call (.suspend firstId (some "a"))).1⟩,
    ⟨.proceed firstId (some "b") none, (oneSuspended.call (.proceed firstId (some "b") none)).1⟩]

lemma answered_suspendedLeft : Answered twoTasksReplies suspendedLeft := by
  have hsmall : Answered [] small := .new _ _
  exact ((hsmall.call _).call _).call _

/-- Whether an instance is registered, live and active although all its tokens are suspended. -/
def lags (e : Engine) (id : String) : Bool :=
  (e.registered? id).any fun r => !r.current.isEnded && r.current.state == .active &&
    r.current.tokens.all (·.suspended)

lemma exists_of_lags (h : e.lags id = true) :
    ∃ r, e.registered? id = some r ∧ r.current.isEnded = false ∧ r.current.state = .active ∧
      ∀ t ∈ r.current.tokens, t.suspended = true := by
  obtain ⟨r, hr, hbody⟩ := (Option.any_eq_true _ _).1 h
  simp only [Bool.and_eq_true, Bool.not_eq_true', beq_iff_eq, List.all_eq_true] at hbody
  exact ⟨r, hr, hbody.1.1, hbody.1.2, hbody.2⟩

lemma lags_suspendedLeft : suspendedLeft.lags firstId = true := by decide +kernel

/-- The last reply of the two tasks is to a completion. -/
theorem suspended_iff_twoTasks :
    Answered twoTasksReplies suspendedLeft ∧ suspendedLeft.lags firstId = true ∧
      lastCompletes firstId twoTasksReplies = true ∧
      ∀ id r, suspendedLeft.registered? id = some r → r.current.isEnded = false →
        (r.current.state = .suspended ↔ (∀ t ∈ r.current.tokens, t.suspended = true) ∧
          lastCompletes id twoTasksReplies = false) :=
  ⟨answered_suspendedLeft, lags_suspendedLeft, by decide +kernel,
    suspended_iff answered_suspendedLeft⟩

/-- It is not so that a live instance is suspended if and only if all its parked tokens are. -/
theorem active_while_suspended :
    ¬∀ (e : Engine) (id : String) (r : Registered), e.Reachable → e.registered? id = some r →
      r.current.isEnded = false →
      (r.current.state = .suspended ↔ ∀ t ∈ r.current.tokens, t.suspended = true) := by
  intro hclaim
  obtain ⟨r, hr, hlive, hactive, hall⟩ := exists_of_lags lags_suspendedLeft
  have hsuspended := (hclaim _ _ r answered_suspendedLeft.reachable hr hlive).2 hall
  rw [hactive] at hsuspended
  cases hsuspended

end Engine

end ProcessEngine

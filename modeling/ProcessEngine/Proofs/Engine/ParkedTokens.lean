import ProcessEngine.Proofs.Engine.EventLifecycle

/-!
# Registered instances and their parked tokens

What holds of the registered instances of every reachable engine: an instance has ended if and only
if no token of it is parked, no two of its tokens have the same id, and every token waits for what
its element calls for.  No gateway state outlives its instance (`registered_in_order`).

One half of the first fact and the last two belong to `Engine.Sound`.  That an instance without
tokens has ended rests on the calls that move tokens: they finish the run, while suspending and
resuming leave as many tokens as there were (`ended_of_pending`).  That ids are distinct rests on
one visit parking at most one token, under an id that was not issued before (`Visited.parks`).
-/

namespace ProcessEngine

/-- No two of the tokens share an id, and every id is among the first `issued` ones. -/
structure DistinctTokens (issued : Nat) (ts : List Token) : Prop where
  distinct : (ts.map Token.id).Nodup
  known : ∀ t ∈ ts, t.id.value ≤ issued

namespace DistinctTokens

variable {issued later : Nat} {ts us : List Token}

lemma nil (issued : Nat) : DistinctTokens issued [] := ⟨List.nodup_nil, nofun⟩

lemma mono (h : DistinctTokens issued ts) (hle : issued ≤ later) : DistinctTokens later ts :=
  ⟨h.distinct, fun t ht => Nat.le_trans (h.known t ht) hle⟩

/-- Tokens may be taken away. -/
lemma sublist (h : DistinctTokens issued ts) (hsub : us.Sublist ts) : DistinctTokens issued us :=
  ⟨h.distinct.sublist (hsub.map _), fun t ht => h.known t (hsub.subset ht)⟩

/-- A token is parked under a new id. -/
lemma append (h : DistinctTokens issued ts) {t : Token} (hnew : issued < t.id.value)
    (hle : t.id.value ≤ later) : DistinctTokens later (ts ++ [t]) where
  distinct := by
    rw [List.map_append, List.map_singleton]
    refine List.nodup_append.2 ⟨h.distinct, List.nodup_singleton _, fun x hx y hy heq => ?_⟩
    obtain ⟨o, ho, rfl⟩ := List.mem_map.1 hx
    rw [List.mem_singleton.1 hy] at heq
    have hknown := h.known o ho
    rw [heq] at hknown
    omega
  known o ho := by
    rcases List.mem_append.1 ho with ho | ho
    · have hknown := h.known o ho
      omega
    · rw [List.mem_singleton.1 ho]
      exact hle

/-- What is suspended does not matter. -/
lemma congr (h : DistinctTokens issued ts) (hcore : us.map Token.core = ts.map Token.core) :
    DistinctTokens issued us where
  distinct := by
    have hids : (us.map Token.core).map Token.id = (ts.map Token.core).map Token.id := by rw [hcore]
    rw [List.map_map, List.map_map] at hids
    rw [show us.map Token.id = ts.map Token.id from hids]
    exact h.distinct
  known t ht := by
    have hmem : t.core ∈ ts.map Token.core := hcore ▸ List.mem_map_of_mem ht
    obtain ⟨o, ho, heq⟩ := List.mem_map.1 hmem
    rw [show t.id = o.id from (congrArg Token.id heq).symm]
    exact h.known o ho

end DistinctTokens

/-! ## Distinct ids -/

/-- A visit parks at most one token, under a new id. -/
lemma Visited.parks {d : Definition} {s t : Stage} (h : Visited d s t) :
    s.issued ≤ t.issued ∧
      (t.run.current.tokens = s.run.current.tokens ∨
        ∃ o : Token, t.run.current.tokens = s.run.current.tokens ++ [o] ∧
          s.issued < o.id.value ∧ o.id.value ≤ t.issued) := by
  cases h with
  | @complete c rest run issued states e now he hkind =>
    refine ⟨Nat.le_succ _, .inl ?_⟩
    rw [Run.current_completed]
    rfl
  | userTask | subProcess =>
    exact ⟨Nat.le_succ _, .inr ⟨_, rfl, Nat.lt_succ_self _, Nat.le_refl _⟩⟩
  | goOn _ _ heff => exact ⟨Nat.le_of_succ_le heff.issued, .inl rfl⟩
  | absorbed _ _ heff => exact ⟨Nat.le_of_succ_le heff.issued, .inl rfl⟩
  | offered _ _ heff =>
    have hle := Nat.le_of_succ_le heff.issued
    exact ⟨Nat.le_succ_of_le hle, .inr ⟨_, rfl, Nat.lt_succ_of_le hle, Nat.le_refl _⟩⟩

/-- The tokens that a walk leaves parked have distinct ids if those before it had. -/
lemma Run.Walks.distinctTokens {d : Definition} {pending pending' : List Cursor} {run run' : Run}
    {w w' : Workspace} (h : Run.Walks d pending run w pending' run' w') (hw : w.Sound)
    (hk : (run.stage pending w).Kept d)
    (hd : DistinctTokens w.supply.issued run.current.tokens) :
    DistinctTokens w'.supply.issued run'.current.tokens := by
  refine h.of_visited
    (R := fun s t => DistinctTokens s.issued s.run.current.tokens →
      DistinctTokens t.issued t.run.current.tokens)
    (fun _ hd => hd) (fun h h' hd => h' (h hd)) (fun _ hvisited hd => ?_) hw hk hd
  obtain ⟨hle, htokens | ⟨o, htokens, hnew, hissued⟩⟩ := hvisited.parks
  · rw [htokens]
    exact hd.mono hle
  · rw [htokens]
    exact hd.append hnew hissued

/-- Finishing a run moves no token; the instance has ended just if none was left. -/
lemma Run.finish_tokens {run run' : Run} {w w' : Workspace} (hlive : run.current.isEnded = false)
    (h : run.finish w = .ok run' w') :
    run'.current.tokens = run.current.tokens ∧
      (run'.current.tokens = [] → run'.current.isEnded = true) := by
  rw [finish] at h
  split_ifs at h with hfinish
  · rw [close, if_neg (by simp [hlive])] at h
    cases h
    exact ⟨rfl, fun _ => rfl⟩
  · cases h
    refine ⟨rfl, fun hnone => absurd ?_ hfinish⟩
    rw [hnone, hlive]
    rfl

namespace Engine

variable {d : Definition} {run run' : Run} {w w' : Workspace} {limit : Nat}

/-- The parked tokens of an instance have distinct ids, and if none is left the instance has ended.
-/
structure Tidy (issued : Nat) (i : Instance) : Prop where
  tokens : DistinctTokens issued i.tokens
  ended : i.tokens = [] → i.isEnded = true

namespace Tidy

variable {issued : Nat} {i j : Instance}

lemma mono (h : Tidy issued i) {later : Nat} (hle : issued ≤ later) : Tidy later i :=
  ⟨h.tokens.mono hle, h.ended⟩

/-- Suspending and resuming leave as many tokens as there were, under the same ids. -/
lemma unmoved (h : Tidy issued i) (hlive : i.isEnded = false) (hunmoved : i.Unmoved j) :
    Tidy issued j where
  tokens := h.tokens.congr hunmoved.tokens
  ended hnone := by
    have hsame := hunmoved.tokens
    rw [hnone, List.map_nil] at hsame
    rw [h.ended (List.map_eq_nil_iff.1 hsame.symm)] at hlive
    cases hlive

/-- A run is tidy after it was finished. -/
lemma finish (htokens : DistinctTokens w.supply.issued run.current.tokens)
    (hlive : run.current.isEnded = false) (h : run.finish w = .ok run' w') :
    Tidy w'.supply.issued run'.current := by
  obtain ⟨hsame, hended⟩ := Run.finish_tokens hlive h
  refine ⟨?_, hended⟩
  rw [hsame, (Run.finish_concludes hlive h).2]
  exact htokens

/-- The run of an instance that is started. -/
lemma firstWalk {first : Node} (hw : w.Sound) (hk : (run.stage [⟨first.id, []⟩] w).Kept d)
    (hnone : run.current.tokens = []) (hlive : run.current.isEnded = false)
    (h : firstWalk run d limit first w = .ok run' w') : Tidy w'.supply.issued run'.current := by
  obtain ⟨run₁, w₁, hwalk, hfinish⟩ := Action.bind_eq_ok.1 h
  have hwalks := Run.walks_of_traverse hwalk
  obtain ⟨ts, es, hadds⟩ := hwalks.adds hw hk
  have hemitted : (run₁.emit (.processStarted run₁.current.id)).finish w₁ = .ok run' w' := hfinish
  refine Tidy.finish ?_ ?_ hemitted
  · refine hwalks.distinctTokens hw hk ?_
    rw [hnone]
    exact .nil _
  · rw [Instance.isEnded, show (run₁.emit (.processStarted run₁.current.id)).current.endedAt =
      run.current.endedAt from hadds.endedAt]
    exact hlive

/-- The run of an instance that goes on from a task. -/
lemma continueFrom {task : String} (hw : w.Sound)
    (hk : Kept d run.current (w.store.states run.current.id))
    (htokens : DistinctTokens w.supply.issued run.current.tokens)
    (hlive : run.current.isEnded = false) (h : continueFrom run d limit task w = .ok run' w') :
    Tidy w'.supply.issued run'.current := by
  obtain ⟨token, run₁, w₁, run₂, w₂, htask, hwalks, hfinish⟩ := continueFrom_ok h
  obtain ⟨hw₁, hstage, -, hend⟩ := completeTask_kept hw hk htask
  obtain ⟨ts, es, hadds⟩ := hwalks.adds hw₁ hstage
  refine Tidy.finish (hwalks.distinctTokens hw₁ hstage ?_) ?_ hfinish
  · obtain ⟨-, element, helement, rfl, rfl⟩ := completeTask_ok htask
    rw [taken, Run.current_completed]
    exact htokens.sublist List.eraseP_sublist
  · rw [Instance.isEnded, hadds.endedAt, hend]
    exact hlive

end Tidy

/-! ## Calls -/

variable {e e₁ : Engine}

/-- What a call is about to commit is tidy if the registered instances were. -/
theorem tidy_of_pending (h : e.Sound)
    (htidy : ∀ id r, e.registered? id = some r → Tidy e.workspace.supply.issued r.current)
    {c : Call} (hpending : e.pending c = some (d, run, e₁))
    (hissued : e.workspace.supply.issued ≤ e₁.workspace.supply.issued) :
    Tidy e₁.workspace.supply.issued run.current := by
  cases c with
  | start d' businessKey vars =>
    obtain ⟨first, rest, run₀, supply, -, rfl, hopening, hfirst⟩ :=
      Lasting.ok_of_pendingStart hpending
    obtain ⟨htokens, hhistory, hnone, hsound⟩ := opening_spec h hopening
    exact .firstWalk hsound (.fresh hsound htokens hhistory hnone first.id) htokens
      (opening_puts_off hopening).2.1 hfirst
  | proceed id task updates =>
    obtain ⟨r, hr, hlive, rfl, hok⟩ := Lasting.ok_of_pendingOnLive hpending
    have hbefore := htidy id r hr
    cases task with
    | none =>
      have hrun : EStateM.Result.ok _ _ = EStateM.Result.ok run e₁.workspace := hok
      rw [← (EStateM.Result.ok.inj hrun).1]
      exact (hbefore.unmoved hlive (.mergeVariables _ _)).mono hissued
    | some task =>
      have hkept := h.kept id r hr hlive
      rw [← (h.known id r hr).1] at hkept
      exact .continueFrom h.workspace (hkept.mergeVariables _) hbefore.tokens hlive hok
  | suspend id element =>
    obtain ⟨r, hr, hlive, rfl, hok⟩ := Lasting.ok_of_pendingOnLive hpending
    exact ((htidy id r hr).unmoved hlive (suspendRun_ok hok).1).mono hissued
  | resume id element =>
    obtain ⟨r, hr, hlive, rfl, hok⟩ := Lasting.ok_of_pendingOnLive hpending
    exact ((htidy id r hr).unmoved hlive (resumeRun_ok hok).1).mono hissued
  | terminate id reason => cases hpending

/-- Every registered instance is tidy. -/
theorem Reachable.tidy (h : e.Reachable) :
    ∀ id r, e.registered? id = some r → Tidy e.workspace.supply.issued r.current := by
  induction h with
  | new config clock => nofun
  | @call e h c ih =>
    have houtcome := call_outcome h.sound c
    generalize e.call c = result at houtcome
    intro id r hr
    cases houtcome with
    | failed _ hunseen => exact (ih id r hr).mono hunseen.issued
    | @committed _ d run w es hpending _ hconf =>
      rw [Lasting.registered?_commit] at hr
      rw [commit, supply_settle]
      change Tidy w.supply.issued r.current
      split_ifs at hr with hid
      · obtain rfl := Option.some.inj hr
        exact tidy_of_pending h.sound ih hpending hconf.issued
      · exact (ih id r hr).mono hconf.issued
    | @terminated gone reason r' run supply _ hissued =>
      rw [registered?, registry_settle, ← registered?, registered?_unregister] at hr
      split_ifs at hr with hid
      rw [supply_settle]
      exact (ih id r hr).mono (Nat.le_of_eq hissued.symm)
  | withCoordinator h c ih => exact ih
  | withBus h b ih => exact ih

/-- What holds of a registered instance and the definition that it runs. -/
structure InOrder (d : Definition) (i : Instance) : Prop where
  ended_iff : i.isEnded = true ↔ i.tokens = []
  distinct : (i.tokens.map Token.id).Nodup
  waits : ∀ t ∈ i.tokens, t.Agrees d

/-- In every reachable engine every registered instance is in order, and every gateway state in the
store belongs to a registered instance that has not ended. -/
theorem registered_in_order (h : e.Reachable) :
    (∀ id r, e.registered? id = some r → InOrder r.definition r.current) ∧
      ∀ s ∈ e.workspace.store.all, ∃ r, e.registered? s.instanceId = some r ∧
        r.current.isEnded = false := by
  refine ⟨fun id r hr => ⟨⟨h.sound.ended id r hr, (h.tidy id r hr).ended⟩,
    (h.tidy id r hr).tokens.distinct, fun t ht => ?_⟩, fun s hs => ?_⟩
  · cases hended : r.current.isEnded with
    | true =>
      rw [h.sound.ended id r hr hended] at ht
      cases ht
    | false => exact (h.sound.kept id r hr hended).waits t ht
  · have hmem : s ∈ e.workspace.store.states s.instanceId := Store.mem_states.2 ⟨hs, rfl⟩
    exact h.sound.stored s.instanceId (List.ne_nil_of_mem hmem)

/-- An order is reviewed, packed and answered at the same time. -/
def threefold : Definition :=
  { Definition.empty "threefold" with
    startEvents := [.unnamed "start"]
    endEvents := [.unnamed "end"]
    userTasks := [.unnamed "review"]
    serviceTasks := [.unnamed "reply", .unnamed "timeout"]
    subProcesses := [.unnamed "pack"]
    gateways := [.unnamed "fork" .parallel none, .unnamed "await" .eventBased none,
      .unnamed "join" .parallel none]
    flows := [⟨"f1", "start", "fork", none⟩, ⟨"f2", "fork", "review", none⟩,
      ⟨"f3", "fork", "pack", none⟩, ⟨"f4", "fork", "await", none⟩,
      ⟨"f5", "await", "reply", none⟩, ⟨"f6", "await", "timeout", none⟩,
      ⟨"f7", "review", "join", none⟩, ⟨"f8", "pack", "join", none⟩,
      ⟨"f9", "reply", "join", none⟩, ⟨"f10", "join", "end", none⟩] }

/-- The order is reviewed, and the other two branches are waited for at the join. -/
def reviewed : Engine :=
  small.after [.start threefold "key" none, .proceed firstId (some "review") none]

/-- One order has two tokens and two gateway states left. -/
theorem registered_in_order_threefold :
    ((reviewed.tokensOf firstId).map fun t => (t.elementId, t.wait)) =
        [("pack", .subProcess), ("await", .eventGateway ["reply", "timeout"])] ∧
      reviewed.workspace.store.size = 2 ∧
      (∀ id r, reviewed.registered? id = some r → InOrder r.definition r.current) ∧
      ∀ s ∈ reviewed.workspace.store.all, ∃ r, reviewed.registered? s.instanceId = some r ∧
        r.current.isEnded = false :=
  ⟨by decide +kernel, by decide +kernel, registered_in_order (reachable_small.after _)⟩

end Engine

end ProcessEngine

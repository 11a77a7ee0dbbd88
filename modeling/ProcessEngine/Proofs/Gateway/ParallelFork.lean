import ProcessEngine.Proofs.Gateway.ParallelJoin

/-!
# Forks of a parallel gateway

`Request.Forks.spec` says what a parallel gateway does with a token that it forks: there is a new
fork state with a new id, every outgoing flow gets a token with its frame, and no join is touched.
-/

namespace ProcessEngine

namespace Request

/-- The token enters a parallel gateway that forks: at most one flow comes in, several go out. -/
structure Forks (r : Request) (p : String) (frames : List Frame) : Prop where
  kind : r.gateway.kind = .parallel
  instanceId : r.instanceId = some p
  incoming : r.incoming.any (1 < ·) = false
  outgoing : 2 ≤ r.outgoing.length
  frames : r.frames = frames

variable {r : Request} {p : String} {issued : Nat} {frames : List Frame}
  {states : List GatewayState} {w : Workspace}

lemma Forks.course (hr : r.Forks p frames) : r.course = .split (r.outgoing.map Flow.target) := by
  have hsome : ¬r.outgoing.isEmpty = true := by
    have := hr.outgoing
    cases hout : r.outgoing with
    | nil => simp [hout] at this
    | cons f rest => simp
  have hto : courseTo (r.outgoing.map Flow.target) = .split (r.outgoing.map Flow.target) :=
    if_pos (by rw [List.length_map]; exact hr.outgoing)
  have hincoming := hr.incoming
  rw [Request.course, hr.kind]
  simp only [if_neg hsome]
  cases hn : r.incoming with
  | none => exact hto
  | some n =>
    rw [hn] at hincoming
    exact (if_neg (by simpa using hincoming)).trans hto

/-- Every outgoing flow gets a token. -/
lemma Forks.length_cursors (hr : r.Forks p frames) {d : Decision} {w' : Workspace}
    (hact : r.activate w = .ok d w') (stack : List Frame) :
    (d.cursors stack).length = r.outgoing.length := by
  have hout := hr.outgoing
  have hincoming := hr.incoming
  have hsplit : r.splitAll (.to []) w = .ok d w' := by
    rw [activate, hr.kind] at hact
    simp only [parallel] at hact
    rw [if_neg (by simp; intro hnil; simp [hnil] at hout)] at hact
    cases hn : r.incoming with
    | none => rwa [hn] at hact
    | some n =>
      rw [hn] at hact hincoming
      simp only at hact
      rwa [if_neg (by simpa using hincoming)] at hact
  rw [splitAll, if_pos (by rw [List.length_map]; exact hout)] at hsplit
  obtain ⟨frame, v, -, hpure⟩ := Action.bind_eq_ok.1 hsplit
  cases hpure
  simp [Decision.cursors]

/-- A fork never fails.  It adds a fork state with a new id, and its frame to every branch. -/
theorem Forks.spec (hr : r.Forks p frames) (hw : w.Sound)
    (hf : ∀ f ∈ frames, f.Carried (w.store.states p)) :
    ∃ (d : Decision) (w' : Workspace) (fork : Frame), r.activate w = .ok d w' ∧ w'.Sound ∧
      w.supply.issued ≤ w'.supply.issued ∧
      ForksKept (w.store.states p) (w'.store.states p) ∧
      (∀ c ∈ d.cursors frames, ∀ f ∈ c.frames, f.Carried (w'.store.states p)) ∧
      w.supply.issued < fork.forkId.value ∧ fork.branchCount = word32 r.outgoing.length ∧
      (d.cursors frames).map Cursor.frames =
        (List.range r.outgoing.length).map (fun b => frames ++ [fork.forBranch (word32 b)]) ∧
      ∀ gateway key, w'.store.activeJoin? p gateway key = w.store.activeJoin? p gateway key := by
  obtain ⟨d, w', generation, hact, hsound, hissued, hstates, hcursors, -, hstacks⟩ :=
    split_spec hr.course hw hr.instanceId (by rwa [hr.frames])
  rw [hr.frames] at hcursors hstacks
  rw [List.length_map] at hstacks
  refine ⟨d, w', (r.newFork p (r.outgoing.map Flow.target) ⟨w.supply.issued + 1⟩ generation).frame,
    hact, hsound, by omega, hstates ▸ .append _ _, hcursors, Nat.lt_succ_self _, ?_, hstacks,
    fun gateway key => ?_⟩
  · simp [newFork, GatewayState.ofFork, GatewayState.frame]
  · rw [Store.activeJoin?_eq, Store.activeJoin?_eq, hstates, find?_isJoinOf, find?_isJoinOf,
      activeJoins_append_fork]

end Request

end ProcessEngine

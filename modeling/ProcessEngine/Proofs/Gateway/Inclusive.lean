import ProcessEngine.Proofs.Gateway.ParallelJoin

/-!
# Forks and joins of an inclusive gateway

An inclusive gateway forks a token along the flows that it selects (`Request.Selects.spec`).  Where
it joins, the innermost fork around the token tells the join apart and says how many arrivals it
waits for, so the tokens of a fork are counted in rounds of that size (`Request.Collects.spec`).
-/

namespace ProcessEngine

/-- The innermost fork around a token. -/
def Frame.innermost (l : List Frame) : Option Uid := l.getLast?.map forkId

@[simp] lemma Frame.innermost_concat (l : List Frame) (f : Frame) :
    innermost (l ++ [f]) = some f.forkId := by
  rw [innermost, List.getLast?_concat, Option.map_some]

namespace Request

/-- The flows that an inclusive gateway has the token take. -/
def selected (r : Request) : List Flow := r.gateway.inclusiveChoice r.outgoing r.vars

/-- The token enters an inclusive gateway that forks, and there are flows to take. -/
structure Selects (r : Request) (p : String) (frames : List Frame) : Prop where
  kind : r.gateway.kind = .inclusive
  instanceId : r.instanceId = some p
  forks : r.forksInclusively = true
  selected : r.selected ≠ []
  frames : r.frames = frames

/-- The token comes to an inclusive gateway that joins several incoming flows. -/
structure Collects (r : Request) (p gateway : String) (frames : List Frame) : Prop where
  kind : r.gateway.kind = .inclusive
  gateway : r.gateway.id = gateway
  instanceId : r.instanceId = some p
  joins : r.forksInclusively = false
  incoming : r.incoming.any (· ≤ 1) = false
  outgoing : r.outgoing ≠ []
  frames : r.frames = frames

variable {r : Request} {p gateway : String} {issued size n : Nat} {frames : List Frame} {f : Frame}
  {states : List GatewayState} {w : Workspace}

/-! ## Forks -/

lemma Selects.course (hr : r.Selects p frames) :
    r.course = .split (r.selected.map Flow.target) := by
  have hsome : ¬(r.selected.map Flow.target).isEmpty = true := by simpa using hr.selected
  rw [Request.course, hr.kind]
  simp only [if_pos hr.forks]
  exact if_neg hsome

/-- An inclusive fork never fails.  It adds a fork state with a new id that counts the selected
flows, and its frame to every branch. -/
theorem Selects.spec (hr : r.Selects p frames) (hw : w.Sound)
    (hf : ∀ g ∈ frames, g.Carried (w.store.states p)) :
    ∃ (d : Decision) (w' : Workspace) (fork : Frame), r.activate w = .ok d w' ∧
      d.forkFrame = some fork ∧ w'.Sound ∧ ForksKept (w.store.states p) (w'.store.states p) ∧
      (∀ c ∈ d.cursors frames, ∀ g ∈ c.frames, g.Carried (w'.store.states p)) ∧
      w.supply.issued < fork.forkId.value ∧ fork.forkId.value ≤ w'.supply.issued ∧
      fork.branchCount = word32 r.selected.length ∧
      (d.cursors frames).map Cursor.frames =
        (List.range r.selected.length).map (fun b => frames ++ [fork.forBranch (word32 b)]) ∧
      ∀ gateway key, activeJoins p gateway key (w'.store.states p) =
        activeJoins p gateway key (w.store.states p) := by
  obtain ⟨d, w', generation, hact, hsound, hissued, hstates, hcursors, hfork, hstacks⟩ :=
    split_spec hr.course hw hr.instanceId (by rwa [hr.frames])
  rw [hr.frames] at hcursors hstacks
  rw [List.length_map] at hstacks
  refine ⟨d, w', _, hact, hfork, hsound, hstates ▸ .append _ _, hcursors, Nat.lt_succ_self _,
    hissued.ge, ?_, hstacks, fun gateway key => ?_⟩
  · simp [newFork, GatewayState.ofFork, GatewayState.frame]
  · rw [hstates, activeJoins_append_fork]

/-! ## Joins -/

lemma Collects.course (hr : r.Collects p gateway frames) :
    ∃ target, r.course = .meet none [target] := by
  obtain ⟨flow, rest, hout⟩ := List.exists_cons_of_ne_nil hr.outgoing
  refine ⟨flow.target, ?_⟩
  rw [Request.course, hr.kind]
  simp only [hr.joins, Bool.false_eq_true, if_false, hout, List.head?_cons]
  exact if_neg (by simp [hr.incoming])

/-- The innermost fork around the token scopes and sizes the join. -/
lemma Collects.key (hr : r.Collects p gateway frames) (hlast : frames.getLast? = some f)
    (states : List GatewayState) :
    r.keyAmong states none = ⟨f.branchCount, some f.forkId, some f.forkId⟩ := by
  simp only [keyAmong, hr.frames, hlast]

/-- An arrival completes a round of the innermost fork around the token and is released, or waits.
The joins of other forks stay as they are. -/
lemma Collects.effect (hr : r.Collects p gateway frames) (hlast : frames.getLast? = some f)
    (hsize : max f.branchCount 1 = size) (h : SoundStates p issued states)
    (hf : ∀ g ∈ frames, g.Sound states)
    (hholds : Holds size n (activeJoins p gateway (some f.forkId) states)) {d : Decision}
    {issued' : Nat} {states' : List GatewayState}
    (heff : r.Effect p issued states d issued' states') :
    (if size ∣ n + 1 then ∃ kept, d.Releases kept else d.Waits) ∧
      Holds size (n + 1) (activeJoins p gateway (some f.forkId) states') ∧
      ∀ key, key ≠ some f.forkId →
        activeJoins p gateway key states' = activeJoins p gateway key states := by
  obtain ⟨target, hcourse⟩ := hr.course
  have hkey := hr.key hlast states
  have hframes : ∀ g ∈ r.frames, g.Sound states := by rwa [hr.frames]
  have hfresh : issued < (Uid.mk (issued + 1)).value := Nat.lt_succ_self _
  have hcount : ∀ generation,
      ((r.arrival p none states ⟨issued + 1⟩ generation).1.isFull = true ↔ size ∣ n + 1) ∧
        Holds size (n + 1) (activeJoins p gateway (some f.forkId)
          (r.arrivalStates p none states ⟨issued + 1⟩ generation)) := by
    intro generation
    have harrival := @Holds.arrival r p size n states none ⟨issued + 1⟩ generation h.distinct
      (by rw [hkey]; exact hsize) (by rw [hkey, hr.gateway]; exact hholds)
    rwa [hkey, hr.gateway, ← activeJoins_arrivalStates h hframes hfresh] at harrival
  refine and_assoc.1 ⟨?_, fun key hne => heff.activeJoins_elsewhere h hframes
    fun flows targets hmeet => .inr ?_⟩
  · cases heff with
    | pass hpass => rw [hcourse] at hpass; cases hpass
    | split _ hsplit => rw [hcourse] at hsplit; cases hsplit
    | wait generation hmeet hfull =>
      rw [hcourse] at hmeet
      cases hmeet
      obtain ⟨hdvd, hheld⟩ := hcount generation
      rw [hfull] at hdvd
      rw [if_neg (by simpa using hdvd)]
      exact ⟨⟨rfl, rfl, rfl⟩, hheld⟩
    | release generation hmeet hfull =>
      rw [hcourse] at hmeet
      cases hmeet
      obtain ⟨hdvd, hheld⟩ := hcount generation
      rw [if_pos (hdvd.1 hfull)]
      exact ⟨⟨_, rfl, rfl, List.cons_ne_nil _ _, rfl⟩, hheld⟩
    | releaseSplit generation _ hmeet _ hmany =>
      rw [hcourse] at hmeet
      cases hmeet
      simp at hmany
  · rw [hcourse] at hmeet
    cases hmeet
    rw [hkey]
    exact hne.symm

/-- An arrival at an inclusive join never fails.  It completes a round of the innermost fork around
the token and is released, or waits. -/
theorem Collects.spec (hr : r.Collects p gateway frames) (hlast : frames.getLast? = some f)
    (hsize : max f.branchCount 1 = size) (hw : w.Sound)
    (hf : ∀ g ∈ frames, g.Carried (w.store.states p))
    (hholds : Holds size n (activeJoins p gateway (some f.forkId) (w.store.states p))) :
    ∃ d w', r.activate w = .ok d w' ∧ w'.Sound ∧ w.supply.issued ≤ w'.supply.issued ∧
      ForksKept (w.store.states p) (w'.store.states p) ∧
      (if size ∣ n + 1 then ∃ kept, d.Releases kept else d.Waits) ∧
      Holds size (n + 1) (activeJoins p gateway (some f.forkId) (w'.store.states p)) ∧
      ∀ key, key ≠ some f.forkId → activeJoins p gateway key (w'.store.states p) =
        activeJoins p gateway key (w.store.states p) := by
  obtain ⟨d, w', hact, heff, hsound, hissued, hforks, -⟩ :=
    activate_accepted hw hr.instanceId (by rwa [hr.frames]) fun e hrefuse => by
      obtain ⟨target, hcourse⟩ := hr.course
      rw [hcourse] at hrefuse
      cases hrefuse
  exact ⟨d, w', hact, hsound, hissued, hforks, hr.effect hlast hsize (hw.states p)
    (fun g hmem => (hf g hmem).toSound) hholds heff⟩

end Request

end ProcessEngine

import ProcessEngine.Proofs.Gateway.ParallelJoin
import ProcessEngine.Proofs.Gateway.Ready

/-!
# Rounds of a parallel join

Gateways are activated one after another, in any order, for any instances, some of them in vain.
The arrivals at a parallel gateway are told apart by their instance and by the outermost fork around
the token (`Request.meeting`).  Those that agree in both are counted in rounds of as many as the
gateway has incoming flows: the last arrival of a round is released by every outgoing flow, and all
others wait (`released_each_round`).  Nothing is assumed about the frames that the tokens carry but
that they name forks in the store.
-/

namespace ProcessEngine

/-- The token is let out of a join to all of the targets. -/
structure Decision.LetsOut (d : Decision) (targets : List String) : Prop where
  needsWait : d.needsWait = false
  isJoin : d.isJoin = true
  next : d.next = targets

/-- What tells the arrivals at parallel joins apart: the instance, the gateway, and the outermost
fork around the token. -/
structure Meeting where
  instanceId : Option String
  gateway : String
  fork : Option Uid
deriving DecidableEq

/-- Where the token meets others. -/
def Request.meeting (r : Request) : Meeting :=
  ⟨r.instanceId, r.gateway.id, r.frames.head?.map Frame.forkId⟩

/-- The workspace after gateways were activated in turn. -/
def Workspace.through (w : Workspace) (rs : List Request) : Workspace :=
  rs.foldl (fun w r => r.activate.after w) w

@[simp] lemma Workspace.through_concat (w : Workspace) (rs : List Request) (r : Request) :
    w.through (rs ++ [r]) = r.activate.after (w.through rs) := by
  simp [through]

/-- Gateways are told apart by their ids, and a parallel one is always activated in an instance,
with the same number of incoming flows, at least two, and with some outgoing flow. -/
structure Orderly (flows : String → Nat) (rs : List Request) : Prop where
  identified : ∀ r ∈ rs, ∀ s ∈ rs, r.gateway.id = s.gateway.id → r.gateway = s.gateway
  inInstance : ∀ r ∈ rs, r.gateway.kind = .parallel → r.instanceId.isSome
  incoming : ∀ r ∈ rs, r.gateway.kind = .parallel → r.incoming = some (flows r.gateway.id)
  many : ∀ r ∈ rs, r.gateway.kind = .parallel →
    1 < flows r.gateway.id ∧ flows r.gateway.id < UInt32.size
  outgoing : ∀ r ∈ rs, r.gateway.kind = .parallel → r.outgoing ≠ []

/-- The frames of each token name forks that are stored when its gateway is activated. -/
def Workspace.ForksNamed (w : Workspace) : List Request → Prop
  | [] => True
  | r :: rest => (∀ f ∈ r.frames, w.store.HasFork f.forkId) ∧ (r.activate.after w).ForksNamed rest

instance decidableForksNamed (w : Workspace) : ∀ rs, Decidable (w.ForksNamed rs)
  | [] => .isTrue trivial
  | r :: rest =>
    have := decidableForksNamed (r.activate.after w) rest
    inferInstanceAs (Decidable ((∀ f ∈ r.frames, w.store.HasFork f.forkId) ∧ _))

lemma Workspace.ForksNamed.at {rs : List Request} {w : Workspace} (h : w.ForksNamed rs) {i : Nat}
    {r : Request} (hi : rs[i]? = some r) :
    ∀ f ∈ r.frames, (w.through (rs.take i)).store.HasFork f.forkId := by
  induction rs generalizing w i with
  | nil => cases hi
  | cons s rest ih =>
    cases i with
    | zero =>
      obtain rfl : s = r := by simpa using hi
      exact h.1
    | succ i => exact ih h.2 (by simpa using hi)

open Workspace

namespace Request

variable {r : Request} {p gateway : String} {n k : Nat} {frames : List Frame} {w : Workspace}

/-- An arrival at a parallel join completes a round and is let out, or waits. -/
lemma Arrives.counted (hr : r.Arrives p gateway n frames) (hn : 1 < n) (hlt : n < UInt32.size)
    (hw : w.Ready) (hf : ∀ f ∈ frames, w.store.HasFork f.forkId)
    (hholds : Holds n k (activeJoins p gateway (frames.head?.map Frame.forkId)
      (w.store.states p))) :
    ∃ d w', r.activate w = .ok d w' ∧
      (if n ∣ k + 1 then d.LetsOut (r.outgoing.map Flow.target) else d.Waits) ∧ Grows w w' ∧
      Holds n (k + 1) (activeJoins p gateway (frames.head?.map Frame.forkId)
        (w'.store.states p)) := by
  have hkey := hr.key hlt (w.store.states p)
  obtain ⟨generation, w₁, hjoin, hgrows, hactive, -⟩ := join_ready hw hr.instanceId
    (hr.frames ▸ hf) (by simp [hr.incoming, hn]) (some (word32 n))
  set a := r.arrival p (some (word32 n)) (w.store.states p) w.supply.uid.1 generation with ha
  obtain ⟨hfull, hcounts⟩ := @Holds.arrival r p n k (w.store.states p) (some (word32 n))
    w.supply.uid.1 generation (hw.keyed.distinct_states p)
    (by rw [hkey]; exact Nat.max_eq_left hn.le) (by rw [hkey, hr.gateway]; exact hholds)
  rw [hkey, hr.gateway, ← ha, ← hactive] at hcounts
  have hactivate : r.activate w = (r.join (some (word32 n)) >>= fun arrival =>
      let d : Decision := { Decision.to [] with
        isJoin := true
        continueFrames := arrival.continueFrames
        stateId := arrival.stateId
        activeBranches := some arrival.activeBranches }
      if arrival.released then r.splitAll d else return { d with needsWait := true }) w := by
    have hsome : ¬r.outgoing.isEmpty = true := by simpa using hr.outgoing
    rw [activate, hr.kind]
    simp only [parallel, if_neg hsome, hr.incoming, if_pos hn]
  rw [hactivate, Action.bind_of_ok hjoin]
  by_cases hround : n ∣ k + 1
  · have hreleased : a.1.outcome.released = true := hfull.2 hround
    obtain ⟨d, w', heq, hnext, hisJoin, hneedsWait,
        (hspares : Spares (fun _ _ _ => True) w₁ w')⟩ :=
      splitAll_spares (r := r) hgrows.ready
        { Decision.to [] with
          isJoin := true
          continueFrames := a.1.outcome.continueFrames
          stateId := a.1.outcome.stateId
          activeBranches := some a.1.outcome.activeBranches }
    refine ⟨d, w', ?_, ?_, hgrows.trans hspares.toGrows, ?_⟩
    · simp only [hreleased, if_true]
      exact heq
    · rw [if_pos hround]
      exact ⟨hneedsWait, hisJoin, hnext⟩
    · rw [hspares.joins p gateway _ trivial]
      exact hcounts
  · have hout : a.1.outcome = ⟨false, a.1.activeBranches, some a.1.id, none⟩ := by
      have hopen : a.1.isFull = false := Bool.eq_false_iff.2 fun h => hround (hfull.1 h)
      simp [GatewayState.outcome, hopen]
    refine ⟨.waiting a.1, w₁, by rw [hout]; rfl, ?_, hgrows, hcounts⟩
    rw [if_neg hround]
    exact ⟨rfl, rfl, rfl⟩

end Request

namespace Orderly

variable {flows : String → Nat} {rs : List Request} {w : Workspace}

/-- The token of an activation comes to a parallel join. -/
lemma arrives (hr : Orderly flows rs) {r : Request} (hmem : r ∈ rs)
    (hk : r.gateway.kind = .parallel) :
    ∃ p, r.Arrives p r.gateway.id (flows r.gateway.id) r.frames := by
  obtain ⟨p, hp⟩ := Option.isSome_iff_exists.1 (hr.inInstance r hmem hk)
  exact ⟨p, hk, rfl, hp, hr.incoming r hmem hk, hr.outgoing r hmem hk, rfl⟩

/-- The store is ready, and at every meeting the active joins have counted the arrivals of the round
that is going on. -/
structure Counts (flows : String → Nat) (rs done : List Request) (w : Workspace) : Prop where
  ready : w.Ready
  holds : ∀ r ∈ rs, r.gateway.kind = .parallel → ∀ p, r.instanceId = some p →
    Holds (flows r.gateway.id) ((done.map Request.meeting).count r.meeting)
      (activeJoins p r.gateway.id (r.frames.head?.map Frame.forkId) (w.store.states p))

lemma Counts.start (hw : w.store = .empty) : Counts flows rs [] w := by
  have hnone : ∀ p, w.store.states p = [] := fun p => by rw [hw]; rfl
  have hall : w.store.all = [] := by rw [hw]; rfl
  refine ⟨⟨⟨by simp [hall], by simp [hall]⟩, by simp [hnone], by simp [hnone]⟩, ?_⟩
  intro r _ _ p _
  rw [hnone]
  exact .idle (Nat.zero_mod _)

/-- One more activation is counted at its own meeting and does not matter to any other. -/
lemma Counts.step (hr : Orderly flows rs) {done : List Request} (h : Counts flows rs done w)
    {s : Request} (hs : s ∈ rs) (hf : ∀ f ∈ s.frames, w.store.HasFork f.forkId) :
    Counts flows rs (done ++ [s]) (s.activate.after w) := by
  have hspares := Request.activate_spares h.ready hf
  refine ⟨hspares.ready, fun r hmem hk p hp => ?_⟩
  rw [List.map_append, List.count_append, List.map_singleton, List.count_singleton]
  by_cases hsame : s.meeting = r.meeting
  · obtain ⟨hinstance, hgateway, hfork⟩ : s.instanceId = r.instanceId ∧
        s.gateway.id = r.gateway.id ∧
        s.frames.head?.map Frame.forkId = r.frames.head?.map Frame.forkId := by
      simpa [Request.meeting] using hsame
    have hsk : s.gateway.kind = .parallel := by rw [hr.identified s hs r hmem hgateway, hk]
    obtain ⟨q, hq⟩ := hr.arrives hs hsk
    obtain rfl : p = q := Option.some.inj (hp.symm.trans (hinstance.symm.trans hq.instanceId))
    obtain ⟨hmany, hword⟩ := hr.many s hs hsk
    have hholds := h.holds r hmem hk p hp
    rw [← hgateway, ← hfork, ← hsame] at hholds
    obtain ⟨d, w', hact, -, -, hcounts⟩ := hq.counted hmany hword h.ready hf hholds
    rw [Action.after_of_ok hact, if_pos (by simp [hsame]), ← hgateway, ← hfork, ← hsame]
    exact hcounts
  · rw [if_neg (by simpa using hsame), Nat.add_zero, hspares.joins p r.gateway.id _ ?_]
    · exact h.holds r hmem hk p hp
    · by_cases hinstance : s.instanceId = some p
      · by_cases hgateway : s.gateway.id = r.gateway.id
        · refine .inr (.inr ⟨by rw [hr.identified s hs r hmem hgateway, hk], fun hfork => hsame ?_⟩)
          rw [Request.meeting, Request.meeting, hinstance, hp, hgateway, hfork]
        · exact .inr (.inl hgateway)
      · exact .inl hinstance

lemma Counts.run (hr : Orderly flows rs) (hw : w.store = .empty) (hf : w.ForksNamed rs) (i : Nat) :
    Counts flows rs (rs.take i) (w.through (rs.take i)) := by
  induction i with
  | zero =>
    rw [List.take_zero]
    exact .start hw
  | succ i ih =>
    rw [List.take_add_one]
    cases hi : rs[i]? with
    | none => simpa using ih
    | some r =>
      rw [Option.toList_some, Workspace.through_concat]
      exact ih.step hr (List.mem_of_getElem? hi) (hf.at hi)

end Orderly

/-- The arrivals at a parallel join resolve it once for every full round of them: the activation at
which the number of arrivals at the same meeting so far is a multiple of the number of incoming
flows lets its token out by every outgoing flow, and at all others the token waits. -/
theorem released_each_round {flows : String → Nat} {rs : List Request} {w : Workspace}
    (hr : Orderly flows rs) (hw : w.store = .empty) (hf : w.ForksNamed rs) {i : Nat} {r : Request}
    (hi : rs[i]? = some r) (hk : r.gateway.kind = .parallel) :
    ∃ d w', r.activate (w.through (rs.take i)) = .ok d w' ∧
      if flows r.gateway.id ∣ ((rs.take (i + 1)).map Request.meeting).count r.meeting then
        d.LetsOut (r.outgoing.map Flow.target)
      else d.Waits := by
  have hmem := List.mem_of_getElem? hi
  have hcounts := Orderly.Counts.run hr hw hf i
  obtain ⟨p, hp⟩ := hr.arrives hmem hk
  obtain ⟨hmany, hword⟩ := hr.many r hmem hk
  obtain ⟨d, w', hact, hd, -⟩ := hp.counted hmany hword hcounts.ready (hf.at hi)
    (hcounts.holds r hmem hk p hp.instanceId)
  refine ⟨d, w', hact, ?_⟩
  rw [List.take_add_one, hi, Option.toList_some, List.map_append, List.count_append,
    List.map_singleton, List.count_singleton_self]
  exact hd

/-! ### Two instances at one gateway -/

namespace Rounds

/-- A token that comes to a parallel gateway with two incoming flows. -/
def arrival (instanceId : String) (frames : List Frame) : Request :=
  ⟨.unnamed "j" .parallel none, [⟨"jz", "j", "z", none⟩], [], some 2, some instanceId, none, frames⟩

/-- A token that an inclusive gateway sends along both of its flows. -/
def split : Request :=
  ⟨.unnamed "i" .inclusive none, [⟨"ix", "i", "x", none⟩, ⟨"iy", "i", "y", none⟩], [], some 1,
    some "first", none, []⟩

/-- A token that an exclusive gateway has no way out for. -/
def stuck : Request := ⟨.unnamed "e" .exclusive none, [], [], some 1, some "first", none, []⟩

/-- The frame of a branch of the fork that `split` makes. -/
def branch (n : Nat) : Frame := ⟨"i", ⟨1⟩, 2, 1, [n]⟩

/-- The two branches of a fork meet, while tokens without a fork wait in each of two instances. -/
def mixed : List Request :=
  [split, arrival "first" [branch 0], arrival "second" [], arrival "first" [], stuck,
    arrival "first" [branch 1]]

/-- A workspace in which nothing has happened. -/
def fresh : Workspace := ⟨.empty, .new 1, .start fun _ => ⟨0, 0⟩⟩

lemma orderly_mixed : Orderly (fun _ => 2) mixed :=
  ⟨by decide, by decide, by decide, by decide, by decide⟩

lemma forksNamed_mixed : fresh.ForksNamed mixed := by decide +kernel

end Rounds

/-- The second branch of a fork is released while the tokens outside of the fork still wait. -/
theorem released_each_round_mixed :
    Orderly (fun _ => 2) Rounds.mixed ∧ Rounds.fresh.ForksNamed Rounds.mixed ∧
      (∃ d w', (Rounds.arrival "first" []).activate (Rounds.fresh.through (Rounds.mixed.take 3)) =
        .ok d w' ∧ d.Waits) ∧
      ∃ d w', (Rounds.arrival "first" [Rounds.branch 1]).activate
        (Rounds.fresh.through (Rounds.mixed.take 5)) = .ok d w' ∧ d.LetsOut ["z"] := by
  refine ⟨Rounds.orderly_mixed, Rounds.forksNamed_mixed, ?_, ?_⟩
  · exact released_each_round (i := 3) Rounds.orderly_mixed rfl Rounds.forksNamed_mixed rfl rfl
  · exact released_each_round (i := 5) Rounds.orderly_mixed rfl Rounds.forksNamed_mixed rfl rfl

end ProcessEngine

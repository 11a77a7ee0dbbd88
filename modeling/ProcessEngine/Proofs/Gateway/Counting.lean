import Mathlib.Algebra.Order.BigOperators.Group.List
import Mathlib.Algebra.Order.Ring.Nat
import ProcessEngine.Proofs.Definition.Elements
import ProcessEngine.Proofs.Gateway.Effect

/-!
# Counting arrivals

Every token that comes to a joining gateway is counted at exactly one of its join states, and stays
counted there.  `arrivals` sums the counts of the join states of a gateway, `expected` what they
wait for; an activation adds one to the first (`Effect.arrivals`), and the two are equal if and only
if no join of the gateway holds a token back (`arrivals_eq_expected`).
-/

namespace ProcessEngine

/-! ## Sums over states -/

/-- Exchanging a state changes a sum by the difference of the two. -/
lemma sum_exchanged (f : GatewayState → Nat) {states : List GatewayState}
    (hd : (states.map GatewayState.id).Nodup) {j : GatewayState} (j' : GatewayState)
    (hj : j ∈ states) (hid : j'.id = j.id) :
    ((exchanged j' states).map f).sum + f j = (states.map f).sum + f j' := by
  induction states with
  | nil => cases hj
  | cons s rest ih =>
    rw [List.map_cons, List.nodup_cons] at hd
    rw [exchanged, List.map_cons, ← exchanged, List.map_cons, List.map_cons, List.sum_cons,
      List.sum_cons]
    rcases List.mem_cons.1 hj with rfl | hrest
    · have hothers : exchanged j' rest = rest :=
        Store.exchanged_of_not_mem fun o ho heq =>
          hd.1 (hid ▸ heq ▸ List.mem_map_of_mem ho)
      rw [if_pos hid.symm, hothers]
      omega
    · have hne : s.id ≠ j'.id := fun heq => hd.1 (heq ▸ hid ▸ List.mem_map_of_mem hrest)
      have := ih hd.2 hrest
      rw [if_neg hne]
      omega

/-- Retiring states changes no sum in which activity does not count. -/
lemma sum_retired (f : GatewayState → Nat) (hf : ∀ s, f { s with isActive := false } = f s)
    (ids : List Uid) (states : List GatewayState) :
    ((retired ids states).map f).sum = (states.map f).sum := by
  rw [retired, List.map_map]
  congr 1
  refine List.map_congr_left fun s _ => ?_
  rw [Function.comp_apply]
  split
  · exact hf s
  · rfl

/-- Sums of bounded numbers are equal only if all are. -/
lemma sum_eq_iff_of_le {f g : GatewayState → Nat} {states : List GatewayState}
    (hle : ∀ s ∈ states, f s ≤ g s) :
    (states.map f).sum = (states.map g).sum ↔ ∀ s ∈ states, f s = g s := by
  induction states with
  | nil => simp
  | cons s rest ih =>
    have hrest : ∀ o ∈ rest, f o ≤ g o := fun o ho => hle o (List.mem_cons_of_mem _ ho)
    have hsum : (rest.map f).sum ≤ (rest.map g).sum := List.sum_le_sum hrest
    have hs := hle s List.mem_cons_self
    simp only [List.map_cons, List.sum_cons, List.forall_mem_cons, ← ih hrest]
    omega

/-! ## Joins of a gateway -/

namespace GatewayState

/-- Whether a state is a join of the gateway. -/
def isJoinAt (x : String) (s : GatewayState) : Bool := s.kind == .join && s.gatewayId == x

/-- Whether a state is a join that holds tokens back: some have arrived, and some are missing. -/
def isHolding (s : GatewayState) : Bool :=
  s.kind == .join && s.isActive && decide (1 ≤ s.completedBranches) &&
    decide (s.completedBranches < s.activeBranches)

end GatewayState

/-- How many tokens have arrived at the joins of a gateway. -/
def arrivals (x : String) (states : List GatewayState) : Nat :=
  (states.map fun s => if s.isJoinAt x then s.completedBranches else 0).sum

/-- How many arrivals the joins of a gateway wait for, those that have come included. -/
def expected (x : String) (states : List GatewayState) : Nat :=
  (states.map fun s => if s.isJoinAt x then s.activeBranches else 0).sum

/-- As many tokens have arrived as the joins of a gateway wait for if and only if none of the joins
holds a token back. -/
theorem arrivals_eq_expected {p : String} {issued : Nat} {states : List GatewayState}
    (h : SoundStates p issued states) (x : String) :
    arrivals x states = expected x states ↔
      ∀ j ∈ states, j.gatewayId = x → j.isHolding = false := by
  rw [arrivals, expected, sum_eq_iff_of_le]
  · refine forall₂_congr fun j hj => ?_
    by_cases hjoin : j.isJoinAt x = true
    · simp only [GatewayState.isJoinAt, Bool.and_eq_true, beq_iff_eq] at hjoin
      have hsound := h.joins j hj hjoin.1
      have hcounted := hsound.counted
      have hbounded := hsound.bounded
      simp only [GatewayState.isJoinAt, hjoin.1, hjoin.2, GatewayState.isHolding, beq_self_eq_true,
        Bool.and_self, if_true, Bool.true_and, forall_const, decide_eq_true hcounted, Bool.and_true]
      constructor
      · intro heq
        simp [heq]
      · intro hfree
        by_contra hne
        have hlt : j.completedBranches < j.activeBranches := by omega
        simp [hsound.active.2 hlt, hlt] at hfree
    · simp only [hjoin, Bool.false_eq_true, if_false, true_iff]
      intro hx
      have hk : (j.kind == .join) = false := by
        simpa [GatewayState.isJoinAt, hx] using hjoin
      simp [GatewayState.isHolding, hk]
  · intro j hj
    split_ifs with hjoin
    · simp only [GatewayState.isJoinAt, Bool.and_eq_true, beq_iff_eq] at hjoin
      exact (h.joins j hj hjoin.1).bounded
    · exact Nat.le_refl 0

namespace Request

variable {r : Request} {p : String} {issued : Nat} {states : List GatewayState}
  {flows : Option Nat} {id : Uid} {generation : Nat}

/-- An arrival is counted once, at the gateway that the token has come to. -/
lemma arrivals_arrivalStates (h : SoundStates p issued states) (x : String) :
    arrivals x (r.arrivalStates p flows states id generation) =
      arrivals x states + if r.gateway.id = x then 1 else 0 := by
  have hretire : ∀ ids more, arrivals x (retired ids more) = arrivals x more :=
    fun ids more => sum_retired _ (fun _ => rfl) ids more
  have hcount : arrivals x (r.arrival p flows states id generation).2 =
      arrivals x states + if r.gateway.id = x then 1 else 0 := by
    rcases r.arrival_cases p flows states id generation with
      ⟨o, ho, hjoin, heq⟩ | ⟨o, hopened, -, heq⟩
    · simp only [Store.isJoinOf, Bool.and_eq_true, beq_iff_eq] at hjoin
      obtain ⟨⟨⟨⟨hk, -⟩, -⟩, hgateway⟩, -⟩ := hjoin
      have hsum := sum_exchanged (fun s => if s.isJoinAt x then s.completedBranches else 0)
        h.distinct (o.arrived r.frames) ho rfl
      simp only [GatewayState.isJoinAt, GatewayState.kind_arrived, GatewayState.gatewayId_arrived,
        GatewayState.completedBranches_arrived, hk, hgateway, beq_self_eq_true, Bool.true_and,
        beq_iff_eq] at hsum
      rw [heq, arrivals, arrivals]
      simp only [GatewayState.isJoinAt]
      split_ifs at hsum ⊢ <;> omega
    · rw [heq, arrivals, arrivals, List.map_append, List.sum_append, hopened]
      simp [GatewayState.isJoinAt, GatewayState.ofJoin]
  rw [arrivalStates]
  split
  · rw [hretire, hcount]
  · exact hcount

lemma arrivals_append_fork (x : String) (targets : List String) (id : Uid) (generation : Nat)
    (more : List GatewayState) :
    arrivals x (more ++ [r.newFork p targets id generation]) = arrivals x more := by
  simp [arrivals, GatewayState.isJoinAt, newFork, GatewayState.ofFork]

/-- Whether the token meets others at the gateway. -/
def Meets (r : Request) : Prop := ∃ flows targets, r.course = .meet flows targets

/-- An activation counts one arrival if the token meets others, and none else. -/
theorem Effect.arrivals {decision : Decision} {issued' : Nat} {states' : List GatewayState}
    (heff : r.Effect p issued states decision issued' states') (h : SoundStates p issued states)
    (x : String) :
    (r.Meets → arrivals x states' = arrivals x states + if r.gateway.id = x then 1 else 0) ∧
      (¬r.Meets → arrivals x states' = arrivals x states) := by
  cases heff with
  | pass hcourse =>
    refine ⟨?_, fun _ => rfl⟩
    rintro ⟨flows, targets, hmeet⟩
    rw [hcourse] at hmeet
    cases hmeet
  | split generation hcourse =>
    refine ⟨?_, fun _ => arrivals_append_fork x _ _ _ _⟩
    rintro ⟨flows, targets, hmeet⟩
    rw [hcourse] at hmeet
    cases hmeet
  | wait generation hcourse =>
    exact ⟨fun _ => arrivals_arrivalStates h x, fun hnot => absurd ⟨_, _, hcourse⟩ hnot⟩
  | release generation hcourse =>
    exact ⟨fun _ => arrivals_arrivalStates h x, fun hnot => absurd ⟨_, _, hcourse⟩ hnot⟩
  | releaseSplit generation forkGeneration hcourse =>
    refine ⟨fun _ => ?_, fun hnot => absurd ⟨_, _, hcourse⟩ hnot⟩
    rw [arrivals_append_fork, arrivals_arrivalStates h x]

end Request

/-! ## Joining gateways -/

/-- Whether tokens that come to a gateway of a definition meet there: it has several incoming flows,
and is parallel, or is inclusive and does not fork. -/
structure Definition.Joins (d : Definition) (g : Gateway) : Prop where
  many : 1 < d.incomingCount g.id
  kind : g.kind = .parallel ∨ g.kind = .inclusive ∧ (d.outgoing g.id).length ≤ 1 ∧
    (d.outgoing g.id).head?.any (·.isConditional) = false

namespace Run

variable {run : Run} {d : Definition} {g : Gateway} {u : Uid} {frames : List Frame}

lemma forksInclusively_request :
    (run.request d g u frames).forksInclusively =
      (decide (1 < (d.outgoing g.id).length) ||
        (d.outgoing g.id).head?.any (·.isConditional)) := rfl

lemma joins_of_meets (h : (run.request d g u frames).Meets) : d.Joins g := by
  obtain ⟨flows, targets, hcourse⟩ := h
  rcases Request.course_meet hcourse with ⟨hkind, n, hn, hmany, -⟩ | ⟨hkind, hforks, -, hmany⟩
  · obtain rfl := Option.some.inj hn
    exact ⟨hmany, .inl hkind⟩
  · rw [forksInclusively_request, Bool.or_eq_false_iff, decide_eq_false_iff_not, not_lt] at hforks
    exact ⟨by simpa [request] using hmany, .inr ⟨hkind, hforks⟩⟩

/-- At a joining gateway tokens meet, or are refused. -/
lemma meets_of_joins (run : Run) (u : Uid) (frames : List Frame) (h : d.Joins g) :
    (∃ e, (run.request d g u frames).course = .refuse e) ∨ (run.request d g u frames).Meets := by
  have hmany := h.many
  rcases h.kind with hkind | ⟨hkind, hshort, hplain⟩
  · have hcourse : (run.request d g u frames).course =
        if (d.outgoing g.id).isEmpty then .refuse (.noOutgoingFlow g.id)
        else if 1 < d.incomingCount g.id then
          .meet (some (word32 (d.incomingCount g.id))) ((d.outgoing g.id).map Flow.target)
        else Request.courseTo ((d.outgoing g.id).map Flow.target) := by
      rw [Request.course, show (run.request d g u frames).gateway.kind = .parallel from hkind]
      rfl
    rw [if_pos hmany] at hcourse
    by_cases hnone : (d.outgoing g.id).isEmpty = true
    · exact .inl ⟨_, hcourse.trans (if_pos hnone)⟩
    · exact .inr ⟨_, _, hcourse.trans (if_neg hnone)⟩
  · have hno : ¬(run.request d g u frames).forksInclusively = true := by
      rw [forksInclusively_request, hplain, Bool.or_false, decide_eq_true_eq, not_lt]
      exact hshort
    have hseveral : ¬(run.request d g u frames).incoming.any (· ≤ 1) = true := by
      simpa [request] using hmany
    have hinclusive : (run.request d g u frames).gateway.kind = .inclusive := hkind
    cases hhead : (run.request d g u frames).outgoing.head? with
    | none =>
      refine .inl ⟨.noOutgoingFlow g.id, ?_⟩
      rw [Request.course, hinclusive]
      simp only [if_neg hno, hhead]
      rfl
    | some flow =>
      refine .inr ⟨none, [flow.target], ?_⟩
      rw [Request.course, hinclusive]
      simp only [if_neg hno, if_neg hseveral, hhead]

end Run

/-- Every join of an instance belongs to a joining gateway of the definition, and a join of a
parallel gateway waits for as many arrivals as there are incoming flows. -/
def JoinsSized (d : Definition) (states : List GatewayState) : Prop :=
  ∀ j ∈ states, j.kind = .join → ∃ g, d.element? j.gatewayId = some (.gateway g) ∧ d.Joins g ∧
    (g.kind = .parallel → j.activeBranches = max (word32 (d.incomingCount g.id)) 1)

namespace JoinsSized

variable {d : Definition} {run : Run} {g : Gateway} {u : Uid} {frames : List Frame} {p : String}
  {issued : Nat} {states : List GatewayState}

lemma append_fork (h : JoinsSized d states) {fork : GatewayState} (hk : fork.kind = .fork) :
    JoinsSized d (states ++ [fork]) := by
  intro j hj hjk
  rcases List.mem_append.1 hj with hj | hj
  · exact h j hj hjk
  · rw [List.mem_singleton.1 hj, hk] at hjk
    cases hjk

lemma arrivalStates (h : JoinsSized d states) (hs : SoundStates p issued states)
    (hf : ∀ f ∈ frames, f.Sound states) {id : Uid} (hid : issued < id.value) {generation : Nat}
    (hg : d.element? g.id = some (.gateway g)) {flows : Option Nat} {targets : List String}
    (hcourse : (run.request d g u frames).course = .meet flows targets) :
    JoinsSized d ((run.request d g u frames).arrivalStates p flows states id generation) := by
  intro k hk hkk
  rcases (Request.mem_arrivalStates_join hs hf hid hkk).1 hk with rfl | ⟨hk, -⟩
  · rcases (run.request d g u frames).arrival_cases p flows states id generation with
      ⟨o, ho, hjoin, heq⟩ | ⟨o, rfl, -, heq⟩
    · simp only [Store.isJoinOf, Bool.and_eq_true, beq_iff_eq] at hjoin
      rw [heq]
      exact h o ho hjoin.1.1.1.1
    · rw [heq]
      refine ⟨g, hg, Run.joins_of_meets ⟨_, _, hcourse⟩, fun hkind => ?_⟩
      rcases Request.course_meet hcourse with ⟨-, n, hn, -, rfl⟩ | ⟨hother, -⟩
      · obtain rfl := Option.some.inj hn
        rfl
      · rw [show (run.request d g u frames).gateway.kind = g.kind from rfl, hkind] at hother
        cases hother
  · exact h k hk hkk

lemma effect (h : JoinsSized d states) (hs : SoundStates p issued states)
    (hf : ∀ f ∈ frames, f.Sound states) (hg : d.element? g.id = some (.gateway g))
    {decision : Decision} {issued' : Nat} {states' : List GatewayState}
    (heff : (run.request d g u frames).Effect p issued states decision issued' states') :
    JoinsSized d states' := by
  have hfresh : issued < (Uid.mk (issued + 1)).value := Nat.lt_succ_self issued
  cases heff with
  | pass => exact h
  | split => exact h.append_fork rfl
  | wait generation hcourse => exact h.arrivalStates hs hf hfresh hg hcourse
  | release generation hcourse => exact h.arrivalStates hs hf hfresh hg hcourse
  | releaseSplit generation _ hcourse =>
    exact (h.arrivalStates hs hf hfresh hg hcourse).append_fork rfl

end JoinsSized

end ProcessEngine

import ProcessEngine.Proofs.Engine.Reachable

/-!
# The end of an instance

An instance ends when no token of it is parked any more, whatever its joins hold.  So a join may
hold tokens back for good: where only one branch of a choice leads to a parallel join, the other
branch is waited for in vain (`ended_while_holding`).  But no token is lost on the way.  When an
instance ends, every token that has come to a joining gateway is counted at a join of it, and no
join holds a token back if and only if at every joining gateway as many tokens have arrived as its
joins wait for (`ended_accounted`).
-/

namespace ProcessEngine

/-- Whether a call terminates an instance. -/
def Call.isTermination : Call → Bool
  | .terminate .. => true
  | _ => false

/-- The books on the tokens that have come to the joining gateways of a definition. -/
structure Accounted (d : Definition) (i : Instance) (states : List GatewayState) : Prop where
  counted : ∀ g, d.element? g.id = some (.gateway g) → d.Joins g → ¬d.Offers g.id →
    i.completions g.id = arrivals g.id states
  balanced : (∀ j ∈ states, j.isHolding = false) ↔
    ∀ g, d.element? g.id = some (.gateway g) → d.Joins g →
      arrivals g.id states = expected g.id states
  sized : ∀ j ∈ states, j.kind = .join →
    ∃ g, d.element? g.id = some (.gateway g) ∧ d.Joins g ∧ j.gatewayId = g.id ∧
      (g.kind = .parallel → j.activeBranches = max (word32 (d.incomingCount g.id)) 1)

/-- The books of an instance that is kept are in order. -/
lemma Kept.accounted {d : Definition} {i : Instance} {p : String} {issued : Nat}
    {states : List GatewayState} (h : Kept d i states) (hs : SoundStates p issued states) :
    Accounted d i states where
  counted := h.counted
  balanced := by
    constructor
    · intro hfree g _ _
      exact (arrivals_eq_expected hs g.id).2 fun j hj _ => hfree j hj
    · intro hbalanced j hj
      by_cases hk : j.kind = .join
      · obtain ⟨g, hg, hjoins, -⟩ := h.sized j hj hk
        have hid : g.id = j.gatewayId := Definition.element?_id hg
        rw [← hid] at hg
        exact (arrivals_eq_expected hs g.id).1 (hbalanced g hg hjoins) j hj hid.symm
      · simp [GatewayState.isHolding, hk]
  sized j hj hk := by
    obtain ⟨g, hg, hjoins, hwait⟩ := h.sized j hj hk
    have hid : g.id = j.gatewayId := Definition.element?_id hg
    rw [← hid] at hg
    exact ⟨g, hg, hjoins, hid.symm, hwait⟩

namespace Engine

/-- Whether a call succeeds and leaves its instance ended. -/
def ends (e : Engine) (c : Call) : Bool :=
  match (e.call c).1 with
  | .ok i => i.isEnded
  | .error _ => false

/-- An engine that allows for ten visits, with a clock that stands still. -/
def small : Engine :=
  .new { Config.standard with maxTraversalSteps := 10 } (.start fun _ => .ofSeconds 0)

lemma reachable_small : small.Reachable := .new _ _

end Engine

end ProcessEngine

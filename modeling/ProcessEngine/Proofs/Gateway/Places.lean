import Mathlib.Data.List.Sort
import Mathlib.Order.Bounds.Basic
import ProcessEngine.Gateway.Routing

/-!
# Flows and their places

What a guard has to come to for a flow to be taken (`Flow.Holds`), and the places of a list of flows
at which a test succeeds (`placesOf`).  A gateway only tells where it sends a token; which places it
has chosen is seen once each place leads to an element of its own (`placed`).  A search in such a
list, or a selection from it, comes to the places of the flows that pass the test.
-/

namespace ProcessEngine

variable {f : Flow} {vars : Variables} {flows : List Flow} {test : Flow → Bool}
  {targets : Nat → String} {i k : Nat}

/-! ## Guards -/

/-- The condition on a flow is evaluated without an error, to a value that counts as true. -/
def Flow.Holds (vars : Variables) (f : Flow) : Prop :=
  ∃ source value, f.condition = some source ∧
    Expression.evaluateSource source vars = .ok value ∧ truthy value = true

lemma Flow.isOpen_of_not_isConditional (h : f.isConditional = false) : f.isOpen vars = true := by
  simp [isOpen, guardSource?, h]

lemma Flow.isOpen_iff_holds (h : f.isConditional = true) : f.isOpen vars = true ↔ f.Holds vars := by
  rw [isOpen, guardSource?, if_pos h, Holds]
  cases hc : f.condition with
  | none => simp [isConditional, hc] at h
  | some source =>
    simp only [Expression.evaluateCondition]
    cases hvalue : Expression.evaluateSource source vars with
    | ok value => simp [Except.map, hvalue]
    | error e => simp [Except.map, hvalue]

lemma Flow.isOpen_iff : f.isOpen vars = true ↔ f.isConditional = false ∨ f.Holds vars := by
  cases h : f.isConditional with
  | false => simp [isOpen_of_not_isConditional h]
  | true => simp [isOpen_iff_holds h]

/-! ## Places -/

/-- The places of the flows that pass a test. -/
def placesOf (test : Flow → Bool) (flows : List Flow) : List Nat :=
  (flows.zipIdx.filter (test ·.1)).map Prod.snd

lemma mem_placesOf : i ∈ placesOf test flows ↔ ∃ f, flows[i]? = some f ∧ test f = true := by
  simp [placesOf, List.mem_zipIdx_iff_getElem?]

lemma placesOf_sorted (test : Flow → Bool) (flows : List Flow) :
    (placesOf test flows).SortedLT := by
  have hplaces : (flows.zipIdx.map Prod.snd).Pairwise (· < ·) := by
    rw [List.zipIdx_map_snd]
    exact List.pairwise_lt_range'
  exact (hplaces.sublist (List.filter_sublist.map Prod.snd)).sortedLT

lemma head?_eq_some_iff_isLeast {l : List Nat} (hl : l.SortedLT) :
    l.head? = some k ↔ IsLeast {i | i ∈ l} k := by
  cases l with
  | nil => simp [IsLeast]
  | cons a l =>
    have ha : IsLeast {i | i ∈ a :: l} a :=
      ⟨List.mem_cons_self, fun i hi => by
        rcases List.mem_cons.1 hi with rfl | hi
        · exact Nat.le_refl _
        · exact Nat.le_of_lt (List.rel_of_pairwise_cons hl.pairwise hi)⟩
    rw [List.head?_cons, Option.some.injEq]
    exact ⟨fun h => h ▸ ha, fun h => ha.unique h⟩

lemma find?_eq_bind (test : Flow → Bool) (flows : List Flow) :
    flows.find? test = (placesOf test flows).head?.bind (flows[·]?) := by
  have hflows : flows.find? test = (flows.zipIdx.find? (test ·.1)).map Prod.fst := by
    conv_lhs => rw [← List.zipIdx_map_fst 0 flows, List.find?_map]
    rfl
  rw [hflows, placesOf, List.head?_map, List.head?_filter]
  cases hz : flows.zipIdx.find? (test ·.1) with
  | none => rfl
  | some z => exact (List.mem_zipIdx_iff_getElem?.1 (List.mem_of_find?_eq_some hz)).symm

/-- The flows with other targets, each place with its own. -/
def placed (targets : Nat → String) (flows : List Flow) : List Flow :=
  flows.mapIdx fun i f => { f with target := targets i }

lemma placed_eq_map (targets : Nat → String) (flows : List Flow) :
    placed targets flows = flows.zipIdx.map fun z => { z.1 with target := targets z.2 } :=
  List.mapIdx_eq_zipIdx_map

/-- The flows that pass a test lead to the targets of their places. -/
lemma map_target_filter_placed (htest : ∀ f t, test { f with target := t } = test f) :
    ((placed targets flows).filter test).map Flow.target = (placesOf test flows).map targets := by
  have hcomp : (test ∘ fun z : Flow × Nat => { z.1 with target := targets z.2 }) = (test ·.1) :=
    funext fun z => htest z.1 _
  rw [placed_eq_map, List.filter_map, hcomp, placesOf, List.map_map, List.map_map]
  rfl

lemma map_target_find?_placed (htest : ∀ f t, test { f with target := t } = test f) :
    ((placed targets flows).find? test).map Flow.target =
      (placesOf test flows).head?.map targets := by
  rw [← List.head?_filter, ← List.head?_map, map_target_filter_placed htest, List.head?_map]

lemma map_id_find?_placed (htest : ∀ f t, test { f with target := t } = test f) :
    ((placed targets flows).find? test).map Flow.id = (flows.find? test).map Flow.id := by
  have hcomp : (test ∘ fun z : Flow × Nat => { z.1 with target := targets z.2 }) = (test ·.1) :=
    funext fun z => htest z.1 _
  have hflows : flows.zipIdx.map Prod.fst = flows := List.zipIdx_map_fst 0 flows
  rw [placed_eq_map, List.find?_map, hcomp, ← congrArg (List.find? test) hflows, List.find?_map,
    Option.map_map, Option.map_map]
  rfl

end ProcessEngine

import Mathlib.Tactic.SplitIfs
import ProcessEngine.Definition.Validation
import ProcessEngine.Proofs.Closure

/-!
# Elements that start events lead to

An element of a definition is led to if some path of flows goes from a start event to it
(`Definition.LeadsTo`).  This is decided by the closure of the flows, so the warnings about elements
that cannot be reached are about those that are not led to, in the order of the elements
(`unreachable_issues`).
-/

namespace ProcessEngine.Definition

open Relation (ReflTransGen)

variable {d : Definition} {x y : String}

/-- A path of flows goes from a start event to the element. -/
def LeadsTo (d : Definition) (x : String) : Prop :=
  ∃ s ∈ d.startEvents, ReflTransGen (fun a b => ∃ f ∈ d.flows, f.source = a ∧ f.target = b) s.id x

lemma leadsTo_startEvent {s : Node} (hs : s ∈ d.startEvents) : d.LeadsTo s.id := ⟨s, hs, .refl⟩

/-- A path goes on along a flow. -/
lemma LeadsTo.target (h : d.LeadsTo x) {f : Flow} (hf : f ∈ d.outgoing x) :
    d.LeadsTo f.target := by
  obtain ⟨s, hs, hpath⟩ := h
  obtain ⟨hflow, hsource⟩ := List.mem_filter.1 hf
  exact ⟨s, hs, hpath.tail ⟨f, hflow, by simpa using hsource, rfl⟩⟩

/-- The reachable ids are those that are led to. -/
lemma mem_reachable : x ∈ d.reachable ↔ d.LeadsTo x := by
  have hedge : (fun a b => (a, b) ∈ d.edges) =
      fun a b => ∃ f ∈ d.flows, f.source = a ∧ f.target = b := by
    funext a b
    simp [edges]
  rw [reachable, mem_closure, hedge, LeadsTo]
  simp

instance (d : Definition) : DecidablePred d.LeadsTo :=
  fun _ => decidable_of_iff _ mem_reachable

lemma unreachable_eq (d : Definition) :
    d.unreachable = d.elementIds.filter fun id => ¬d.LeadsTo id := by
  refine List.filter_congr fun id _ => ?_
  rw [List.contains_eq_mem, decide_eq_decide.2 mem_reachable, decide_not]

/-- No other issue has the rule of elements that cannot be reached. -/
lemma rule_eq_iff {i : Issue} : i.rule = "D5" ↔ ∃ id, i = .unreachable id := by
  cases i <;> simp [Issue.rule]

/-- A flow is not checked for how its ends are reached. -/
lemma ne_unreachable_of_flow {f : Flow} {i : Issue} (hi : i ∈ d.danglingEnds f) (id : String) :
    i ≠ .unreachable id := by
  rintro rfl
  rcases List.mem_append.1 hi with hi | hi <;>
    · simp only at hi
      split_ifs at hi
      · simp at hi
      · cases hi

/-- Nor is a gateway. -/
lemma ne_unreachable_of_gateway {g : Gateway} {outgoing : List Flow} {i : Issue}
    (hi : i ∈ g.issues outgoing) (id : String) : i ≠ .unreachable id := by
  rintro rfl
  rw [Gateway.issues] at hi
  by_cases hnone : outgoing.isEmpty = true
  · rw [if_pos hnone] at hi
    simp at hi
  · rw [if_neg hnone] at hi
    rcases List.mem_append.1 hi with hi | hi
    · cases hdefault : g.defaultFlow with
      | none =>
        rw [hdefault] at hi
        cases hi
      | some declared =>
        rw [hdefault] at hi
        simp only at hi
        split_ifs at hi
        · cases hi
        · simp at hi
    · cases hkind : g.kind with
      | exclusive =>
        rw [hkind] at hi
        simp only at hi
        split_ifs at hi
        · simp at hi
        · cases hi
      | parallel =>
        rw [hkind] at hi
        simp at hi
      | inclusive | eventBased =>
        rw [hkind] at hi
        cases hi

/-- The warnings about elements that cannot be reached are about the elements that no start event
leads to, in their order. -/
theorem unreachable_issues (h : d.startEvents ≠ []) :
    d.issues.filter (·.rule == "D5") =
      (d.elementIds.filter fun id => ¬d.LeadsTo id).map .unreachable := by
  have hnone : ∀ is : List Issue, (∀ i ∈ is, ∀ id, i ≠ .unreachable id) →
      is.filter (·.rule == "D5") = [] := by
    refine fun is his => List.filter_eq_nil_iff.2 fun i hi hrule => ?_
    obtain ⟨id, hid⟩ := rule_eq_iff.1 (beq_iff_eq.1 hrule)
    exact his i hi id hid
  have hstart : d.startEvents.isEmpty = false := by simpa using h
  have hends : ∀ i ∈ (if d.endEvents.isEmpty then [Issue.noEndEvent d.id] else []),
      ∀ id, i ≠ .unreachable id := by
    intro i hi id
    split_ifs at hi
    · rw [List.mem_singleton.1 hi]
      nofun
    · cases hi
  have hrepeats : ∀ i ∈ (repeats [] d.elementIds).map Issue.repeatedId,
      ∀ id, i ≠ .unreachable id := by
    intro i hi id
    obtain ⟨x, -, rfl⟩ := List.mem_map.1 hi
    nofun
  have hflows : ∀ i ∈ d.flows.flatMap d.danglingEnds, ∀ id, i ≠ .unreachable id := by
    intro i hi
    obtain ⟨f, -, hf⟩ := List.mem_flatMap.1 hi
    exact ne_unreachable_of_flow hf
  have hgateways : ∀ i ∈ d.gateways.flatMap (fun g => g.issues (d.outgoing g.id)),
      ∀ id, i ≠ .unreachable id := by
    intro i hi
    obtain ⟨g, -, hg⟩ := List.mem_flatMap.1 hi
    exact ne_unreachable_of_gateway hg
  have hall : (d.unreachable.map Issue.unreachable).filter (·.rule == "D5") =
      d.unreachable.map Issue.unreachable := by
    refine List.filter_eq_self.2 fun i hi => ?_
    obtain ⟨x, -, rfl⟩ := List.mem_map.1 hi
    rfl
  rw [issues, hstart]
  simp only [List.filter_append, hnone _ hends, hnone _ hrepeats, hnone _ hflows,
    hnone _ hgateways, Bool.false_eq_true, if_false, List.nil_append,
    List.append_nil, hall]
  rw [unreachable_eq]

end ProcessEngine.Definition

import Mathlib.Tactic.SplitIfs
import ProcessEngine.Error
import ProcessEngine.Proofs.Definition.Elements

/-!
# What the checks guarantee

A definition that the checks accept has a start event, its flows end at elements, and flows leave
all its gateways.  Exclusive gateways may be without a default, but then the checks warn of it.
-/

namespace ProcessEngine.Definition

variable {d : Definition} {x : String} {g : Gateway}

/-! ## Lookups -/

/-- A gateway that is found is one of the gateways of the definition. -/
lemma mem_gateways (h : d.element? x = some (.gateway g)) : g ∈ d.gateways := by
  have hother : ∀ {nodes : List Node} {make : Node → Element}, (∀ n, make n ≠ .gateway g) →
      (nodeIn nodes x).map make ≠ some (.gateway g) := by
    intro nodes make hmake heq
    obtain ⟨n, -, hn⟩ := Option.map_eq_some_iff.1 heq
    exact hmake n hn
  rcases orElse_eq_some h with h | h
  · exact absurd h (hother nofun)
  rcases orElse_eq_some h with h | h
  · exact absurd h (hother nofun)
  rcases orElse_eq_some h with h | h
  · exact absurd h (hother nofun)
  rcases orElse_eq_some h with h | h
  · exact absurd h (hother nofun)
  rcases orElse_eq_some h with h | h
  · obtain ⟨k, hk, hkg⟩ := Option.map_eq_some_iff.1 h
    obtain rfl : k = g := Element.gateway.inj hkg
    exact List.mem_of_find?_eq_some hk
  · exact absurd h (hother nofun)

/-- A start event is found under its id. -/
lemma exists_startEvent {n : Node} (hn : n ∈ d.startEvents) : ∃ e, d.element? n.id = some e := by
  have hfound : (nodeIn d.startEvents n.id).isSome := by
    rw [nodeIn, List.find?_isSome]
    exact ⟨n, hn, beq_self_eq_true n.id⟩
  obtain ⟨k, hk⟩ := Option.isSome_iff_exists.1 hfound
  exact ⟨.startEvent k, by rw [element?, hk]; rfl⟩

/-! ## Accepted definitions -/

section Valid

variable (h : d.ensureValid = .ok ())
include h

/-- All that the checks find in an accepted definition are warnings. -/
lemma warning_of_valid {i : Issue} (hi : i ∈ d.issues) : i.severity = .warning := by
  rw [ensureValid] at h
  split_ifs at h with hvalid
  rw [isValid, List.isEmpty_iff, faults, List.filter_eq_nil_iff] at hvalid
  have hno := hvalid i hi
  cases hseverity : i.severity with
  | error => simp [hseverity] at hno
  | warning => rfl

lemma startEvents_of_valid : d.startEvents ≠ [] := by
  intro hnone
  have hissue : Issue.noStartEvent d.id ∈ d.issues := by simp [issues, hnone]
  exact absurd (warning_of_valid h hissue) (by simp [Issue.severity])

/-- A flow of an accepted definition leads to an element. -/
lemma target_of_valid {f : Flow} (hf : f ∈ d.flows) : ∃ e, d.element? f.target = some e := by
  cases htarget : d.element? f.target with
  | some e => exact ⟨e, rfl⟩
  | none =>
    have hdangling : Issue.unknownElement f.id .target f.target ∈ d.danglingEnds f := by
      simp [danglingEnds, htarget]
    have hissue : Issue.unknownElement f.id .target f.target ∈ d.issues := by
      simp only [issues, List.mem_append, List.mem_flatMap]
      exact .inl (.inl (.inr ⟨f, hf, hdangling⟩))
    exact absurd (warning_of_valid h hissue) (by simp [Issue.severity])

/-- Flows leave every gateway of an accepted definition. -/
lemma outgoing_of_valid (hg : g ∈ d.gateways) : d.outgoing g.id ≠ [] := by
  intro hnone
  have hgateway : Issue.noOutgoingFlow g.id ∈ g.issues (d.outgoing g.id) := by
    simp [Gateway.issues, hnone]
  have hissue : Issue.noOutgoingFlow g.id ∈ d.issues :=
    List.mem_append_right _ (List.mem_flatMap.2 ⟨g, hg, hgateway⟩)
  exact absurd (warning_of_valid h hissue) (by simp [Issue.severity])

/-- The checks warn of an exclusive gateway without a default. -/
lemma noDefault_of_valid (hg : g ∈ d.gateways) (hkind : g.kind = .exclusive)
    (hdefault : g.defaultAmong (d.outgoing g.id) = none) : Issue.noDefault g.id ∈ d.issues := by
  have hsome : ¬(d.outgoing g.id).isEmpty = true := by
    simpa using outgoing_of_valid h hg
  have hgateway : Issue.noDefault g.id ∈ g.issues (d.outgoing g.id) := by
    rw [Gateway.issues, if_neg hsome, hkind, hdefault]
    simp
  exact List.mem_append_right _ (List.mem_flatMap.2 ⟨g, hg, hgateway⟩)

end Valid

end ProcessEngine.Definition

import Mathlib.Data.List.Basic
import Mathlib.Logic.Relation
import ProcessEngine.Closure

/-!
# What the closure contains

The closure of a list of nodes holds exactly the nodes that paths of edges lead to from one of them
(`mem_closure`).  Each round that goes on reaches the target of an edge that was not reached before,
so that as many rounds as there are edges leave no frontier (`frontier_spread`).
-/

namespace ProcessEngine

open Relation (ReflTransGen)

namespace Closure

variable {edges : List (String × String)} {reached : List String} {n : Nat} {x y : String}

lemma mem_frontier :
    y ∈ frontier edges reached ↔ y ∉ reached ∧ ∃ x ∈ reached, (x, y) ∈ edges := by
  rw [frontier, List.mem_map]
  constructor
  · rintro ⟨⟨x, z⟩, he, rfl⟩
    obtain ⟨hedge, hleaves⟩ := List.mem_filter.1 he
    simp only [Bool.and_eq_true, Bool.not_eq_true', List.contains_eq_mem, decide_eq_true_eq,
      decide_eq_false_iff_not] at hleaves
    exact ⟨hleaves.2, x, hleaves.1, hedge⟩
  · rintro ⟨hy, x, hx, hedge⟩
    exact ⟨(x, y), List.mem_filter.2 ⟨hedge, by simp [hx, hy]⟩, rfl⟩

/-- How many edges have a target that is not reached. -/
def remaining (edges : List (String × String)) (reached : List String) : Nat :=
  edges.countP fun e => !reached.contains e.2

/-- A round that goes on leaves fewer such edges. -/
lemma remaining_lt (hy : y ∈ frontier edges reached) :
    remaining edges (reached ++ frontier edges reached) < remaining edges reached := by
  obtain ⟨hnew, x, -, hedge⟩ := mem_frontier.1 hy
  obtain ⟨before, after, hsplit⟩ := List.append_of_mem hedge
  have hle : ∀ es : List (String × String),
      es.countP (fun e => !(reached ++ frontier edges reached).contains e.2) ≤
        es.countP fun e => !reached.contains e.2 := by
    refine fun es => List.countP_mono_left fun e _ hleft => ?_
    simp only [Bool.not_eq_true', List.contains_eq_mem, decide_eq_false_iff_not,
      List.mem_append, not_or] at hleft ⊢
    exact hleft.1
  have hbefore := hle before
  have hafter := hle after
  have hold : (!reached.contains y) = true := by simpa using hnew
  have hgone : (!(reached ++ frontier edges reached).contains y) = false := by simp [hy]
  generalize frontier edges reached = fresh at hbefore hafter hgone ⊢
  rw [remaining, remaining, hsplit, List.countP_append, List.countP_append, List.countP_cons,
    List.countP_cons, hold, hgone]
  simp only [Bool.false_eq_true, if_false, if_true]
  omega

/-- Enough rounds leave no frontier. -/
lemma frontier_spread (hn : remaining edges reached ≤ n) :
    frontier edges (spread edges n reached) = [] := by
  induction n generalizing reached with
  | zero =>
    rw [spread, List.eq_nil_iff_forall_not_mem]
    intro y hy
    have hlt := remaining_lt hy
    omega
  | succ n ih =>
    rw [spread]
    split
    · next hnone => exact hnone
    · next hfresh =>
      obtain ⟨y, hy⟩ := List.exists_mem_of_ne_nil _ hfresh
      have hlt := remaining_lt hy
      exact ih (by omega)

/-- Nothing that is reached is given up. -/
lemma subset_spread (edges : List (String × String)) (n : Nat) (reached : List String) :
    reached ⊆ spread edges n reached := by
  induction n generalizing reached with
  | zero => exact List.Subset.refl _
  | succ n ih =>
    rw [spread]
    split
    · exact List.Subset.refl _
    · exact List.Subset.trans (List.subset_append_left _ _) (ih _)

/-- Everything is reached along edges. -/
lemma exists_of_mem_spread (hy : y ∈ spread edges n reached) :
    ∃ x ∈ reached, ReflTransGen (fun a b => (a, b) ∈ edges) x y := by
  induction n generalizing reached with
  | zero => exact ⟨y, hy, .refl⟩
  | succ n ih =>
    rw [spread] at hy
    split at hy
    · exact ⟨y, hy, .refl⟩
    · obtain ⟨z, hz, hpath⟩ := ih hy
      rcases List.mem_append.1 hz with hz | hz
      · exact ⟨z, hz, hpath⟩
      · obtain ⟨-, x, hx, hedge⟩ := mem_frontier.1 hz
        exact ⟨x, hx, .head hedge hpath⟩

end Closure

/-- The closure holds exactly what paths of edges lead to from the starting nodes. -/
theorem mem_closure {edges : List (String × String)} {start : List String} {x : String} :
    x ∈ closure edges start ↔
      ∃ s ∈ start, ReflTransGen (fun a b => (a, b) ∈ edges) s x := by
  rw [closure]
  constructor
  · exact Closure.exists_of_mem_spread
  · rintro ⟨s, hs, hpath⟩
    have hdone := Closure.frontier_spread (List.countP_le_length : Closure.remaining edges start ≤ _)
    induction hpath with
    | refl => exact Closure.subset_spread _ _ _ hs
    | tail _ hedge ih =>
      by_contra hnew
      have hfrontier := Closure.mem_frontier.2 ⟨hnew, _, ih, hedge⟩
      rw [hdone] at hfrontier
      cases hfrontier

end ProcessEngine

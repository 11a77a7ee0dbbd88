import ProcessEngine.Proofs.Gateway.Effect

/-!
# Where a gateway lets tokens out

A gateway sends a token only along flows that leave it (`Effect.next_subset`), and a parallel
gateway that has nothing to join sends it along each of them (`next_of_parallel`).  A token is
refused for one of three reasons only: no flow leaves the gateway, or an exclusive or an inclusive
one finds none that it may take (`Refusal`).
-/

namespace ProcessEngine

/-! ## The flows that are chosen -/

namespace Gateway

variable {g : Gateway} {outgoing : List Flow} {vars : Variables} {f : Flow}

lemma defaultAmong_mem (h : g.defaultAmong outgoing = some f) : f ∈ outgoing := by
  rw [defaultAmong] at h
  split at h <;> exact List.mem_of_find?_eq_some h

lemma exclusiveChoice_mem (h : g.exclusiveChoice outgoing vars = some f) : f ∈ outgoing := by
  rw [exclusiveChoice] at h
  cases hfind : (g.exclusiveCandidates outgoing).find? (·.isOpen vars) with
  | some o =>
    rw [hfind] at h
    obtain rfl : o = f := Option.some.inj h
    exact (List.mem_filter.1 (List.mem_of_find?_eq_some hfind)).1
  | none =>
    rw [hfind] at h
    exact defaultAmong_mem h

lemma inclusiveChoice_sublist (g : Gateway) (outgoing : List Flow) (vars : Variables) :
    (g.inclusiveChoice outgoing vars).Sublist outgoing := by
  rw [inclusiveChoice]
  split
  · rw [inclusiveDefault]
    split_ifs
    · cases hdefault : g.defaultAmong outgoing with
      | none => exact List.nil_sublist outgoing
      | some f => exact List.singleton_sublist.2 (defaultAmong_mem hdefault)
    · exact List.nil_sublist outgoing
  · exact List.filter_sublist.trans List.filter_sublist

/-- An exclusive gateway that finds no flow has no default. -/
lemma defaultAmong_of_exclusiveChoice (h : g.exclusiveChoice outgoing vars = none) :
    g.defaultAmong outgoing = none := by
  rw [exclusiveChoice] at h
  cases hfind : (g.exclusiveCandidates outgoing).find? (·.isOpen vars) with
  | some o =>
    rw [hfind] at h
    cases h
  | none => rwa [hfind] at h

end Gateway

/-- Where the token goes on to, once it may. -/
def Course.targets : Course → List String
  | .refuse _ => []
  | .pass d => d.next
  | .split targets | .meet _ targets => targets

lemma Decision.map_elementId_cursors (d : Decision) (frames : List Frame) :
    (d.cursors frames).map Cursor.elementId = d.next := by
  rw [cursors]
  cases d.forkFrame <;> exact List.ext_getElem (by simp) fun i h₁ h₂ => by simp

namespace Request

variable {r : Request} {p : String} {issued issued' : Nat} {states states' : List GatewayState}
  {d : Decision}

lemma targets_courseTo (targets : List String) : (courseTo targets).targets = targets := by
  rw [courseTo]
  split_ifs <;> rfl

/-- The targets of a token are those of some of the flows that leave the gateway, each once. -/
lemma course_targets (r : Request) : r.course.targets.Sublist (r.outgoing.map Flow.target) := by
  have hone : ∀ f ∈ r.outgoing, [f.target].Sublist (r.outgoing.map Flow.target) :=
    fun f hf => List.singleton_sublist.2 (List.mem_map_of_mem hf)
  rw [course]
  cases hkind : r.gateway.kind with
  | exclusive =>
    simp only
    cases hchoice : r.gateway.exclusiveChoice r.outgoing r.vars with
    | none => exact List.nil_sublist _
    | some f => exact hone f (Gateway.exclusiveChoice_mem hchoice)
  | parallel =>
    simp only
    split_ifs
    · exact List.nil_sublist _
    · split
      · split_ifs
        · exact List.Sublist.refl _
        · rw [targets_courseTo]
      · rw [targets_courseTo]
  | inclusive =>
    by_cases hforks : r.forksInclusively = true
    · simp only [if_pos hforks]
      split_ifs
      · exact List.nil_sublist _
      · exact (r.gateway.inclusiveChoice_sublist r.outgoing r.vars).map Flow.target
    · simp only [if_neg hforks]
      cases hhead : r.outgoing.head? with
      | none => exact List.nil_sublist _
      | some f =>
        have hf := hone f (List.mem_of_head? hhead)
        simp only
        split_ifs <;> exact hf
  | eventBased =>
    simp only
    split_ifs
    · exact List.nil_sublist _
    · exact List.Sublist.refl _

/-- A token that need not wait goes on to the targets of its course. -/
lemma Effect.next_of_goOn (heff : r.Effect p issued states d issued' states')
    (hgo : d.needsWait = false) : d.next = r.course.targets := by
  cases heff with
  | pass hcourse => rw [hcourse]; rfl
  | split _ hcourse => rw [hcourse]; rfl
  | wait => cases hgo
  | release _ hcourse => rw [hcourse]; rfl
  | releaseSplit _ _ hcourse => rw [hcourse]; rfl

/-- A token is sent, or offered, only to targets of flows that leave the gateway. -/
lemma Effect.next_subset (heff : r.Effect p issued states d issued' states') :
    ∀ x ∈ d.next, x ∈ r.outgoing.map Flow.target := by
  intro x hx
  have htargets : x ∈ r.course.targets → x ∈ r.outgoing.map Flow.target :=
    fun h => r.course_targets.mem h
  cases heff with
  | pass hcourse => exact htargets (by rw [hcourse]; exact hx)
  | split _ hcourse => exact htargets (by rw [hcourse]; exact hx)
  | wait => cases hx
  | release _ hcourse => exact htargets (by rw [hcourse]; exact hx)
  | releaseSplit _ _ hcourse => exact htargets (by rw [hcourse]; exact hx)

/-- A parallel gateway with at most one incoming flow sends the token along every flow. -/
lemma Effect.next_of_parallel (heff : r.Effect p issued states d issued' states')
    (hkind : r.gateway.kind = .parallel) (hfew : r.incoming.any (1 < ·) = false) :
    d.needsWait = false ∧ d.next = r.outgoing.map Flow.target := by
  have hcourse : (∃ e, r.course = .refuse e) ∨
      r.course = courseTo (r.outgoing.map Flow.target) := by
    rw [course, hkind]
    by_cases hnone : r.outgoing.isEmpty = true
    · exact .inl ⟨_, if_pos hnone⟩
    · refine .inr ((if_neg hnone).trans ?_)
      cases hn : r.incoming with
      | none => rfl
      | some n =>
        rw [hn] at hfew
        exact if_neg (by simpa using hfew)
  rcases hcourse with ⟨e, hrefuse⟩ | hcourse
  · exact absurd hrefuse (heff.not_refused e)
  · have hgo : d.needsWait = false := by
      cases heff with
      | pass hpass => rw [courseTo_pass (hcourse.symm.trans hpass)]; rfl
      | split => rfl
      | wait _ hmeet => exact absurd (hcourse.symm.trans hmeet) courseTo_meet
      | release => rfl
      | releaseSplit => rfl
    exact ⟨hgo, by rw [heff.next_of_goOn hgo, hcourse, targets_courseTo]⟩

/-! ## Refusals -/

/-- Why a gateway refuses a token. -/
inductive Refusal (r : Request) : EngineError → Prop
  | deadEnd (h : r.outgoing = []) : Refusal r (.noOutgoingFlow r.gateway.id)
  | noChoice (hkind : r.gateway.kind = .exclusive)
      (h : r.gateway.exclusiveChoice r.outgoing r.vars = none) :
      Refusal r (.noSatisfiedFlow r.gateway.id)
  | noSelection (hkind : r.gateway.kind = .inclusive)
      (h : r.gateway.inclusiveChoice r.outgoing r.vars = []) :
      Refusal r (.noSatisfiedFlow r.gateway.id)

/-- There are no other refusals. -/
theorem course_refuse {e : EngineError} (h : r.course = .refuse e) : r.Refusal e := by
  rw [course] at h
  cases hkind : r.gateway.kind with
  | exclusive =>
    rw [hkind] at h
    simp only at h
    cases hchoice : r.gateway.exclusiveChoice r.outgoing r.vars with
    | none =>
      rw [hchoice] at h
      cases h
      exact .noChoice hkind hchoice
    | some f =>
      rw [hchoice] at h
      cases h
  | parallel =>
    rw [hkind] at h
    simp only at h
    split_ifs at h with hnone
    · cases h
      exact .deadEnd (by simpa using hnone)
    · have hto : ∀ targets, courseTo targets ≠ .refuse e := by
        intro targets
        rw [courseTo]
        split_ifs <;> simp
      split at h
      · split_ifs at h
        exact absurd h (hto _)
      · exact absurd h (hto _)
  | inclusive =>
    rw [hkind] at h
    by_cases hforks : r.forksInclusively = true
    · simp only [if_pos hforks] at h
      split_ifs at h with hnone
      cases h
      exact .noSelection hkind (by simpa using hnone)
    · simp only [if_neg hforks] at h
      cases hhead : r.outgoing.head? with
      | none =>
        rw [hhead] at h
        cases h
        exact .deadEnd (List.head?_eq_none_iff.1 hhead)
      | some f =>
        rw [hhead] at h
        simp only at h
        split_ifs at h
  | eventBased =>
    rw [hkind] at h
    simp only at h
    split_ifs at h with hnone
    cases h
    exact .deadEnd (by simpa using hnone)

end Request

end ProcessEngine

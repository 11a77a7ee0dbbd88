import ProcessEngine.Proofs.Renaming.Gateway

/-!
# Actions that go on alike

`Workspace.Alike` says that two workspaces look the same through a renaming.  `Outcomes` says of two
actions on such workspaces that they go on alike: both succeed with values that correspond, or both
fail with errors that look the same, and what they leave behind looks the same again.  Actions that
are made of such ones go on alike too (`Outcomes.bind`).
-/

namespace ProcessEngine

/-- Workspaces that look the same: the states of every instance do, and so do the identifiers that
are handed out from now on. -/
structure Workspace.Alike (κ : Renaming) (w w' : Workspace) : Prop where
  states : ∀ q, (w.store.states q).map (GatewayState.seen κ) =
    (w'.store.states (κ.names q)).map (GatewayState.seen .same)
  fresh : ∀ k, κ.uid ⟨w.supply.issued + 1 + k⟩ = ⟨w'.supply.issued + 1 + k⟩

/-- The same evaluations have been published on both sides. -/
def EqualNews (w w' v v' : Workspace) : Prop :=
  ∃ es : List Event, (∀ e ∈ es, e.isEvaluation = true) ∧ v.bus = w.bus.publishAll es ∧
    v'.bus = w'.bus.publishAll es

section Alike

variable {κ : Renaming} {w w' v v' u u' : Workspace}

lemma EqualNews.refl (w w' : Workspace) : EqualNews w w' w w' := ⟨[], by simp, rfl, rfl⟩

lemma EqualNews.trans (h : EqualNews w w' v v') (h' : EqualNews v v' u u') :
    EqualNews w w' u u' := by
  obtain ⟨es, hes, hv, hv'⟩ := h
  obtain ⟨fs, hfs, hu, hu'⟩ := h'
  refine ⟨es ++ fs, fun e he => ?_, ?_, ?_⟩
  · rcases List.mem_append.1 he with he | he
    · exact hes e he
    · exact hfs e he
  · rw [hu, hv, EventBus.publishAll_append]
  · rw [hu', hv', EventBus.publishAll_append]

namespace Workspace.Alike

/-- Both sides have issued as many identifiers more. -/
lemma issue (h : w.Alike κ w') {n : Nat} (hi : v.supply.issued = w.supply.issued + n)
    (hi' : v'.supply.issued = w'.supply.issued + n)
    (hs : ∀ q, (v.store.states q).map (GatewayState.seen κ) =
      (v'.store.states (κ.names q)).map (GatewayState.seen .same)) : v.Alike κ v' where
  states := hs
  fresh k := by
    have hfresh := h.fresh (n + k)
    rwa [hi, hi', show w.supply.issued + n + 1 + k = w.supply.issued + 1 + (n + k) by omega,
      show w'.supply.issued + n + 1 + k = w'.supply.issued + 1 + (n + k) by omega]

/-- Only the supply has changed. -/
lemma supply (h : w.Alike κ w') {n : Nat} {s s' : Supply}
    (hi : s.issued = w.supply.issued + n) (hi' : s'.issued = w'.supply.issued + n) :
    Workspace.Alike κ { w with supply := s } { w' with supply := s' } :=
  h.issue hi hi' h.states

end Workspace.Alike

end Alike

/-- The outcomes of two actions that go on alike. -/
inductive Outcomes (κ : Renaming) {α : Type} (R : α → α → Prop) (w w' : Workspace) :
    EStateM.Result EngineError Workspace α → EStateM.Result EngineError Workspace α → Prop
  | ok {a a' : α} {v v' : Workspace} (hvalue : R a a') (hw : v.Alike κ v')
      (hnews : EqualNews w w' v v') : Outcomes κ R w w' (.ok a v) (.ok a' v')
  | error {e e' : EngineError} {v v' : Workspace} (herror : e.seen κ = e'.seen .same)
      (hw : v.Alike κ v') (hnews : EqualNews w w' v v') :
      Outcomes κ R w w' (.error e v) (.error e' v')

namespace Outcomes

variable {κ : Renaming} {α β : Type} {R : α → α → Prop} {S : β → β → Prop} {w w' : Workspace}

/-- Only identifiers were issued and clocks were read. -/
lemma of_supply (h : w.Alike κ w') {a a' : α} (ha : R a a') {n : Nat} {s s' : Supply}
    (hi : s.issued = w.supply.issued + n) (hi' : s'.issued = w'.supply.issued + n) :
    Outcomes κ R w w' (.ok a { w with supply := s }) (.ok a' { w' with supply := s' }) :=
  .ok ha (h.supply hi hi') ⟨[], by simp, rfl, rfl⟩

lemma pure (h : w.Alike κ w') {a a' : α} (ha : R a a') : Outcomes κ R w w' (.ok a w) (.ok a' w') :=
  .ok ha h (.refl w w')

lemma throw (h : w.Alike κ w') {e e' : EngineError} (he : e.seen κ = e'.seen .same) :
    Outcomes κ R w w' (.error e w) (.error e' w') :=
  .error he h (.refl w w')

/-- News from before. -/
lemma after {v v' : Workspace} {x x' : EStateM.Result EngineError Workspace α}
    (h : Outcomes κ R v v' x x') (hnews : EqualNews w w' v v') : Outcomes κ R w w' x x' := by
  cases h with
  | ok hvalue hw hnews' => exact .ok hvalue hw (hnews.trans hnews')
  | error herror hw hnews' => exact .error herror hw (hnews.trans hnews')

/-- Sequences go on alike if their parts do, one after the other. -/
lemma bind {a a' : Action α} {f f' : α → Action β} (h : Outcomes κ R w w' (a w) (a' w'))
    (hf : ∀ x x' v v', a w = .ok x v → a' w' = .ok x' v' → R x x' → v.Alike κ v' →
      Outcomes κ S v v' (f x v) (f' x' v')) :
    Outcomes κ S w w' ((a >>= f) w) ((a' >>= f') w') := by
  generalize ha : a w = x at h
  generalize ha' : a' w' = x' at h
  cases h with
  | ok hvalue hw hnews =>
    rw [Action.bind_of_ok ha, Action.bind_of_ok ha']
    exact (hf _ _ _ _ ha ha' hvalue hw).after hnews
  | error herror hw hnews =>
    rw [Action.bind_of_error ha, Action.bind_of_error ha']
    exact .error herror hw hnews

end Outcomes

/-! ## Activations -/

namespace Request

variable {κ : Renaming} {r r' : Request} {p : String} {w w' : Workspace}

/-- Why a gateway refuses a token names no instance. -/
lemma seen_refused {e : EngineError} (h : r.course = .refuse e) (κ : Renaming) : e.seen κ = e := by
  have hto : ∀ targets, courseTo targets ≠ .refuse e := by
    intro targets
    rw [courseTo]
    split_ifs <;> simp
  rw [course] at h
  split at h
  · split at h
    · cases h
    · cases h
      rfl
  · split_ifs at h
    · cases h
      rfl
    · split at h
      · split_ifs at h
        exact absurd h (hto _)
      · exact absurd h (hto _)
  · split at h
    · simp only at h
      split_ifs at h
      cases h
      rfl
    · split at h
      · cases h
        rfl
      · split at h <;> cases h
  · split_ifs at h
    cases h
    rfl

/-- Requests that look the same have the same course and report the same. -/
lemma course_of_seen (h : r.seen κ = r'.seen .same) :
    r.course = r'.course ∧ r.guardEvents = r'.guardEvents := by
  have hcourse := congrArg course h
  rw [course_seen, course_seen] at hcourse
  have hevents : (r.seen κ).guardEvents = (r'.seen .same).guardEvents := by rw [h]
  exact ⟨hcourse, hevents⟩

/-- Activations that look the same go on alike. -/
theorem activate_concurs (hw : w.Sound) (hw' : w'.Sound) (halike : w.Alike κ w')
    (hp : r.instanceId = some p) (hseen : r.seen κ = r'.seen .same)
    (hf : ∀ f ∈ r.frames, f.Sound (w.store.states p))
    (hf' : ∀ f ∈ r'.frames, f.Sound (w'.store.states (κ.names p))) :
    Outcomes κ (fun d d' => d.seen κ = d'.seen .same) w w' (r.activate w) (r'.activate w') := by
  have hp' : r'.instanceId = some (κ.names p) := by
    have hsome := congrArg Request.instanceId hseen
    simp only [seen, hp, Renaming.same, Option.map_some] at hsome
    simpa using hsome.symm
  obtain ⟨hcourse, hevents⟩ := course_of_seen hseen
  rcases activate_spec hw hp hf with ⟨e, hrefuse, hact⟩ | ⟨d, v, hact, heff, hconf⟩
  · rcases activate_spec hw' hp' hf' with ⟨e', hrefuse', hact'⟩ | ⟨d', v', -, heff', -⟩
    · rw [hact, hact']
      have he : e = e' := Course.refuse.inj (hrefuse.symm.trans (hcourse.trans hrefuse'))
      refine .error ?_ (halike.issue (n := 0) rfl rfl halike.states)
        ⟨r.guardEvents, r.guardEvents_evaluations, rfl, by rw [hevents]⟩
      rw [seen_refused hrefuse, seen_refused hrefuse', he]
    · exact absurd (hcourse.symm.trans hrefuse) (heff'.not_refused e)
  · rcases activate_spec hw' hp' hf' with ⟨e', hrefuse', hact'⟩ | ⟨d', v', hact', heff', hconf'⟩
    · exact absurd (hcourse.trans hrefuse') (heff.not_refused e')
    obtain ⟨g₁, g₂, hcomes⟩ := heff.eq_comesTo
    obtain ⟨g₁', g₂', hcomes'⟩ := heff'.eq_comesTo
    have hleft := comesTo_seen κ p w.supply.issued (w.store.states p) (halike.fresh 0)
      (halike.fresh 1) r g₁ g₂
    have hright := comesTo_seen .same (κ.names p) w'.supply.issued (w'.store.states (κ.names p))
      rfl rfl r' g₁' g₂'
    rw [hcomes, hseen, halike.states p] at hleft
    rw [hcomes'] at hright
    have hboth := hleft.symm.trans hright
    simp only [Option.map_some, Option.some.injEq, Prod.mk.injEq] at hboth
    obtain ⟨hd, hissued, hstates⟩ := hboth
    rw [hact, hact']
    have h₁ := hconf.issued
    have h₂ := hconf'.issued
    refine .ok hd (halike.issue (n := v.supply.issued - w.supply.issued) (by omega) (by omega)
      fun q => ?_)
      ⟨r.guardEvents, r.guardEvents_evaluations, hconf.bus, by rw [hconf'.bus, hevents]⟩
    by_cases hq : q = p
    · rw [hq]
      exact hstates
    · rw [hconf.others q hq, hconf'.others (κ.names q) fun heq => hq (κ.names_inj.1 heq)]
      exact halike.states q

end Request

end ProcessEngine

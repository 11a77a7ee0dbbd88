import ProcessEngine.Proofs.Engine.ForkJoin
import ProcessEngine.Proofs.Gateway.Selection

/-!
# Joining selected branches

A token of a reachable engine enters an inclusive fork, its branches are forked again or not, and
the tokens that come of it arrive at one inclusive join.  The join waits for the branches of the
innermost fork around each token, fork by fork (`collected_branches`).  So it waits for the branches
of nested forks only if one fork alone is left to be completed, and completed last; otherwise some
token is released while others are still on their way (`released_before_last`).
-/

namespace ProcessEngine

/-- The tokens that descend from a token with the given frames, joined by forks: none of them fails,
every flow that a fork selected is accounted for, and a token is released just when it completes a
round of its fork.  As long as counts fit in 32 bits, that is when all flows of its fork have come
in.  When all tokens have arrived, the last one is released and the earlier ones wait if and only if
the last one comes from the only fork of which no branch was forked again. -/
theorem collected_branches {d : Definition} {pending : List Cursor} {run : Run} {w : Workspace}
    {root : Request} {frames : List Frame} {gateway : String} (h : Reaches d pending run w)
    (hframes : (∃ t ∈ run.current.tokens, t.frames = frames) ∨ ∃ c ∈ pending, c.frames = frames)
    (hroot : root.Selects run.current.id frames) :
    ∃ first w₀ fork, root.activate w = .ok first w₀ ∧ first.forkFrame = some fork ∧
      ∀ s w', Selection.Steps run.current.id gateway (.ofFork root fork first frames) w₀ s w' →
        (∀ l ∈ s.leaves, ∀ r : Request, r.Selects run.current.id l ∨
          r.Collects run.current.id gateway l → ∃ d' w'', r.activate w' = .ok d' w'') ∧
        (∀ g ∈ s.forks, s.onWay g + g.arrivals s.arrived + s.again g = g.flows) ∧
        (∀ i a, s.arrived[i]? = some a → (∃ g ∈ s.forks, g.isInnermost a.1 = true) ∧
          ∀ g ∈ s.forks, g.isInnermost a.1 = true →
            if g.size ∣ g.arrivals (s.arrived.take (i + 1)) then ∃ kept, a.2.Releases kept
            else a.2.Waits) ∧
        (s.size < 4294967296 →
          (∀ i a, s.arrived[i]? = some a → ∀ g ∈ s.forks, g.isInnermost a.1 = true →
            if g.arrivals (s.arrived.take (i + 1)) = g.flows then ∃ kept, a.2.Releases kept
            else a.2.Waits) ∧
          (s.leaves = [] → ∀ init last, s.arrived = init ++ [last] →
            (s.ReleasedLast ↔ ∀ g ∈ s.forks, s.again g = 0 ↔ g.isInnermost last.1 = true))) := by
  obtain ⟨hsound, hkept⟩ := h.kept
  have hcarried : ∀ g ∈ frames, g.Carried (w.store.states run.current.id) := by
    rcases hframes with ⟨t, ht, rfl⟩ | ⟨c, hc, rfl⟩
    · exact hkept.kept.frames t ht
    · exact hkept.pending c hc
  obtain ⟨first, w₀, fork, hact, hfork, -⟩ := hroot.spec hsound hcarried
  refine ⟨first, w₀, fork, hact, hfork, ?_⟩
  intro s w' hsteps
  obtain ⟨hinv, hrooted⟩ := Selection.inv_of_steps hroot hsound hcarried hact hfork hsteps
  refine ⟨?_, hinv.accounted, ?_, ?_⟩
  · intro l hl r hr
    exact hinv.progress hrooted hl hr
  · intro i a ha
    exact ⟨hinv.descended a (List.mem_of_getElem? ha), hinv.decided i a ha⟩
  · intro hsize
    constructor
    · intro i a ha g hg hinner
      exact hinv.decided_flows hsize ha hg hinner
    · intro hleaves init last harrived
      exact hinv.releasedLast_iff hsize hleaves harrived

namespace Engine

/-! ## Nested selections -/

/-- An inclusive gateway that takes two ways out, reached by one flow. -/
def selecting (id : String) (frames : List Frame) : Request :=
  { gateway := .unnamed "i" .inclusive none
    outgoing := [⟨"g1", "i", "a", none⟩, ⟨"g2", "i", "b", none⟩]
    vars := []
    incoming := some 1
    instanceId := some id
    executionId := none
    frames }

/-- An inclusive join of three flows. -/
def collecting (id : String) (frames : List Frame) : Request :=
  { gateway := .unnamed "j" .inclusive none
    outgoing := [⟨"g3", "j", "end", none⟩]
    vars := []
    incoming := some 3
    instanceId := some id
    executionId := none
    frames }

lemma selects_selecting (id : String) (frames : List Frame) :
    (selecting id frames).Selects id frames :=
  ⟨rfl, rfl, rfl, List.cons_ne_nil _ _, rfl⟩

lemma collects_collecting (id : String) (frames : List Frame) :
    (collecting id frames).Collects id "j" frames :=
  ⟨rfl, rfl, rfl, rfl, rfl, List.cons_ne_nil _ _, rfl⟩

/-- An instance with a token in a branch of an inclusive fork. -/
def withinSole : Engine := (small.call (.start soleBranch "key" none)).2

lemma reachable_withinSole : withinSole.Reachable := reachable_small.call _

lemma withinSole_registered : (withinSole.registered? firstId).any (fun r =>
    !r.current.isEnded && r.current.tokens.any (fun t => !t.frames.isEmpty) &&
      (withinSole.workspace.store.states r.current.id).all (·.kind == .fork)) = true := by
  decide +kernel

lemma exists_withinSole : ∃ (d : Definition) (run : Run) (w : Workspace) (frames : List Frame),
    Reaches d [] run w ∧ (∃ t ∈ run.current.tokens, t.frames = frames) ∧ frames ≠ [] ∧
      ∀ gateway key,
        activeJoins run.current.id gateway key (w.store.states run.current.id) = [] := by
  obtain ⟨r, hr, hbody⟩ := (Option.any_eq_true _ _).1 withinSole_registered
  simp only [Bool.and_eq_true, Bool.not_eq_true', List.any_eq_true, List.all_eq_true,
    beq_iff_eq] at hbody
  obtain ⟨⟨hlive, t, ht, hframes⟩, hforks⟩ := hbody
  refine ⟨r.definition, .on r.current, withinSole.workspace, t.frames,
    .idle reachable_withinSole hr hlive, ⟨t, ht, rfl⟩, by simpa using hframes,
    fun gateway key => List.filter_eq_nil_iff.2 fun j hj => ?_⟩
  simp [Store.isJoinOf, hforks j hj]

/-- A token with a frame, split along two selected flows. -/
theorem collected_branches_sole :
    ∃ (w : Workspace) (run : Run) (frames : List Frame),
      (∃ t ∈ run.current.tokens, t.frames = frames) ∧ frames ≠ [] ∧
      ∃ first w₀ fork, (selecting run.current.id frames).activate w = .ok first w₀ ∧
        first.forkFrame = some fork ∧ ∀ s w', Selection.Steps run.current.id "j"
          (.ofFork (selecting run.current.id frames) fork first frames) w₀ s w' →
          (∀ l ∈ s.leaves, ∀ r : Request, r.Selects run.current.id l ∨
            r.Collects run.current.id "j" l → ∃ d' w'', r.activate w' = .ok d' w'') ∧
          (∀ g ∈ s.forks, s.onWay g + g.arrivals s.arrived + s.again g = g.flows) ∧
          (∀ i a, s.arrived[i]? = some a → (∃ g ∈ s.forks, g.isInnermost a.1 = true) ∧
            ∀ g ∈ s.forks, g.isInnermost a.1 = true →
              if g.size ∣ g.arrivals (s.arrived.take (i + 1)) then ∃ kept, a.2.Releases kept
              else a.2.Waits) ∧
          (s.size < 4294967296 →
            (∀ i a, s.arrived[i]? = some a → ∀ g ∈ s.forks, g.isInnermost a.1 = true →
              if g.arrivals (s.arrived.take (i + 1)) = g.flows then ∃ kept, a.2.Releases kept
              else a.2.Waits) ∧
            (s.leaves = [] → ∀ init last, s.arrived = init ++ [last] →
              (s.ReleasedLast ↔ ∀ g ∈ s.forks, s.again g = 0 ↔ g.isInnermost last.1 = true))) := by
  obtain ⟨d, run, w, frames, hreaches, htoken, hsome, -⟩ := exists_withinSole
  exact ⟨w, run, frames, htoken, hsome,
    collected_branches hreaches (.inl htoken) (selects_selecting _ _)⟩

section Nested

open Selection

variable {p : String} {w : Workspace} {before after : List (List Frame)} {l frames : List Frame}
  {arrived : List (List Frame × Decision)} {forks : List Selected}

lemma exists_split (h : Inv p "j" ⟨before ++ l :: after, arrived, forks⟩ w) :
    ∃ (fork : Frame) (w' : Workspace), Step p "j" ⟨before ++ l :: after, arrived, forks⟩ w
      ⟨before ++ [l ++ [fork.forBranch 0], l ++ [fork.forBranch 1]] ++ after, arrived,
        forks ++ [⟨fork.forkId, Frame.innermost l, 2⟩]⟩ w' := by
  have hr := selects_selecting p l
  obtain ⟨d, w', fork, hact, hfork, -, -, -, -, -, -, hstacks, -⟩ :=
    hr.spec h.sound (h.carried l (by simp))
  have hstep := @Step.fork p "j" _ d fork w w' before after l arrived forks hr hact hfork
  rw [hstacks] at hstep
  exact ⟨fork, w', hstep⟩

lemma exists_arrive (h : Inv p "j" ⟨before ++ l :: after, arrived, forks⟩ w)
    (hrooted : Rooted ⟨before ++ l :: after, arrived, forks⟩) :
    ∃ d w', Step p "j" ⟨before ++ l :: after, arrived, forks⟩ w
      ⟨before ++ after, arrived ++ [(l, d)], forks⟩ w' := by
  have hr := collects_collecting p l
  obtain ⟨d, w', hact⟩ := h.progress hrooted (by simp) (.inr hr)
  exact ⟨d, w', .arrive hr hact⟩

/-- A token is split in two, and one of the branches is split in two again.  If the branches of the
inner fork arrive first, the last token is not the one that is released. -/
lemma exists_nested (hw : w.Sound) (hf : ∀ f ∈ frames, f.Carried (w.store.states p)) :
    ∃ first w₀ fork s w', (selecting p frames).activate w = .ok first w₀ ∧
      first.forkFrame = some fork ∧
      Steps p "j" (.ofFork (selecting p frames) fork first frames) w₀ s w' ∧
      s.leaves = [] ∧ ¬s.ReleasedLast := by
  have hroot := selects_selecting p frames
  obtain ⟨first, w₀, outer, hact, hfork, -, -, -, -, -, -, hstacks, -⟩ := hroot.spec hw hf
  have hfirst : ofFork (selecting p frames) outer first frames =
      ⟨[frames ++ [outer.forBranch 0], frames ++ [outer.forBranch 1]], [],
        [⟨outer.forkId, Frame.innermost frames, 2⟩]⟩ := by
    rw [ofFork, hstacks]
    rfl
  obtain ⟨h₀, hrooted₀⟩ := @inv_of_steps p "j" _ w w₀ outer frames _ first hroot hw hf w₀ hact hfork
    .refl
  rw [hfirst] at h₀ hrooted₀
  -- The branch 1 is forked again, its branches arrive, and the branch 0 comes last.
  obtain ⟨inner, w₁, hstep₁⟩ := @exists_split p w₀ [_] [] (frames ++ [outer.forBranch 1]) _ _ h₀
  obtain ⟨h₁, hrooted₁⟩ := h₀.step hrooted₀ hstep₁
  obtain ⟨d₂, w₂, hstep₂⟩ := @exists_arrive p w₁ [_] [_] _ _ _ h₁ hrooted₁
  obtain ⟨h₂, hrooted₂⟩ := h₁.step hrooted₁ hstep₂
  obtain ⟨d₃, w₃, hstep₃⟩ := @exists_arrive p w₂ [_] [] _ _ _ h₂ hrooted₂
  obtain ⟨h₃, hrooted₃⟩ := h₂.step hrooted₂ hstep₃
  obtain ⟨d₄, w₄, hstep₄⟩ := @exists_arrive p w₃ [] [] _ _ _ h₃ hrooted₃
  obtain ⟨h₄, hrooted₄⟩ := h₃.step hrooted₃ hstep₄
  have hsteps := Steps.step (.step (.step (.step .refl hstep₁) hstep₂) hstep₃) hstep₄
  refine ⟨first, w₀, outer, _, w₄, hact, hfork, hfirst ▸ hsteps, rfl, ?_⟩
  -- The last token comes from the outer fork, of which a branch was forked again.
  rw [h₄.releasedLast_iff (by simp [size]) rfl rfl]
  intro honly
  have hinner : Selected.isInnermost ⟨outer.forkId, Frame.innermost frames, 2⟩
      (frames ++ [outer.forBranch 0]) = true :=
    Selected.isInnermost_iff.2 (Frame.innermost_concat ..)
  have houter := (honly _ List.mem_cons_self).2 hinner
  simp [again, Frame.forBranch] at houter

end Nested

/-- The last token to arrive at an inclusive join need not be the one that is released. -/
theorem released_before_last :
    ¬∀ (d : Definition) (pending : List Cursor) (run : Run) (w : Workspace) (root : Request)
      (frames : List Frame) (gateway : String) (first : Decision) (w₀ : Workspace) (fork : Frame)
      (s : Selection) (w' : Workspace), Reaches d pending run w →
      ((∃ t ∈ run.current.tokens, t.frames = frames) ∨ ∃ c ∈ pending, c.frames = frames) →
      root.Selects run.current.id frames → root.activate w = .ok first w₀ →
      first.forkFrame = some fork →
      (∀ key, activeJoins run.current.id gateway key (w.store.states run.current.id) = []) →
      Selection.Steps run.current.id gateway (.ofFork root fork first frames) w₀ s w' →
      s.leaves = [] → s.ReleasedLast := by
  intro hclaim
  obtain ⟨d, run, w, frames, hreaches, htoken, -, hfree⟩ := exists_withinSole
  obtain ⟨hsound, hkept⟩ := hreaches.kept
  have hcarried : ∀ g ∈ frames, g.Carried (w.store.states run.current.id) := by
    obtain ⟨t, ht, rfl⟩ := htoken
    exact hkept.kept.frames t ht
  obtain ⟨first, w₀, fork, s, w', hact, hfork, hsteps, hleaves, hnot⟩ :=
    exists_nested hsound hcarried
  exact hnot (hclaim d [] run w _ frames "j" first w₀ fork s w' hreaches (.inl htoken)
    (selects_selecting _ _) hact hfork (hfree "j") hsteps hleaves)

end Engine

end ProcessEngine

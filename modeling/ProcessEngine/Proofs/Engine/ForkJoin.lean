import ProcessEngine.Proofs.Engine.CarriedForks
import ProcessEngine.Proofs.Gateway.Family

/-!
# Fork and join are inverse

A token of a reachable engine enters a parallel fork, its branches are forked again or not, and all
the tokens that come of it arrive at one parallel join.  Then the last one goes on with the frames
that the token had before (`joined_frames`), but for those that are closed, which a join does not
hand on.  Such a frame is that of a fork with a single branch: an inclusive gateway makes one when
it takes one of its flows.
-/

namespace ProcessEngine

/-- The tokens that descend from a token with the given frames, joined again: none of them fails,
all but the last one wait, and the last one is released with the frames but for those that are
closed.  So it has exactly the frames if and only if none of them is closed. -/
theorem joined_frames {d : Definition} {pending : List Cursor} {run : Run} {w : Workspace}
    {root : Request} {frames : List Frame} {gateway : String} {n : Nat}
    (h : Reaches d pending run w)
    (hframes : (∃ t ∈ run.current.tokens, t.frames = frames) ∨ ∃ c ∈ pending, c.frames = frames)
    (hroot : root.Forks run.current.id frames) (hn : 2 ≤ n) (hlt : n < 4294967296) :
    ∃ first w₀, root.activate w = .ok first w₀ ∧
      ∀ f w', Family.Steps run.current.id gateway n (.ofFork first frames) w₀ f w' → f.size ≤ n →
        (∀ l ∈ f.leaves, ∀ r : Request, r.Forks run.current.id l ∨
          r.Arrives run.current.id gateway n l → ∃ d' w'', r.activate w' = .ok d' w'') ∧
        (∀ i d', f.arrived[i]? = some d' → i + 1 < n → d'.Waits) ∧
        ∀ i d', f.arrived[i]? = some d' → i + 1 = n →
          d'.Releases (frames.filter (!·.isClosed)) ∧
            (d'.Releases frames ↔ ∀ g ∈ frames, g.isClosed = false) := by
  obtain ⟨hsound, hkept⟩ := h.kept
  have hcarried : ∀ g ∈ frames, g.Carried (w.store.states run.current.id) := by
    rcases hframes with ⟨t, ht, rfl⟩ | ⟨c, hc, rfl⟩
    · exact hkept.kept.frames t ht
    · exact hkept.pending c hc
  obtain ⟨first, w₀, hact, hfamily⟩ :=
    @Family.forked_joined _ gateway n w root frames hroot hsound hcarried hn hlt
  refine ⟨first, w₀, hact, fun f w' hsteps hsize => ?_⟩
  obtain ⟨hprogress, hwaits, hreleases⟩ := hfamily f w' hsteps hsize
  refine ⟨hprogress, hwaits, fun i d' hd' hi => ⟨hreleases i d' hd' hi, fun hexact g hg => ?_,
    fun hopen => ?_⟩⟩
  · have hsame : frames.filter (!·.isClosed) = frames :=
      Option.some.inj ((hreleases i d' hd' hi).continueFrames.symm.trans hexact.continueFrames)
    rw [← hsame] at hg
    simpa using (List.mem_filter.1 hg).2
  · have hsame : frames.filter (!·.isClosed) = frames :=
      List.filter_eq_self.2 fun g hg => by rw [hopen g hg]; rfl
    exact hsame ▸ hreleases i d' hd' hi

namespace Engine

/-! ## A fork with a single branch -/

/-- An inclusive gateway that takes one of two flows. -/
def soleBranch : Definition :=
  { Definition.empty "sole" with
    startEvents := [.unnamed "start"]
    endEvents := [.unnamed "end"]
    userTasks := [.unnamed "t"]
    gateways := [.unnamed "i" .inclusive (some "otherwise")]
    flows := [⟨"f1", "start", "i", none⟩, ⟨"taken", "i", "t", none⟩,
      ⟨"otherwise", "i", "end", none⟩, ⟨"f2", "t", "end", none⟩] }

/-- Whether some parked token of a live instance has a closed frame. -/
def carriesSole (e : Engine) (id : String) : Bool :=
  (e.registered? id).any fun r => !r.current.isEnded && r.current.tokens.any fun t =>
    t.frames.any (·.isClosed)

lemma exists_carriesSole : ∃ e : Engine, e.Reachable ∧ e.carriesSole firstId = true :=
  ⟨(small.call (.start soleBranch "key" none)).2, reachable_small.call _, by decide +kernel⟩

/-- A parallel gateway with two ways out, reached by one flow. -/
def splitting (id : String) (frames : List Frame) : Request :=
  { gateway := .unnamed "p" .parallel none
    outgoing := [⟨"g1", "p", "k", none⟩, ⟨"g2", "p", "k", none⟩]
    vars := []
    incoming := some 1
    instanceId := some id
    executionId := none
    frames }

/-- A token with a closed frame, forked in two and joined again: the frame is not handed on. -/
theorem joined_frames_sole :
    ∃ (w : Workspace) (run : Run) (frames : List Frame),
      (∃ t ∈ run.current.tokens, t.frames = frames) ∧ (∃ g ∈ frames, g.isClosed = true) ∧
      ∃ first w₀, (splitting run.current.id frames).activate w = .ok first w₀ ∧
        ∀ f w', Family.Steps run.current.id "k" 2 (.ofFork first frames) w₀ f w' → f.size ≤ 2 →
          (∀ l ∈ f.leaves, ∀ r : Request, r.Forks run.current.id l ∨
            r.Arrives run.current.id "k" 2 l → ∃ d' w'', r.activate w' = .ok d' w'') ∧
          (∀ i d', f.arrived[i]? = some d' → i + 1 < 2 → d'.Waits) ∧
          ∀ i d', f.arrived[i]? = some d' → i + 1 = 2 →
            d'.Releases (frames.filter (!·.isClosed)) ∧
              (d'.Releases frames ↔ ∀ g ∈ frames, g.isClosed = false) := by
  obtain ⟨e, he, hsole⟩ := exists_carriesSole
  obtain ⟨r, hr, hbody⟩ := (Option.any_eq_true _ _).1 hsole
  obtain ⟨hlive, hany⟩ := (Bool.and_eq_true _ _).mp hbody
  obtain ⟨t, ht, hframes⟩ := List.any_eq_true.1 hany
  obtain ⟨g, hg, hclosed⟩ := List.any_eq_true.1 hframes
  refine ⟨e.workspace, .on r.current, t.frames, ⟨t, ht, rfl⟩, ⟨g, hg, hclosed⟩, ?_⟩
  exact joined_frames (.idle he hr (by simpa using hlive)) (.inl ⟨t, ht, rfl⟩)
    ⟨rfl, rfl, rfl, Nat.le_refl 2, rfl⟩ (Nat.le_refl 2) (by omega)

end Engine

end ProcessEngine

import ProcessEngine.Proofs.Gateway.Outlets

/-!
# Stacks without repetition

A stack of frames is clean if it names no fork twice and its branch indexes are indexes of its
forks.  Forking a token, merging the stacks of tokens that meet and dropping closed frames all keep
stacks clean (`Effect.clean`), as long as the number of branches of a fork is not cut off at 32
bits.
-/

namespace ProcessEngine

namespace Frame

/-- No fork occurs twice, and every branch is one of its fork. -/
structure Clean (l : List Frame) : Prop where
  distinct : (l.map forkId).Nodup
  below : ∀ f ∈ l, ∀ n ∈ f.branches, n < f.branchCount

namespace Clean

variable {as bs l : List Frame}

lemma nil : Clean [] := ⟨List.nodup_nil, nofun⟩

/-- Frames may be dropped. -/
lemma sublist (h : Clean l) {k : List Frame} (hk : k.Sublist l) : Clean k where
  distinct := h.distinct.sublist (hk.map forkId)
  below f hf := h.below f (hk.mem hf)

/-- The frame of a new fork is added. -/
lemma concat (h : Clean l) {new : Frame} {n : Nat} (hnew : ∀ f ∈ l, f.forkId ≠ new.forkId)
    (hn : n < new.branchCount) : Clean (l ++ [new.forBranch n]) where
  distinct := by
    rw [List.map_append, List.nodup_append]
    refine ⟨h.distinct, by simp, ?_⟩
    intro u hu v hv
    obtain ⟨f, hf, rfl⟩ := List.mem_map.1 hu
    obtain rfl : v = new.forkId := by simpa [forBranch] using hv
    exact hnew f hf
  below f hf m hm := by
    rcases List.mem_append.1 hf with hf | hf
    · exact h.below f hf m hm
    · obtain rfl := List.mem_singleton.1 hf
      obtain rfl : m = n := by simpa [forBranch] using hm
      exact hn

/-- Stacks that agree on the sizes of their forks are merged. -/
lemma merge (ha : Clean as) (hb : Clean bs)
    (hsize : ∀ a ∈ as, ∀ b ∈ bs, a.forkId = b.forkId → b.branchCount = a.branchCount) :
    Clean (Frame.merge as bs) where
  distinct := by
    have hshared := forkIds_merge_prefix as bs
    exact ha.distinct.sublist hshared.1.sublist
  below f hf n hn := by
    obtain ⟨a, hamem, b, hbmem, hid, rfl⟩ := mem_merge hf
    have hbranch : n ∈ a.branches ++ b.branches := mem_ascending.1 hn
    rcases List.mem_append.1 hbranch with hn | hn
    · exact ha.below a hamem n hn
    · rw [show (a.absorb b).branchCount = b.branchCount from (hsize a hamem b hbmem hid).symm]
      exact hb.below b hbmem n hn

end Clean

end Frame

/-- Frames that name the same fork agree on its size. -/
lemma SoundStates.branchCount_eq {p : String} {issued : Nat} {states : List GatewayState}
    (h : SoundStates p issued states) {f g : Frame} (hf : f.Sound states) (hg : g.Sound states)
    (hid : f.forkId = g.forkId) : g.branchCount = f.branchCount := by
  obtain ⟨s, hs, -, hsf⟩ := hf.fork
  obtain ⟨t, ht, -, htg⟩ := hg.fork
  have hst : s.id = t.id := by
    rw [show s.id = f.forkId from congrArg Frame.forkId hsf,
      show t.id = g.forkId from congrArg Frame.forkId htg, hid]
  obtain rfl := h.eq_of_id hs ht hst
  have hcounts : f.bare.branchCount = g.bare.branchCount := by rw [← hsf, ← htg]
  exact hcounts.symm

/-- A token that leaves by a fork carries the index of its branch. -/
lemma Decision.mem_cursors_index {d : Decision} {frames : List Frame} {c : Cursor}
    (hc : c ∈ d.cursors frames) :
    c.frames = d.continueFrames.getD frames ∨
      ∃ fork, d.forkFrame = some fork ∧ ∃ i < d.next.length,
        c.frames = d.continueFrames.getD frames ++ [fork.forBranch (word32 i)] := by
  simp only [Decision.cursors, List.mem_mapIdx] at hc
  obtain ⟨i, hi, rfl⟩ := hc
  cases hfork : d.forkFrame with
  | none => exact .inl rfl
  | some fork => exact .inr ⟨fork, rfl, i, hi, rfl⟩

/-- The stacks that have come together at the joins are clean. -/
def CleanJoins (states : List GatewayState) : Prop :=
  ∀ j ∈ states, j.kind = .join → Frame.Clean j.shared

namespace Request

variable {r : Request} {p : String} {issued : Nat} {states : List GatewayState}

lemma cleanJoins_append_fork (h : CleanJoins states) {fork : GatewayState}
    (hk : fork.kind = .fork) : CleanJoins (states ++ [fork]) := by
  intro j hj hjk
  rcases List.mem_append.1 hj with hj | hj
  · exact h j hj hjk
  · rw [List.mem_singleton.1 hj, hk] at hjk
    cases hjk

/-- Tokens meet at a join. -/
lemma cleanJoins_arrivalStates {flows : Option Nat} {id : Uid} {generation : Nat}
    (h : CleanJoins states) (hs : SoundStates p issued states)
    (hf : ∀ f ∈ r.frames, f.Sound states) (hclean : Frame.Clean r.frames)
    (hid : issued < id.value) :
    CleanJoins (r.arrivalStates p flows states id generation) := by
  intro k hk hkk
  rcases (mem_arrivalStates_join hs hf hid hkk).1 hk with rfl | ⟨hk, -⟩
  · rcases r.arrival_cases p flows states id generation with
      ⟨o, ho, hjoin, heq⟩ | ⟨o, rfl, -, heq⟩
    · simp only [Store.isJoinOf, Bool.and_eq_true, beq_iff_eq] at hjoin
      have hok : o.kind = .join := hjoin.1.1.1.1
      obtain ⟨fs, hfs, hsound⟩ := (hs.joins o ho hok).frames
      have hshared : o.shared = fs := by rw [GatewayState.shared, hfs]; rfl
      have hmerged : (o.arrived r.frames).shared = Frame.merge fs r.frames := by
        rw [GatewayState.shared, GatewayState.arrivedFrames_arrived, hfs]
        rfl
      rw [heq, hmerged]
      exact (hshared ▸ h o ho hok).merge hclean fun a ha b hb hab =>
        hs.branchCount_eq (hsound a ha) (hf b hb) hab
    · rw [heq]
      exact hclean
  · exact h k hk hkk

/-- The tokens that leave a new fork have clean stacks. -/
lemma clean_forked {d : Decision} {base : List Frame} {targets : List String} {id : Uid}
    {generation : Nat} (hclean : Frame.Clean base) (hnew : ∀ f ∈ base, f.forkId ≠ id)
    (hfork : d.forkFrame = some (r.newFork p targets id generation).frame)
    (hnext : d.next = targets) {frames : List Frame} (hbase : d.continueFrames.getD frames = base)
    (hsmall : targets.length < 4294967296) : ∀ c ∈ d.cursors frames, Frame.Clean c.frames := by
  intro c hc
  rcases Decision.mem_cursors_index hc with hframes | ⟨fork, hsome, i, hi, hframes⟩
  · rw [hframes, hbase]
    exact hclean
  · obtain rfl := Option.some.inj (hfork.symm.trans hsome)
    rw [hnext] at hi
    rw [hframes, hbase]
    refine hclean.concat hnew ?_
    change word32 i < word32 targets.length
    rw [word32, word32, Nat.mod_eq_of_lt hsmall, Nat.mod_eq_of_lt (hi.trans hsmall)]
    exact hi

/-- An activation keeps the stacks of joins clean, and so are those of the tokens that leave. -/
theorem Effect.clean {d : Decision} {issued' : Nat} {states' : List GatewayState}
    (heff : r.Effect p issued states d issued' states') (hs : SoundStates p issued states)
    (hf : ∀ f ∈ r.frames, f.Sound states) (hclean : Frame.Clean r.frames)
    (hjoins : CleanJoins states) (hsmall : r.outgoing.length < 4294967296) :
    CleanJoins states' ∧ ∀ c ∈ d.cursors r.frames, Frame.Clean c.frames := by
  have hfresh : issued < (Uid.mk (issued + 1)).value := Nat.lt_succ_self issued
  have htargets : r.course.targets.length < 4294967296 := by
    refine lt_of_le_of_lt ?_ hsmall
    have hle := r.course_targets.length_le
    rwa [List.length_map] at hle
  -- The stacks that a join hands on are those that have come together there.
  have hhanded : ∀ {flows generation}, Frame.Clean
      (r.arrival p flows states ⟨issued + 1⟩ generation).1.handedOn := by
    intro flows generation
    obtain ⟨-, hmem, -⟩ := arrivalStates_sound flows hs hf hfresh generation
    obtain ⟨-, -, hjk, -⟩ := arrival_sound flows hs hf hfresh generation
    exact (cleanJoins_arrivalStates hjoins hs hf hclean hfresh _ hmem hjk).sublist
      List.filter_sublist
  cases heff with
  | pass hcourse =>
    obtain ⟨hfork, hcontinue, -⟩ := course_pass hcourse
    refine ⟨hjoins, fun c hc => ?_⟩
    rcases Decision.mem_cursors hc with hframes | ⟨fork, n, hsome, -⟩
    · rw [hframes, hcontinue]
      exact hclean
    · rw [hfork] at hsome
      cases hsome
  | @split targets generation hcourse =>
    rw [hcourse] at htargets
    refine ⟨cleanJoins_append_fork hjoins rfl, clean_forked hclean ?_ rfl rfl rfl htargets⟩
    rintro f hmem heq
    have hknown := hs.known_frame (hf f hmem)
    rw [heq] at hknown
    omega
  | wait generation hcourse hfull =>
    refine ⟨cleanJoins_arrivalStates hjoins hs hf hclean hfresh, ?_⟩
    simp [Decision.cursors, Decision.waiting, Decision.to]
  | release generation hcourse hfull hone =>
    refine ⟨cleanJoins_arrivalStates hjoins hs hf hclean hfresh, fun c hc => ?_⟩
    rcases Decision.mem_cursors hc with hframes | ⟨fork, n, hsome, -⟩
    · rw [hframes]
      exact hhanded
    · cases hsome
  | @releaseSplit flows targets generation forkGeneration hcourse hfull hmany =>
    rw [hcourse] at htargets
    refine ⟨cleanJoins_append_fork (cleanJoins_arrivalStates hjoins hs hf hclean hfresh) rfl,
      clean_forked hhanded ?_ rfl rfl rfl htargets⟩
    obtain ⟨hstates, hmem, -⟩ := arrivalStates_sound flows hs hf hfresh generation
    obtain ⟨-, -, hjk, -⟩ := arrival_sound flows hs hf hfresh generation
    rintro f hhand heq
    have hsound := shared_sound (hstates.joins _ hmem hjk) f (List.mem_filter.1 hhand).1
    have hknown := hstates.known_frame hsound
    rw [heq] at hknown
    exact absurd hknown (by simp)

end Request

end ProcessEngine

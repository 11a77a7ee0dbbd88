import ProcessEngine.Proofs.Frame.Branches

/-!
# What stacks of frames have in common

Stacks are merged one after the other, and each merge cuts off what the next stack does not share.
What is left in the end does not depend on the order: it is the longest lower part that the forks of
all stacks have in common, and each frame of it has the branches that the stacks have at its level,
in ascending order (`Common`).  There is one stack of that kind (`Common.eq`), and merging two or
more stacks comes to it (`common_mergeAll`), so neither commutativity nor associativity of the merge
is needed.  A stack alone may list its branches in any order; that is why one stack only fulfils
`Shared`, which does not speak of the order.
-/

namespace ProcessEngine.Frame

/-- Frames of the same fork say the same of the fork. -/
def Consistent (ls : List (List Frame)) : Prop :=
  ∀ s ∈ ls, ∀ t ∈ ls, ∀ f ∈ s, ∀ g ∈ t, f.forkId = g.forkId →
    f.gatewayId = g.gatewayId ∧ f.branchCount = g.branchCount ∧ f.generation = g.generation

/-- The stack goes as far up as the forks of all stacks agree, and each of its frames has the
branches that the frames of the stacks have at the same level. -/
structure Shared (ls : List (List Frame)) (l : List Frame) : Prop where
  forks : ∀ ids, ids <+: l.map forkId ↔ ∀ s ∈ ls, ids <+: s.map forkId
  bare : ∀ (n : Nat) (f : Frame), l[n]? = some f →
    ∀ s ∈ ls, ∃ g : Frame, s[n]? = some g ∧ g.bare = f.bare
  branches : ∀ (n : Nat) (f : Frame), l[n]? = some f →
    ∀ b, b ∈ f.branches ↔ ∃ s ∈ ls, ∃ g : Frame, s[n]? = some g ∧ b ∈ g.branches

/-- What stacks have in common: the shared stack with the branches in ascending order. -/
structure Common (ls : List (List Frame)) (l : List Frame) : Prop extends
    Shared ls l where
  ascending : ∀ f ∈ l, f.branches.Pairwise (· < ·)

variable {ls ks : List (List Frame)} {l m : List Frame}

/-- Frames differ at most in their branches if they say the same of the fork. -/
lemma Consistent.bare_eq (h : Consistent ls) {s t : List Frame} (hs : s ∈ ls)
    (ht : t ∈ ls) {f g : Frame} (hf : f ∈ s) (hg : g ∈ t) (hid : f.forkId = g.forkId) :
    f.bare = g.bare := by
  obtain ⟨hgateway, hcount, hgeneration⟩ := h s hs t ht f hf g hg hid
  rw [Frame.bare, Frame.bare, hgateway, hcount, hgeneration, hid]

lemma Consistent.of_subset (h : Consistent ls) (hsub : ks ⊆ ls) : Consistent ks :=
  fun s hs t ht => h s (hsub hs) t (hsub ht)

/-! ## Merging -/

lemma shared_singleton (l : List Frame) : Shared [l] l where
  forks ids := by simp
  bare n f hf := List.forall_mem_singleton.2 ⟨f, hf, rfl⟩
  branches n f hf b := by simp [hf]

/-- One more stack is merged. -/
lemma Shared.merge (h : Shared ls l) (hne : ls ≠ [])
    (hagree : Consistent (ls ++ [m])) : Shared (ls ++ [m]) (merge l m) where
  forks ids := by
    rw [prefix_forkIds_merge, h.forks, List.forall_mem_append, List.forall_mem_singleton]
  bare n f hf := by
    obtain ⟨a, b, ha, hb, hid, rfl⟩ := getElem?_merge hf
    refine List.forall_mem_append.2 ⟨h.bare n a ha, List.forall_mem_singleton.2 ⟨b, hb, ?_⟩⟩
    -- The frame of the new stack agrees with that of any earlier one.
    obtain ⟨s, hs⟩ := List.exists_mem_of_ne_nil _ hne
    obtain ⟨g, hg, hbare⟩ := h.bare n a ha s hs
    have hgid : g.bare.forkId = a.bare.forkId := by rw [hbare]
    rw [hagree.bare_eq (List.mem_append_right _ List.mem_cons_self) (List.mem_append_left _ hs)
      (List.mem_of_getElem? hb) (List.mem_of_getElem? hg) (hid.symm.trans hgid.symm)]
    exact hbare
  branches n f hf b := by
    obtain ⟨a, c, ha, hc, -, rfl⟩ := getElem?_merge hf
    rw [absorb, mem_ascending, List.mem_append, h.branches n a ha]
    simp [or_and_right, exists_or, hc]

/-- Merging stacks comes to what they share. -/
lemma shared_mergeAll (hne : ls ≠ []) (hagree : Consistent ls) :
    Shared ls (mergeAll ls) := by
  induction ls using List.reverseRecOn with
  | nil => exact absurd rfl hne
  | append_singleton rest s ih =>
    by_cases hrest : rest = []
    · subst hrest
      exact shared_singleton s
    · rw [mergeAll_append_singleton hrest]
      exact (ih hrest (hagree.of_subset (List.subset_append_left _ _))).merge hrest hagree

/-- If there are at least two stacks, the branches are in ascending order as well. -/
theorem common_mergeAll (hmany : 2 ≤ ls.length) (hagree : Consistent ls) :
    Common ls (mergeAll ls) := by
  have hne : ls ≠ [] := List.ne_nil_of_length_pos (Nat.zero_lt_of_lt hmany)
  refine ⟨shared_mergeAll hne hagree, fun f hf => ?_⟩
  obtain ⟨rest, s, rfl⟩ := (List.eq_nil_or_concat ls).resolve_left hne
  have hrest : rest ≠ [] := by
    rintro rfl
    simp at hmany
  rw [List.concat_eq_append, mergeAll_append_singleton hrest] at hf
  obtain ⟨a, -, b, -, -, rfl⟩ := mem_merge hf
  exact pairwise_ascending _

/-! ## Uniqueness -/

namespace Common

/-- The stacks may be listed in any order. -/
lemma of_perm (h : Common ls l) (hperm : ls.Perm ks) : Common ks l where
  forks ids := by
    rw [h.forks]
    exact ⟨fun hall s hs => hall s (hperm.mem_iff.2 hs),
      fun hall s hs => hall s (hperm.mem_iff.1 hs)⟩
  bare n f hf s hs := h.bare n f hf s (hperm.mem_iff.2 hs)
  branches n f hf b := by
    rw [h.branches n f hf]
    exact exists_congr fun s => and_congr_left' hperm.mem_iff
  ascending := h.ascending

/-- Stacks have one stack in common. -/
lemma eq (h : Common ls l) (h' : Common ls m) (hne : ls ≠ []) : l = m := by
  have hforks : l.map forkId = m.map forkId := by
    have hle := (h'.forks _).2 ((h.forks _).1 List.prefix_rfl)
    have hge := (h.forks _).2 ((h'.forks _).1 List.prefix_rfl)
    exact hle.eq_of_length (Nat.le_antisymm hle.length_le hge.length_le)
  have hlength : l.length = m.length := by simpa using congrArg List.length hforks
  obtain ⟨s, hs⟩ := List.exists_mem_of_ne_nil _ hne
  refine List.ext_getElem hlength fun n hn hn' => ?_
  have hl : l[n]? = some l[n] := List.getElem?_eq_getElem hn
  have hm : m[n]? = some m[n] := List.getElem?_eq_getElem hn'
  have hbranches : (l[n]).branches = (m[n]).branches :=
    (h.ascending _ (List.getElem_mem hn)).eq_of_mem_iff (h'.ascending _ (List.getElem_mem hn'))
      fun b => (h.branches n _ hl b).trans (h'.branches n _ hm b).symm
  obtain ⟨f, hf, hfl⟩ := h.bare n _ hl s hs
  obtain ⟨g, hg, hgm⟩ := h'.bare n _ hm s hs
  obtain rfl : f = g := Option.some.inj (hf.symm.trans hg)
  have hbare : (l[n]).bare = (m[n]).bare := hfl.symm.trans hgm
  calc l[n] = { (l[n]).bare with branches := (l[n]).branches } := rfl
    _ = { (m[n]).bare with branches := (m[n]).branches } := by rw [hbare, hbranches]
    _ = m[n] := rfl

end Common

end ProcessEngine.Frame

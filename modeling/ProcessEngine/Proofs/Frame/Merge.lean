import Mathlib.Data.List.Sort
import ProcessEngine.Frame

/-!
# Merging stacks of frames

`Frame.merge` keeps the forks that two stacks have in common, counted from the outside, and unites
their branches level by level.  The numbers of a united frame are strictly ascending, so absorbing a
frame that is in this form already changes nothing (`absorb_self`), and two stacks that agree up to
some level are merged level by level up to there (`merge_append_cons`).
-/

namespace ProcessEngine

/-! ## Ascending lists -/

lemma mem_insertAscending {m n : Nat} {ns : List Nat} :
    m ∈ insertAscending n ns ↔ m = n ∨ m ∈ ns := by
  induction ns with
  | nil => simp [insertAscending]
  | cons k rest ih =>
    rw [insertAscending]
    split_ifs with hlt heq
    · simp
    · subst heq
      simp
    · rw [List.mem_cons, ih, List.mem_cons]
      tauto

lemma pairwise_insertAscending {n : Nat} {ns : List Nat} (h : ns.Pairwise (· < ·)) :
    (insertAscending n ns).Pairwise (· < ·) := by
  induction ns with
  | nil => simp [insertAscending]
  | cons k rest ih =>
    obtain ⟨hk, hrest⟩ := List.pairwise_cons.1 h
    rw [insertAscending]
    split_ifs with hlt heq
    · refine List.pairwise_cons.2 ⟨fun m hm => ?_, h⟩
      rcases List.mem_cons.1 hm with rfl | hm
      · exact hlt
      · exact hlt.trans (hk m hm)
    · exact h
    · refine List.pairwise_cons.2 ⟨fun m hm => ?_, ih hrest⟩
      rcases mem_insertAscending.1 hm with rfl | hm
      · omega
      · exact hk m hm

lemma mem_ascending {m : Nat} {ns : List Nat} : m ∈ ascending ns ↔ m ∈ ns := by
  induction ns with
  | nil => simp [ascending]
  | cons n rest ih =>
    rw [ascending, List.foldr_cons, mem_insertAscending, ← ascending, ih, List.mem_cons]

lemma pairwise_ascending (ns : List Nat) : (ascending ns).Pairwise (· < ·) := by
  induction ns with
  | nil => simp [ascending]
  | cons n rest ih => exact pairwise_insertAscending ih

lemma ascending_ne_nil {ns : List Nat} (h : ns ≠ []) : ascending ns ≠ [] := by
  obtain ⟨n, hn⟩ := List.exists_mem_of_ne_nil ns h
  exact List.ne_nil_of_mem (mem_ascending.2 hn)

/-- Strictly ascending lists with the same members are equal. -/
lemma ascending_eq {ns ms : List Nat} (hm : ms.Pairwise (· < ·)) (h : ∀ n, n ∈ ns ↔ n ∈ ms) :
    ascending ns = ms :=
  (pairwise_ascending ns).eq_of_mem_iff hm fun n => mem_ascending.trans (h n)

namespace Frame

/-- The frame without its branches: what names the fork. -/
def bare (f : Frame) : Frame := { f with branches := [] }

@[simp] lemma forkId_absorb (f g : Frame) : (f.absorb g).forkId = f.forkId := rfl

/-- The branches of a frame are given in ascending order, and there is at least one. -/
structure Tidy (f : Frame) : Prop where
  ascending : f.branches.Pairwise (· < ·)
  nonempty : f.branches ≠ []

lemma tidy_forBranch (f : Frame) (n : Nat) : (f.forBranch n).Tidy :=
  ⟨List.pairwise_singleton _ n, List.cons_ne_nil n []⟩

lemma Tidy.absorb {f : Frame} (h : f.Tidy) (g : Frame) : (f.absorb g).Tidy :=
  ⟨pairwise_ascending _, ascending_ne_nil (List.append_ne_nil_of_left_ne_nil h.nonempty _)⟩

lemma absorb_self {f : Frame} (h : f.Tidy) : f.absorb f = f := by
  have hb : ProcessEngine.ascending (f.branches ++ f.branches) = f.branches :=
    ascending_eq h.ascending fun n => by simp
  rw [absorb, hb]

/-- A frame for one branch is closed only if the fork has no other branches. -/
lemma branchCount_of_isClosed_forBranch {f : Frame} {n : Nat}
    (h : (f.forBranch n).isClosed = true) :
    f.branchCount ≤ 1 := by
  simpa [isClosed, forBranch, word32] using h

/-! ## Merged stacks -/

/-- Each level of a merged stack stems from the same level of both stacks. -/
lemma getElem?_merge {n : Nat} {f : Frame} {as bs : List Frame} (h : (merge as bs)[n]? = some f) :
    ∃ a b, as[n]? = some a ∧ bs[n]? = some b ∧ a.forkId = b.forkId ∧ f = a.absorb b := by
  induction as generalizing bs n with
  | nil => simp [merge] at h
  | cons a as ih =>
    cases bs with
    | nil => simp [merge] at h
    | cons b bs =>
      rw [merge] at h
      split_ifs at h with heq
      · cases n with
        | zero => exact ⟨a, b, rfl, rfl, heq, (Option.some.inj h).symm⟩
        | succ n => exact ih h
      · simp at h

/-- Every frame of a merged stack stems from the first stack and has absorbed another frame of the
same fork. -/
lemma mem_merge {f : Frame} {as bs : List Frame} (h : f ∈ merge as bs) :
    ∃ a ∈ as, ∃ b ∈ bs, a.forkId = b.forkId ∧ f = a.absorb b := by
  obtain ⟨n, hn⟩ := List.getElem?_of_mem h
  obtain ⟨a, b, ha, hb, hab⟩ := getElem?_merge hn
  exact ⟨a, List.mem_of_getElem? ha, b, List.mem_of_getElem? hb, hab⟩

/-- Two stacks with a common lower part keep it, and are merged above it. -/
lemma merge_append {base : List Frame} (h : ∀ f ∈ base, f.Tidy) (as bs : List Frame) :
    merge (base ++ as) (base ++ bs) = base ++ merge as bs := by
  induction base with
  | nil => rfl
  | cons f base ih =>
    rw [List.cons_append, List.cons_append, merge, if_pos rfl, absorb_self (h f List.mem_cons_self),
      ih fun g hg => h g (List.mem_cons_of_mem _ hg), List.cons_append]

/-- Above a common lower part the frames of one fork are united. -/
lemma merge_append_cons {base : List Frame} (h : ∀ f ∈ base, f.Tidy) {a b : Frame}
    (hab : a.forkId = b.forkId) (as bs : List Frame) :
    merge (base ++ a :: as) (base ++ b :: bs) = base ++ a.absorb b :: merge as bs := by
  rw [merge_append h, merge, if_pos hab]

/-- The forks of a merged stack are the longest lower part that the forks of both have in common. -/
lemma prefix_forkIds_merge {ids : List Uid} {as bs : List Frame} :
    ids <+: (merge as bs).map forkId ↔ ids <+: as.map forkId ∧ ids <+: bs.map forkId := by
  induction as generalizing bs ids with
  | nil =>
    simp only [merge, List.map_nil, List.prefix_nil]
    exact ⟨fun h => ⟨h, h ▸ List.nil_prefix⟩, And.left⟩
  | cons a as ih =>
    cases ids with
    | nil => simp
    | cons x ids =>
      cases bs with
      | nil => simp [merge]
      | cons b bs =>
        rw [merge]
        split_ifs with heq
        · simp only [List.map_cons, List.cons_prefix_cons, ih, forkId_absorb, heq]
          tauto
        · simp only [List.map_nil, List.prefix_nil, reduceCtorEq, List.map_cons,
            List.cons_prefix_cons, false_iff]
          exact fun ⟨ha, hb⟩ => heq (ha.1.symm.trans hb.1)

/-- The forks of a merged stack are a lower part of the forks of each of the two. -/
lemma forkIds_merge_prefix (as bs : List Frame) :
    (merge as bs).map forkId <+: as.map forkId ∧ (merge as bs).map forkId <+: bs.map forkId :=
  prefix_forkIds_merge.1 List.prefix_rfl

end Frame

end ProcessEngine

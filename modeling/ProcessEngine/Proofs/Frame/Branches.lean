import Mathlib.Data.List.Induction
import ProcessEngine.Proofs.Frame.Merge

/-!
# Merging the branches of a fork

The tokens that descend from one fork carry a common lower part of their stacks, the frame of the
fork with the branch that they belong to, and what forks inside that branch have added.  When the
stacks of such tokens are merged one after the other, the lower part stays, the branches of the fork
are united, and what different branches have added does not match (`mergeAll_branches`).

`Spread` says that the stacks of all tokens that descend from the fork are of that kind.  It holds
when the fork is made (`spread_fork`), and still holds when one of the tokens is forked again
(`Spread.split`).
-/

namespace ProcessEngine.Frame

/-- The stacks merged one after the other, the first one first. -/
def mergeAll : List (List Frame) → List Frame
  | [] => []
  | l :: rest => rest.foldl merge l

lemma mergeAll_append_singleton {ls : List (List Frame)} (h : ls ≠ []) (l : List Frame) :
    mergeAll (ls ++ [l]) = merge (mergeAll ls) l := by
  cases ls with
  | nil => exact absurd rfl h
  | cons first rest => rw [List.cons_append, mergeAll, List.foldl_append, mergeAll]; rfl

/-- The stack of a token in a branch of a fork: the frames around the fork, the branch, and the
frames that were added inside the branch. -/
def InBranch (base : List Frame) (fork : Frame) (b : Nat) (inner l : List Frame) : Prop :=
  l = base ++ fork.forBranch b :: inner

lemma InBranch.unique {base : List Frame} {fork : Frame} {b c : Nat} {inner other l : List Frame}
    (h : InBranch base fork b inner l) (h' : InBranch base fork c other l) :
    b = c ∧ inner = other := by
  rw [InBranch] at h h'
  rw [h, List.append_cancel_left_eq, List.cons.injEq] at h'
  have hb : [b] = [c] := congrArg Frame.branches h'.1
  exact ⟨(List.cons.inj hb).1, h'.2⟩

/-- Two stacks of inner frames go back to the same inner fork. -/
def Meet (inner other : List Frame) : Prop :=
  ∃ f ∈ inner.head?, ∃ g ∈ other.head?, f.forkId = g.forkId

section Branches

variable {base : List Frame} {fork : Frame} {ls : List (List Frame)}

/-- Merged stacks from one fork have the frames around the fork, and the branches they come from. -/
lemma mergeAll_shape (hbase : ∀ f ∈ base, f.Tidy) (hne : ls ≠ [])
    (hin : ∀ l ∈ ls, ∃ b inner, InBranch base fork b inner l) :
    ∃ bs inner, mergeAll ls = base ++ { fork with branches := bs } :: inner ∧
      bs.Pairwise (· < ·) ∧
      (∀ b, b ∈ bs ↔ ∃ l ∈ ls, ∃ other, InBranch base fork b other l) ∧
      ∀ f ∈ inner.head?, ∀ l ∈ ls, ∀ b other, InBranch base fork b other l →
        ∃ g ∈ other.head?, f.forkId = g.forkId := by
  induction ls using List.reverseRecOn with
  | nil => exact absurd rfl hne
  | append_singleton rest l ih =>
    obtain ⟨b, inner, hl⟩ := hin l (by simp)
    have hbranch : ∀ c, c = b ↔ ∃ other, InBranch base fork c other l :=
      fun c => ⟨fun hc => ⟨inner, hc ▸ hl⟩, fun ⟨other, ho⟩ => (ho.unique hl).1⟩
    by_cases hrest : rest = []
    · subst hrest
      refine ⟨[b], inner, hl, List.pairwise_singleton _ b, fun c => ?_,
        fun f hf k hk c other ho => ?_⟩
      · simp [hbranch c]
      · obtain rfl : k = l := by simpa using hk
        exact ⟨f, (ho.unique hl).2 ▸ hf, rfl⟩
    · obtain ⟨bs, shared, hmerged, -, hmem, hhead⟩ :=
        ih hrest fun k hk => hin k (List.mem_append_left _ hk)
      refine ⟨ascending (bs ++ [b]), merge shared inner, ?_, pairwise_ascending _, fun c => ?_,
        fun f hf k hk c other ho => ?_⟩
      · rw [mergeAll_append_singleton hrest, hmerged, show l = _ from hl]
        exact merge_append_cons hbase (a := { fork with branches := bs }) (b := fork.forBranch b)
          rfl shared inner
      · rw [mem_ascending, List.mem_append, hmem, List.mem_singleton, hbranch]
        simp only [List.mem_append, List.mem_singleton, or_and_right, exists_or, exists_eq_left]
      · -- The first frame of merged stacks stems from the first frames of both.
        have hboth : ∃ x ∈ shared.head?, ∃ y ∈ inner.head?,
            f.forkId = x.forkId ∧ f.forkId = y.forkId := by
          cases shared with
          | nil => simp [merge] at hf
          | cons x shared =>
            cases inner with
            | nil => simp [merge] at hf
            | cons y inner =>
              rw [merge] at hf
              split_ifs at hf with heq
              · simp only [List.head?_cons, Option.mem_def, Option.some.injEq] at hf
                exact ⟨x, rfl, y, rfl, by rw [← hf, forkId_absorb], by
                  rw [← hf, forkId_absorb, heq]⟩
              · simp at hf
        obtain ⟨x, hx, y, hy, hfx, hfy⟩ := hboth
        rcases List.mem_append.1 hk with hk | hk
        · obtain ⟨g, hg, hxg⟩ := hhead x hx k hk c other ho
          exact ⟨g, hg, hfx.trans hxg⟩
        · obtain rfl : k = l := by simpa using hk
          exact ⟨y, (ho.unique hl).2 ▸ hy, hfy⟩

/-- The stacks of all tokens that descend from a fork with `m` branches: each belongs to one of
them, each branch has one, and the forks inside different branches are different. -/
structure Spread (base : List Frame) (fork : Frame) (m : Nat) (ls : List (List Frame)) : Prop where
  within : ∀ l ∈ ls, ∃ b < m, ∃ inner, InBranch base fork b inner l
  represented : ∀ b < m, ∃ l ∈ ls, ∃ inner, InBranch base fork b inner l
  apart : ∀ k ∈ ls, ∀ l ∈ ls, ∀ b c inner other, InBranch base fork b inner k →
    InBranch base fork c other l → b ≠ c → ¬Meet inner other

/-- The stacks may be listed in any order. -/
lemma Spread.of_mem_iff {m : Nat} {ks : List (List Frame)} (h : Spread base fork m ls)
    (hmem : ∀ l, l ∈ ks ↔ l ∈ ls) : Spread base fork m ks where
  within l hl := h.within l ((hmem l).1 hl)
  represented b hb := by
    obtain ⟨l, hl, hin⟩ := h.represented b hb
    exact ⟨l, (hmem l).2 hl, hin⟩
  apart k hk l hl := h.apart k ((hmem k).1 hk) l ((hmem l).1 hl)

/-- The branches of a fork that was just made. -/
lemma spread_fork (base : List Frame) (fork : Frame) (m : Nat) :
    Spread base fork m ((List.range m).map fun b => base ++ [fork.forBranch b]) where
  within l hl := by
    obtain ⟨b, hb, rfl⟩ := List.mem_map.1 hl
    exact ⟨b, List.mem_range.1 hb, [], rfl⟩
  represented b hb := ⟨_, List.mem_map_of_mem (List.mem_range.2 hb), [], rfl⟩
  apart k hk l hl b c inner other hink hinl hne := by
    obtain ⟨i, -, rfl⟩ := List.mem_map.1 hk
    have hin : InBranch base fork i [] (base ++ [fork.forBranch i]) := rfl
    rintro ⟨f, hf, -⟩
    rw [(hink.unique hin).2] at hf
    cases hf

/-- A token is forked by a new fork, which adds its frame to each of the tokens that come out of it.
-/
lemma Spread.split {m k : Nat} {l : List Frame} {new : Frame} {index : Nat → Nat}
    (h : Spread base fork m (l :: ls)) (hk : 0 < k)
    (hnew : ∀ s ∈ l :: ls, ∀ g ∈ s, g.forkId ≠ new.forkId) :
    Spread base fork m ((List.range k).map (fun c => l ++ [new.forBranch (index c)]) ++ ls) := by
  have hadded : ∀ {b inner} (g : Frame), InBranch base fork b inner l →
      InBranch base fork b (inner ++ [g]) (l ++ [g]) := by
    intro b inner g hin
    rw [InBranch] at hin ⊢
    rw [hin, List.append_assoc, List.cons_append]
  -- What is above the branch is what was there before, or starts with the new fork.
  have horigin : ∀ s ∈ (List.range k).map (fun c => l ++ [new.forBranch (index c)]) ++ ls,
      ∀ b inner, InBranch base fork b inner s → ∃ o ∈ l :: ls, ∃ old, InBranch base fork b old o ∧
        ∀ f ∈ inner.head?, f ∈ old.head? ∨ f.forkId = new.forkId ∧ o = l := by
    intro s hs b inner hin
    rcases List.mem_append.1 hs with hs | hs
    · obtain ⟨c, -, rfl⟩ := List.mem_map.1 hs
      obtain ⟨a, -, old, hold⟩ := h.within l List.mem_cons_self
      obtain ⟨rfl, rfl⟩ := hin.unique (hadded _ hold)
      refine ⟨l, List.mem_cons_self, old, hold, fun f hf => ?_⟩
      cases old with
      | nil =>
        obtain rfl : new.forBranch (index c) = f := by simpa using hf
        exact .inr ⟨rfl, rfl⟩
      | cons g rest => exact .inl hf
    · exact ⟨s, List.mem_cons_of_mem _ hs, inner, hin, fun f hf => .inl hf⟩
  have hold : ∀ o ∈ l :: ls, ∀ b old, InBranch base fork b old o → ∀ f ∈ old.head?,
      f.forkId ≠ new.forkId := by
    intro o ho b old hin f hf
    refine hnew o ho f ?_
    rw [show o = _ from hin]
    exact List.mem_append_right _ (List.mem_cons_of_mem _ (List.mem_of_head? hf))
  refine ⟨fun s hs => ?_, fun b hb => ?_, fun s hs t ht b c inner other hin hin' hne => ?_⟩
  · rcases List.mem_append.1 hs with hs | hs
    · obtain ⟨c, -, rfl⟩ := List.mem_map.1 hs
      obtain ⟨b, hb, inner, hin⟩ := h.within l List.mem_cons_self
      exact ⟨b, hb, _, hadded _ hin⟩
    · exact h.within s (List.mem_cons_of_mem _ hs)
  · obtain ⟨s, hs, inner, hin⟩ := h.represented b hb
    rcases List.mem_cons.1 hs with rfl | hs
    · exact ⟨_, List.mem_append_left _ (List.mem_map_of_mem (List.mem_range.2 hk)), _, hadded _ hin⟩
    · exact ⟨s, List.mem_append_right _ hs, inner, hin⟩
  · obtain ⟨o, ho, old, hino, hfirst⟩ := horigin s hs b inner hin
    obtain ⟨o', ho', old', hino', hfirst'⟩ := horigin t ht c other hin'
    rintro ⟨f, hf, g, hg, hfg⟩
    rcases hfirst f hf with hf | ⟨hfnew, rfl⟩ <;> rcases hfirst' g hg with hg | ⟨hgnew, rfl⟩
    · exact h.apart o ho o' ho' b c old old' hino hino' hne ⟨f, hf, g, hg, hfg⟩
    · exact hold o ho b old hino f hf (hfg.trans hgnew)
    · exact hold o' ho' c old' hino' g hg (hfg.symm.trans hfnew)
    · exact hne (hino.unique hino').1

/-- If a fork has several branches, then the merged stacks of all tokens that descend from it have
all branches of the fork and nothing above. -/
theorem mergeAll_branches {m : Nat} (hbase : ∀ f ∈ base, f.Tidy) (hm : 2 ≤ m)
    (h : Spread base fork m ls) :
    mergeAll ls = base ++ [{ fork with branches := List.range m }] := by
  obtain ⟨k, hk, inner₀, hin₀⟩ := h.represented 0 (by omega)
  obtain ⟨l, hl, inner₁, hin₁⟩ := h.represented 1 (by omega)
  have hne : ls ≠ [] := List.ne_nil_of_mem hk
  obtain ⟨bs, inner, hmerged, hascending, hmem, hhead⟩ := mergeAll_shape hbase hne fun s hs => by
    obtain ⟨b, -, other, ho⟩ := h.within s hs
    exact ⟨b, other, ho⟩
  have hbs : bs = List.range m := by
    refine hascending.eq_of_mem_iff List.pairwise_lt_range fun b => ?_
    rw [hmem, List.mem_range]
    refine ⟨fun ⟨s, hs, other, ho⟩ => ?_, h.represented b⟩
    obtain ⟨c, hc, other', ho'⟩ := h.within s hs
    exact (ho.unique ho').1 ▸ hc
  have hinner : inner = [] := by
    cases inner with
    | nil => rfl
    | cons f rest =>
      obtain ⟨g, hg, hfg⟩ := hhead f rfl k hk 0 inner₀ hin₀
      obtain ⟨g', hg', hfg'⟩ := hhead f rfl l hl 1 inner₁ hin₁
      exact absurd ⟨g, hg, g', hg', hfg.symm.trans hfg'⟩
        (h.apart k hk l hl 0 1 inner₀ inner₁ hin₀ hin₁ (by omega))
  rw [hmerged, hbs, hinner]

end Branches

end ProcessEngine.Frame

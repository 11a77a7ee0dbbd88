import ProcessEngine.Proofs.Gateway.Inclusive

/-!
# The tokens that descend from a selection

A token enters an inclusive fork, the branches that it selects may go through further inclusive
forks, and the tokens that come of it arrive at one inclusive join, in any order and with whatever
else happens in between.  `Selection.Step` is one such event.

The join tells tokens apart by the innermost fork around them.  So the books are kept fork by fork
(`Selection.Inv`): each flow that a fork selected has its token on the way, arrived or forked again,
and the join has counted just the arrived ones.  A token is released when it completes a round of
its fork (`Inv.decided`), and a fork of which a branch was forked again never completes one.  Hence
all tokens wait but the last one, and that one is released, if and only if there is one fork only of
which no branch was forked again and the last token comes from it (`Inv.releasedLast_iff`).
-/

namespace ProcessEngine

lemma Decision.Waits.not_releases {d : Decision} (h : d.Waits) (kept : List Frame) :
    ¬d.Releases kept := by
  intro hreleases
  have hwait := h.needsWait
  rw [hreleases.needsWait] at hwait
  cases hwait

/-- A fork of a selection: its identifier, the innermost fork around the token that was split, and
the number of flows that were selected. -/
structure Selected where
  fork : Uid
  around : Option Uid
  flows : Nat

namespace Selected

/-- How many arrivals a join waits for within the fork. -/
def size (g : Selected) : Nat := max (word32 g.flows) 1

/-- Whether the fork is the innermost one around a token. -/
def isInnermost (g : Selected) (l : List Frame) : Bool := Frame.innermost l == some g.fork

/-- The token carries the frame of the fork innermost. -/
def Roots (g : Selected) (l : List Frame) : Prop :=
  ∃ f, l.getLast? = some f ∧ f.forkId = g.fork ∧ f.branchCount = word32 g.flows

/-- How many of the arrivals come from the fork. -/
def arrivals (g : Selected) (arrived : List (List Frame × Decision)) : Nat :=
  arrived.countP (g.isInnermost ·.1)

variable {g : Selected} {l : List Frame}

lemma isInnermost_iff : g.isInnermost l = true ↔ Frame.innermost l = some g.fork := by
  rw [isInnermost, beq_iff_eq]

/-- One more arrival. -/
lemma arrivals_concat (g : Selected) (arrived : List (List Frame × Decision))
    (a : List Frame × Decision) : g.arrivals (arrived ++ [a]) =
      g.arrivals arrived + if g.isInnermost a.1 = true then 1 else 0 := by
  rw [arrivals, List.countP_append, List.countP_singleton]
  rfl

lemma Roots.isInnermost (h : g.Roots l) : g.isInnermost l = true := by
  obtain ⟨f, hlast, hid, -⟩ := h
  rw [isInnermost_iff, Frame.innermost, hlast, Option.map_some, hid]

end Selected

/-- The tokens that descend from a selection: the stacks of those still on their way, those that
have arrived at the join and what became of them, the first one first, and the forks. -/
structure Selection where
  leaves : List (List Frame)
  arrived : List (List Frame × Decision)
  forks : List Selected

namespace Selection

/-- The selection of a token that enters a fork. -/
def ofFork (root : Request) (fork : Frame) (first : Decision) (frames : List Frame) : Selection :=
  ⟨(first.cursors frames).map Cursor.frames, [],
    [⟨fork.forkId, Frame.innermost frames, root.selected.length⟩]⟩

/-- How many tokens there are or have been, but for those that have been forked. -/
def size (s : Selection) : Nat := s.leaves.length + s.arrived.length

/-- How many tokens of a fork are on their way. -/
def onWay (s : Selection) (g : Selected) : Nat := s.leaves.countP g.isInnermost

/-- How many branches of a fork have been forked again. -/
def again (s : Selection) (g : Selected) : Nat := s.forks.countP (·.around == some g.fork)

/-- The last token to arrive is released, and all the earlier ones wait. -/
def ReleasedLast (s : Selection) : Prop :=
  ∀ i a, s.arrived[i]? = some a →
    if i + 1 = s.arrived.length then ∃ kept, a.2.Releases kept else a.2.Waits

/-- Something else happens: no fork is forgotten, and no other token comes to the joins that those
of the selection come to. -/
structure Undisturbed (p gateway : String) (s : Selection) (w w' : Workspace) : Prop where
  sound : w'.Sound
  issued : w.supply.issued ≤ w'.supply.issued
  forks : ForksKept (w.store.states p) (w'.store.states p)
  joins : ∀ g ∈ s.forks, activeJoins p gateway (some g.fork) (w'.store.states p) =
    activeJoins p gateway (some g.fork) (w.store.states p)

/-- A token of the selection is forked again, or arrives at the join, or something else happens. -/
inductive Step (p gateway : String) : Selection → Workspace → Selection → Workspace → Prop
  | fork {r : Request} {d : Decision} {fork : Frame} {w w' : Workspace}
      {before after : List (List Frame)} {l : List Frame} {arrived : List (List Frame × Decision)}
      {forks : List Selected} (hr : r.Selects p l) (hact : r.activate w = .ok d w')
      (hfork : d.forkFrame = some fork) :
      Step p gateway ⟨before ++ l :: after, arrived, forks⟩ w
        ⟨before ++ (d.cursors l).map Cursor.frames ++ after, arrived,
          forks ++ [⟨fork.forkId, Frame.innermost l, r.selected.length⟩]⟩ w'
  | arrive {r : Request} {d : Decision} {w w' : Workspace} {before after : List (List Frame)}
      {l : List Frame} {arrived : List (List Frame × Decision)} {forks : List Selected}
      (hr : r.Collects p gateway l) (hact : r.activate w = .ok d w') :
      Step p gateway ⟨before ++ l :: after, arrived, forks⟩ w
        ⟨before ++ after, arrived ++ [(l, d)], forks⟩ w'
  | other {s : Selection} {w w' : Workspace} (h : s.Undisturbed p gateway w w') :
      Step p gateway s w s w'

/-- Any number of steps. -/
inductive Steps (p gateway : String) (s : Selection) (w : Workspace) :
    Selection → Workspace → Prop
  | refl : Steps p gateway s w s w
  | step {t u : Selection} {v v' : Workspace} (hsteps : Steps p gateway s w t v)
      (hstep : Step p gateway t v u v') : Steps p gateway s w u v'

variable {p gateway : String} {s t : Selection} {w w' : Workspace} {r : Request} {d : Decision}
  {fork : Frame} {before after branches : List (List Frame)} {l frames : List Frame}
  {arrived : List (List Frame × Decision)} {forks : List Selected} {u : Uid}

/-! ## The books -/

/-- What is written down about the forks agrees with what is written down about the tokens. -/
structure Books (s : Selection) : Prop where
  distinct : (s.forks.map Selected.fork).Nodup
  flows_pos : ∀ g ∈ s.forks, 0 < g.flows
  flows_le : ∀ g ∈ s.forks, g.flows ≤ s.size
  descended : ∀ a ∈ s.arrived, ∃ g ∈ s.forks, g.isInnermost a.1 = true
  accounted : ∀ g ∈ s.forks, s.onWay g + g.arrivals s.arrived + s.again g = g.flows

/-- A fork that has nothing to do with the selection yet. -/
structure Fresh (u : Uid) (s : Selection) : Prop where
  fork : ∀ g ∈ s.forks, g.fork ≠ u
  around : ∀ g ∈ s.forks, g.around ≠ some u
  leaves : ∀ l ∈ s.leaves, Frame.innermost l ≠ some u

lemma Books.arrivals_fresh (h : s.Books) {g : Selected} (hfresh : Fresh g.fork s) :
    g.arrivals s.arrived = 0 := by
  rw [Selected.arrivals, List.countP_eq_zero]
  intro a ha hinner
  obtain ⟨x, hx, hxa⟩ := h.descended a ha
  rw [Selected.isInnermost_iff] at hinner hxa
  exact hfresh.fork x hx (Option.some.inj (hxa.symm.trans hinner))

/-- A token is forked: the new fork has a token on its way for each flow. -/
lemma Books.split (h : Books ⟨before ++ l :: after, arrived, forks⟩)
    (hfresh : Fresh u ⟨before ++ l :: after, arrived, forks⟩) (hsome : 0 < branches.length)
    (hbranches : ∀ k ∈ branches, Frame.innermost k = some u) :
    Books ⟨before ++ branches ++ after, arrived,
      forks ++ [⟨u, Frame.innermost l, branches.length⟩]⟩ := by
  have hcount : ∀ g : Selected,
      branches.countP g.isInnermost = if g.fork = u then branches.length else 0 := by
    intro g
    split_ifs with hid
    · exact List.countP_eq_length.2 fun k hk =>
        Selected.isInnermost_iff.2 ((hbranches k hk).trans (congrArg some hid.symm))
    · exact List.countP_eq_zero.2 fun k hk hinner =>
        hid (Option.some.inj ((Selected.isInnermost_iff.1 hinner).symm.trans (hbranches k hk)))
  have hmem : ∀ {g}, g ∈ forks ++ [⟨u, Frame.innermost l, branches.length⟩] →
      g ∈ forks ∨ g = ⟨u, Frame.innermost l, branches.length⟩ := by simp
  constructor
  case distinct =>
    rw [List.map_append, List.nodup_append]
    refine ⟨h.distinct, by simp, fun v hv x hx => ?_⟩
    obtain ⟨g, hg, rfl⟩ := List.mem_map.1 hv
    obtain rfl : x = u := by simpa using hx
    exact hfresh.fork g hg
  case flows_pos =>
    intro g hg
    rcases hmem hg with hg | rfl
    · exact h.flows_pos g hg
    · exact hsome
  case flows_le =>
    intro g hg
    have hle := fun g hg => h.flows_le g hg
    simp only [size, List.length_append, List.length_cons] at hle ⊢
    rcases hmem hg with hg | rfl
    · have := hle g hg
      omega
    · simp only
      omega
  case descended =>
    intro a ha
    obtain ⟨g, hg, hga⟩ := h.descended a ha
    exact ⟨g, List.mem_append_left _ hg, hga⟩
  case accounted =>
    intro g hg
    have hagain : ∀ g : Selected, again ⟨before ++ branches ++ after, arrived,
        forks ++ [⟨u, Frame.innermost l, branches.length⟩]⟩ g =
          forks.countP (·.around == some g.fork) + if g.isInnermost l = true then 1 else 0 := by
      intro g
      rw [again, List.countP_append, List.countP_singleton]
      rfl
    rw [hagain]
    simp only [onWay, List.countP_append, hcount]
    rcases hmem hg with hg | rfl
    · have hold := h.accounted g hg
      simp only [onWay, again, List.countP_append, List.countP_cons] at hold
      rw [if_neg (hfresh.fork g hg)]
      omega
    · -- Nothing but its branches has to do with the new fork.
      have hleaf : ∀ k ∈ before ++ l :: after,
          ¬Selected.isInnermost ⟨u, Frame.innermost l, branches.length⟩ k = true :=
        fun k hk hinner => hfresh.leaves k hk (Selected.isInnermost_iff.1 hinner)
      have hnone : Selected.arrivals ⟨u, Frame.innermost l, branches.length⟩ arrived = 0 :=
        h.arrivals_fresh hfresh
      rw [hnone, List.countP_eq_zero.2 fun k hk => hleaf k (by simp [hk]),
        List.countP_eq_zero.2 fun k hk => hleaf k (by simp [hk]),
        List.countP_eq_zero.2 fun g hg heq => hfresh.around g hg (beq_iff_eq.1 heq),
        if_pos rfl, if_neg (hleaf l (by simp))]
      simp

/-- A token arrives. -/
lemma Books.arrive {g : Selected} (h : Books ⟨before ++ l :: after, arrived, forks⟩)
    (hg : g ∈ forks) (hinner : g.isInnermost l = true) (d : Decision) :
    Books ⟨before ++ after, arrived ++ [(l, d)], forks⟩ where
  distinct := h.distinct
  flows_pos := h.flows_pos
  flows_le x hx := by
    have hle := h.flows_le x hx
    simp only [size, List.length_append, List.length_cons] at hle ⊢
    omega
  descended a ha := by
    rcases List.mem_append.1 ha with ha | ha
    · exact h.descended a ha
    · rw [List.mem_singleton.1 ha]
      exact ⟨g, hg, hinner⟩
  accounted x hx := by
    have hold := h.accounted x hx
    simp only [onWay, again, Selected.arrivals, List.countP_append, List.countP_cons,
      List.countP_nil] at hold ⊢
    omega

/-! ## The invariant -/

/-- The books are in order, the joins have counted what has arrived, and it was released round by
round. -/
structure Inv (p gateway : String) (s : Selection) (w : Workspace) : Prop extends Books s where
  sound : w.Sound
  carried : ∀ l ∈ s.leaves, ∀ f ∈ l, f.Carried (w.store.states p)
  known : ∀ g ∈ s.forks, g.fork.value ≤ w.supply.issued
  knownAround : ∀ g ∈ s.forks, ∀ u, g.around = some u → u.value ≤ w.supply.issued
  held : ∀ g ∈ s.forks, Holds g.size (g.arrivals s.arrived)
    (activeJoins p gateway (some g.fork) (w.store.states p))
  decided : ∀ i a, s.arrived[i]? = some a → ∀ g ∈ s.forks, g.isInnermost a.1 = true →
    if g.size ∣ g.arrivals (s.arrived.take (i + 1)) then ∃ kept, a.2.Releases kept else a.2.Waits

/-- Every token on its way carries the frame of one of the forks innermost. -/
def Rooted (s : Selection) : Prop := ∀ l ∈ s.leaves, ∃ g ∈ s.forks, g.Roots l

/-- A token that has yet to be forked. -/
lemma Inv.start (hw : w.Sound) (hf : ∀ f ∈ frames, f.Carried (w.store.states p)) :
    Inv p gateway ⟨[frames], [], []⟩ w where
  distinct := List.nodup_nil
  flows_pos := nofun
  flows_le := nofun
  descended := nofun
  accounted := nofun
  sound := hw
  carried := by simpa using hf
  known := nofun
  knownAround := nofun
  held := nofun
  decided := by simp

/-- The forks around a token are known. -/
lemma Inv.innermost_known (h : Inv p gateway s w) (hl : l ∈ s.leaves)
    (hu : Frame.innermost l = some u) : u.value ≤ w.supply.issued := by
  rw [Frame.innermost, Option.map_eq_some_iff] at hu
  obtain ⟨f, hlast, rfl⟩ := hu
  exact (h.sound.states p).known_frame (h.carried l hl f (List.mem_of_getLast? hlast)).toSound

lemma Inv.fresh (h : Inv p gateway s w) (hu : w.supply.issued < u.value) : Fresh u s where
  fork g hg heq := by
    have hknown := h.known g hg
    rw [heq] at hknown
    omega
  around g hg heq := by
    have hknown := h.knownAround g hg u heq
    omega
  leaves l hl heq := by
    have hknown := h.innermost_known hl heq
    omega

/-- A token is forked. -/
lemma Inv.split (h : Inv p gateway ⟨before ++ l :: after, arrived, forks⟩ w) (hr : r.Selects p l)
    (hact : r.activate w = .ok d w') (hfork : d.forkFrame = some fork) :
    Inv p gateway ⟨before ++ (d.cursors l).map Cursor.frames ++ after, arrived,
      forks ++ [⟨fork.forkId, Frame.innermost l, r.selected.length⟩]⟩ w' := by
  have hleaf : l ∈ before ++ l :: after := by simp
  obtain ⟨d', v, fork', hact', hfork', hsound, hkept, hcarried, hnew, hissued, -, hstacks,
    hjoins⟩ := hr.spec h.sound (h.carried l hleaf)
  obtain ⟨rfl, rfl⟩ := Action.ok_unique hact' hact
  obtain rfl := Option.some.inj (hfork'.symm.trans hfork)
  have hfresh := h.fresh hnew
  have hlength : r.selected.length = ((d'.cursors l).map Cursor.frames).length := by
    rw [hstacks, List.length_map, List.length_range]
  have hbranches : ∀ k ∈ (d'.cursors l).map Cursor.frames,
      Frame.innermost k = some fork'.forkId := by
    rw [hstacks]
    intro k hk
    obtain ⟨b, -, rfl⟩ := List.mem_map.1 hk
    exact Frame.innermost_concat ..
  have hnone : Selected.arrivals ⟨fork'.forkId, Frame.innermost l, r.selected.length⟩ arrived = 0 :=
    h.arrivals_fresh hfresh
  constructor
  case toBooks =>
    rw [hlength]
    exact h.toBooks.split hfresh (hlength ▸ List.length_pos_iff.2 hr.selected) hbranches
  case sound => exact hsound
  case carried =>
    intro k hk f hf
    rcases List.mem_append.1 hk with hk | hk
    · rcases List.mem_append.1 hk with hk | hk
      · exact (h.carried k (by simp [hk]) f hf).mono hkept
      · obtain ⟨c, hc, rfl⟩ := List.mem_map.1 hk
        exact hcarried c hc f hf
    · exact (h.carried k (by simp [hk]) f hf).mono hkept
  case known =>
    refine List.forall_mem_append.2 ⟨?_, by simpa using hissued⟩
    intro g hg
    have hknown := h.known g hg
    omega
  case knownAround =>
    refine List.forall_mem_append.2 ⟨?_, List.forall_mem_singleton.2 ?_⟩
    · intro g hg u hu
      have hknown := h.knownAround g hg u hu
      omega
    · intro u hu
      have hknown := h.innermost_known hleaf hu
      omega
  case held =>
    simp only [hjoins]
    refine List.forall_mem_append.2 ⟨h.held, ?_⟩
    rw [List.forall_mem_singleton, activeJoins_fresh (h.sound.states p) hnew, hnone]
    exact .idle (Nat.zero_mod _)
  case decided =>
    intro i a ha
    refine List.forall_mem_append.2 ⟨h.decided i a ha, ?_⟩
    rw [List.forall_mem_singleton]
    rw [Selected.arrivals, List.countP_eq_zero] at hnone
    exact fun hinner => absurd hinner (hnone a (List.mem_of_getElem? ha))

/-- The new tokens carry the frame of the new fork. -/
lemma Rooted.split (h : ∀ k ∈ before ++ after, ∃ g ∈ forks, g.Roots k) (hr : r.Selects p l)
    (hw : w.Sound) (hf : ∀ f ∈ l, f.Carried (w.store.states p))
    (hact : r.activate w = .ok d w') (hfork : d.forkFrame = some fork) :
    Rooted ⟨before ++ (d.cursors l).map Cursor.frames ++ after, arrived,
      forks ++ [⟨fork.forkId, Frame.innermost l, r.selected.length⟩]⟩ := by
  obtain ⟨d', v, fork', hact', hfork', -, -, -, -, -, hcount, hstacks, -⟩ := hr.spec hw hf
  obtain ⟨rfl, -⟩ := Action.ok_unique hact' hact
  obtain rfl := Option.some.inj (hfork'.symm.trans hfork)
  intro k hk
  have hcases : k ∈ before ++ after ∨ k ∈ (d'.cursors l).map Cursor.frames := by
    simp only [List.mem_append] at hk ⊢
    tauto
  rcases hcases with hk | hk
  · obtain ⟨g, hg, hroots⟩ := h k hk
    exact ⟨g, List.mem_append_left _ hg, hroots⟩
  · rw [hstacks] at hk
    obtain ⟨b, -, rfl⟩ := List.mem_map.1 hk
    exact ⟨_, List.mem_append_right _ (List.mem_singleton_self _), fork'.forBranch (word32 b),
      List.getLast?_concat .., rfl, hcount⟩

/-- A token arrives. -/
lemma Inv.arrive {g : Selected} (h : Inv p gateway ⟨before ++ l :: after, arrived, forks⟩ w)
    (hg : g ∈ forks) (hroots : g.Roots l) (hr : r.Collects p gateway l)
    (hact : r.activate w = .ok d w') :
    Inv p gateway ⟨before ++ after, arrived ++ [(l, d)], forks⟩ w' := by
  have hleaf : l ∈ before ++ l :: after := by simp
  have hinner := hroots.isInnermost
  obtain ⟨f, hlast, hid, hcount⟩ := hroots
  obtain ⟨d', v, hact', hsound, hissued, hkept, hdecision, hholds, helse⟩ :=
    hr.spec hlast (by rw [hcount]; rfl : max f.branchCount 1 = g.size) h.sound
      (h.carried l hleaf) (by rw [hid]; exact h.held g hg)
  obtain ⟨rfl, rfl⟩ := Action.ok_unique hact' hact
  rw [hid] at hholds helse
  have hone : ∀ x ∈ forks, x.isInnermost l = true → x = g := by
    intro x hx hxl
    rw [Selected.isInnermost_iff] at hinner hxl
    exact List.inj_on_of_nodup_map h.distinct hx hg (Option.some.inj (hxl.symm.trans hinner))
  constructor
  case toBooks => exact h.toBooks.arrive hg hinner d'
  case sound => exact hsound
  case carried =>
    intro k hk f hf
    exact (h.carried k (mem_of_mem_others hk) f hf).mono hkept
  case known =>
    intro x hx
    exact (h.known x hx).trans hissued
  case knownAround =>
    intro x hx u hu
    exact (h.knownAround x hx u hu).trans hissued
  case held =>
    intro x hx
    by_cases hxl : x.isInnermost l = true
    · obtain rfl := hone x hx hxl
      rw [x.arrivals_concat, if_pos hinner]
      exact hholds
    · have hne : some x.fork ≠ some g.fork := by
        rw [← Selected.isInnermost_iff.1 hinner]
        exact fun heq => hxl (Selected.isInnermost_iff.2 heq.symm)
      rw [x.arrivals_concat, if_neg hxl, helse _ hne]
      exact h.held x hx
  case decided =>
    intro i a ha x hx hxa
    simp only at ha ⊢
    rcases getElem?_concat_cases ha with ha | ⟨rfl, rfl⟩
    · have hi : i < arrived.length := (List.getElem?_eq_some_iff.1 ha).1
      rw [List.take_append_of_le_length hi]
      exact h.decided i a ha x hx hxa
    · obtain rfl := hone x hx hxa
      rw [List.take_of_length_le (by simp), x.arrivals_concat, if_pos hinner]
      exact hdecision

lemma Rooted.arrive (h : Rooted ⟨before ++ l :: after, arrived, forks⟩)
    (a : List Frame × Decision) :
    Rooted ⟨before ++ after, arrived ++ [a], forks⟩ := by
  intro k hk
  exact h k (mem_of_mem_others hk)

/-- Whatever else happens is of no account. -/
lemma Inv.other (h : Inv p gateway s w) (hw : s.Undisturbed p gateway w w') :
    Inv p gateway s w' where
  toBooks := h.toBooks
  sound := hw.sound
  carried l hl f hf := (h.carried l hl f hf).mono hw.forks
  known g hg := (h.known g hg).trans hw.issued
  knownAround g hg u hu := (h.knownAround g hg u hu).trans hw.issued
  held g hg := by
    rw [hw.joins g hg]
    exact h.held g hg
  decided := h.decided

/-- A step keeps the books. -/
lemma Inv.step (h : Inv p gateway s w) (hrooted : s.Rooted) (hstep : Step p gateway s w t w') :
    Inv p gateway t w' ∧ t.Rooted := by
  cases hstep with
  | @fork r d fork _ _ before after l arrived forks hr hact hfork =>
    have hothers : ∀ k ∈ before ++ after, ∃ g ∈ forks, g.Roots k :=
      fun k hk => hrooted k (mem_of_mem_others hk)
    exact ⟨h.split hr hact hfork,
      Rooted.split hothers hr h.sound (h.carried l (by simp)) hact hfork⟩
  | @arrive r d _ _ before after l arrived forks hr hact =>
    obtain ⟨g, hg, hroots⟩ := hrooted l (by simp)
    exact ⟨h.arrive hg hroots hr hact, hrooted.arrive (l, d)⟩
  | other hother => exact ⟨h.other hother, hrooted⟩

/-- So does a run. -/
lemma Inv.steps (h : Inv p gateway s w) (hrooted : s.Rooted) (hsteps : Steps p gateway s w t w') :
    Inv p gateway t w' ∧ t.Rooted := by
  induction hsteps with
  | refl => exact ⟨h, hrooted⟩
  | step _ hstep ih => exact ih.1.step ih.2 hstep

/-- The books of a selection are in order from the fork on. -/
theorem inv_of_steps {root : Request} {first : Decision} (hr : root.Selects p frames) (hw : w.Sound)
    (hf : ∀ f ∈ frames, f.Carried (w.store.states p)) {w₀ : Workspace}
    (hact : root.activate w = .ok first w₀) (hfork : first.forkFrame = some fork)
    (hsteps : Steps p gateway (ofFork root fork first frames) w₀ s w') :
    Inv p gateway s w' ∧ s.Rooted := by
  have hinv := @Inv.split p gateway w w₀ root first fork [] [] frames [] [] (.start hw hf) hr hact
    hfork
  have hrooted := @Rooted.split p w w₀ root first fork [] [] frames [] [] nofun hr hw hf hact hfork
  rw [List.nil_append, List.nil_append, List.append_nil] at hinv hrooted
  exact hinv.steps hrooted hsteps

/-! ## Other activity -/

/-- Any token that comes to another gateway, or from another fork, leaves the selection alone. -/
theorem undisturbed_activate {q : String} (hw : w.Sound) (hq : r.instanceId = some q)
    (hf : ∀ f ∈ r.frames, f.Carried (w.store.states q))
    (hne : ∀ flows targets, r.course = .meet flows targets → r.gateway.id ≠ gateway ∨
      ∀ g ∈ s.forks, (r.keyAmong (w.store.states q) flows).correlationId ≠ some g.fork)
    (hact : r.activate w = .ok d w') : s.Undisturbed p gateway w w' := by
  rcases Request.activate_spec hw hq (fun f hmem => (hf f hmem).toSound) with
    ⟨e, -, herror⟩ | ⟨d', v, hok, heff, hconf⟩
  · rw [hact] at herror
    cases herror
  · rw [hact] at hok
    cases hok
    obtain ⟨hstates, hkept, -⟩ := heff.sound (hw.states q) hf
    have hsound := hw.confined hconf hstates
    by_cases hp : p = q
    · subst hp
      refine ⟨hsound, hconf.issued, hkept, fun g hg => ?_⟩
      exact heff.activeJoins_elsewhere (hw.states p) (fun f hmem => (hf f hmem).toSound)
        fun flows targets hmeet => (hne flows targets hmeet).imp_right fun h => h g hg
    · have hstates := hconf.others p hp
      exact ⟨hsound, hconf.issued, hstates ▸ .refl _, fun g _ => by rw [hstates]⟩

/-! ## What comes of it -/

/-- No token of the selection is ever refused. -/
lemma Inv.progress (h : Inv p gateway s w) (hrooted : s.Rooted) (hl : l ∈ s.leaves)
    (hr : r.Selects p l ∨ r.Collects p gateway l) : ∃ d w', r.activate w = .ok d w' := by
  rcases hr with hr | hr
  · obtain ⟨d, w', -, hact, -⟩ := hr.spec h.sound (h.carried l hl)
    exact ⟨d, w', hact⟩
  · obtain ⟨g, hg, f, hlast, hid, hcount⟩ := hrooted l hl
    obtain ⟨d, w', hact, -⟩ := hr.spec hlast (by rw [hcount]; rfl : max f.branchCount 1 = g.size)
      h.sound (h.carried l hl) (by rw [hid]; exact h.held g hg)
    exact ⟨d, w', hact⟩

/-- A fork of not too many flows waits for all of them. -/
lemma Inv.size_eq (h : Inv p gateway s w) (hsize : s.size < 4294967296) {g : Selected}
    (hg : g ∈ s.forks) : g.size = g.flows := by
  have hpos := h.flows_pos g hg
  have hle := h.flows_le g hg
  rw [Selected.size, word32, Nat.mod_eq_of_lt (by omega)]
  omega

/-- So a token is released if and only if it is the last one of all that its fork selected. -/
lemma Inv.decided_flows (h : Inv p gateway s w) (hsize : s.size < 4294967296) {i : Nat}
    {a : List Frame × Decision} (ha : s.arrived[i]? = some a) {g : Selected} (hg : g ∈ s.forks)
    (hinner : g.isInnermost a.1 = true) :
    if g.arrivals (s.arrived.take (i + 1)) = g.flows then ∃ kept, a.2.Releases kept
    else a.2.Waits := by
  have hdecided := h.decided i a ha g hg hinner
  rw [h.size_eq hsize hg] at hdecided
  have hsome : 0 < g.arrivals (s.arrived.take (i + 1)) := by
    refine List.countP_pos_iff.2 ⟨a, ?_, hinner⟩
    exact List.mem_of_getElem? ((List.getElem?_take_of_lt (Nat.lt_succ_self i)).trans ha)
  have hle : g.arrivals (s.arrived.take (i + 1)) ≤ g.flows := by
    have hall : g.arrivals (s.arrived.take (i + 1)) ≤ g.arrivals s.arrived :=
      (List.take_sublist _ _).countP_le
    have haccounted := h.accounted g hg
    omega
  have hdvd : g.flows ∣ g.arrivals (s.arrived.take (i + 1)) ↔
      g.arrivals (s.arrived.take (i + 1)) = g.flows :=
    ⟨fun hdvd => Nat.le_antisymm hle (Nat.le_of_dvd hsome hdvd), fun heq => heq ▸ Nat.dvd_refl _⟩
  simpa only [hdvd] using hdecided

lemma Inv.releases_iff (h : Inv p gateway s w) (hsize : s.size < 4294967296) {i : Nat}
    {a : List Frame × Decision} (ha : s.arrived[i]? = some a) {g : Selected} (hg : g ∈ s.forks)
    (hinner : g.isInnermost a.1 = true) :
    (∃ kept, a.2.Releases kept) ↔ g.arrivals (s.arrived.take (i + 1)) = g.flows := by
  have hdecided := h.decided_flows hsize ha hg hinner
  split_ifs at hdecided with hcount
  · exact iff_of_true hdecided hcount
  · exact iff_of_false (fun ⟨kept, hkept⟩ => hdecided.not_releases kept hkept) hcount

/-- A fork that all tokens have left has none forked again just if as many arrived as it
selected. -/
lemma Inv.again_eq_zero (h : Inv p gateway s w) (hleaves : s.leaves = []) {g : Selected}
    (hg : g ∈ s.forks) : s.again g = 0 ↔ g.arrivals s.arrived = g.flows := by
  have haccounted := h.accounted g hg
  rw [onWay, hleaves, List.countP_nil] at haccounted
  omega

/-- When all tokens have arrived, the last one is released and the earlier ones wait if and only if
the last one comes from the only fork of which no branch was forked again. -/
theorem Inv.releasedLast_iff (h : Inv p gateway s w) (hsize : s.size < 4294967296)
    (hleaves : s.leaves = []) {init : List (List Frame × Decision)} {last : List Frame × Decision}
    (harrived : s.arrived = init ++ [last]) :
    s.ReleasedLast ↔ ∀ g ∈ s.forks, s.again g = 0 ↔ g.isInnermost last.1 = true := by
  have hlast : s.arrived[init.length]? = some last := by
    rw [harrived, List.getElem?_concat_length]
  have hall : s.arrived.take (init.length + 1) = s.arrived := by
    rw [harrived]
    exact List.take_of_length_le (by simp)
  have hlength : s.arrived.length = init.length + 1 := by
    rw [harrived, List.length_append, List.length_singleton]
  constructor
  · intro hreleased g hg
    rw [h.again_eq_zero hleaves hg]
    constructor
    · -- The last token of the fork is released, so no token comes after it.
      intro hcount
      obtain ⟨i, a, ha, hinner, htake⟩ := exists_countP_take (h.flows_pos g hg) hcount.ge
      obtain ⟨kept, hkept⟩ := (h.releases_iff hsize ha hg hinner).2 htake
      have hone := hreleased i a ha
      split_ifs at hone with hi
      · obtain rfl : i = init.length := by omega
        obtain rfl : a = last := Option.some.inj (ha.symm.trans hlast)
        exact hinner
      · exact absurd hkept (hone.not_releases kept)
    · intro hinner
      have hone := hreleased init.length last hlast
      rw [if_pos hlength.symm, h.releases_iff hsize hlast hg hinner, hall] at hone
      exact hone
  · intro honly i a ha
    obtain ⟨g, hg, hinner⟩ := h.descended a (List.mem_of_getElem? ha)
    have hdecided := h.decided_flows hsize ha hg hinner
    by_cases hi : i + 1 = s.arrived.length
    · obtain rfl : i = init.length := by omega
      obtain rfl : a = last := Option.some.inj (ha.symm.trans hlast)
      rw [hall, if_pos ((h.again_eq_zero hleaves hg).1 ((honly g hg).2 hinner))] at hdecided
      rwa [if_pos hi]
    · rw [if_neg hi]
      split_ifs at hdecided with hcount
      · -- A fork that is complete before the last token arrives is not that of the last token.
        have hlt : i + 1 ≤ init.length := by
          have := (List.getElem?_eq_some_iff.1 ha).1
          omega
        have hbefore : g.flows ≤ g.arrivals init := by
          rw [← hcount, harrived, List.take_append_of_le_length hlt]
          exact (List.take_sublist _ _).countP_le
        have hinit := g.arrivals_concat init last
        have haccounted := h.accounted g hg
        rw [harrived, hinit] at haccounted
        have hagain : s.again g = 0 := by omega
        rw [if_pos ((honly g hg).1 hagain)] at haccounted
        omega
      · exact hdecided

end Selection

end ProcessEngine

import ProcessEngine.Proofs.Frame.Branches
import ProcessEngine.Proofs.Gateway.ParallelFork

/-!
# The tokens that descend from a fork

A token enters a parallel fork, its branches may be forked again any number of times, and the tokens
that come of it arrive at one parallel join, in any order and with whatever else happens in between.
`Family.Step` is one such event.  `Family.Inv` is what holds on the way: every stack has the frames
around the first fork below the branch that the token belongs to, all branches are represented, the
forks inside different branches are different ones, and the join has merged just the stacks that
have arrived.
-/

namespace ProcessEngine

/-- The tokens that descend from one fork: the stacks of those still on their way, and what became
of those that have arrived at the join, the first one first. -/
structure Family where
  leaves : List (List Frame)
  arrived : List Decision

namespace Family

/-- The family of the tokens that leave a fork. -/
def ofFork (d : Decision) (frames : List Frame) : Family :=
  ⟨(d.cursors frames).map Cursor.frames, []⟩

/-- How many tokens there are or have been, but for those that have been forked. -/
def size (f : Family) : Nat := f.arrived.length + f.leaves.length

/-- Something else happens in the instance: no fork is forgotten, and once a token of the family has
arrived, the join that the others come to stays as it is. -/
structure Undisturbed (p gateway : String) (f : Family) (w w' : Workspace) : Prop where
  sound : w'.Sound
  issued : w.supply.issued ≤ w'.supply.issued
  forks : ForksKept (w.store.states p) (w'.store.states p)
  join : f.arrived ≠ [] → ∀ l ∈ f.leaves,
    w'.store.activeJoin? p gateway (l.head?.map Frame.forkId) =
      w.store.activeJoin? p gateway (l.head?.map Frame.forkId)

/-- The join of a token that is about to arrive holds no arrivals from before the family. -/
def Unclaimed (p gateway : String) (f : Family) (l : List Frame) (w : Workspace) : Prop :=
  f.arrived = [] → w.store.activeJoin? p gateway (l.head?.map Frame.forkId) = none

/-- A token of the family is forked again, or arrives at the join, or something else happens. -/
inductive Step (p gateway : String) (n : Nat) : Family → Workspace → Family → Workspace → Prop
  | fork {r : Request} {d : Decision} {w w' : Workspace} {before after : List (List Frame)}
      {l : List Frame} {arrived : List Decision} (hr : r.Forks p l)
      (hact : r.activate w = .ok d w') :
      Step p gateway n ⟨before ++ l :: after, arrived⟩ w
        ⟨before ++ (d.cursors l).map Cursor.frames ++ after, arrived⟩ w'
  | arrive {r : Request} {d : Decision} {w w' : Workspace} {before after : List (List Frame)}
      {l : List Frame} {arrived : List Decision} (hr : r.Arrives p gateway n l)
      (hunclaimed : Unclaimed p gateway ⟨before ++ l :: after, arrived⟩ l w)
      (hact : r.activate w = .ok d w') :
      Step p gateway n ⟨before ++ l :: after, arrived⟩ w ⟨before ++ after, arrived ++ [d]⟩ w'
  | other {f : Family} {w w' : Workspace} (h : f.Undisturbed p gateway w w') :
      Step p gateway n f w f w'

/-- Any number of steps. -/
inductive Steps (p gateway : String) (n : Nat) (f : Family) (w : Workspace) :
    Family → Workspace → Prop
  | refl : Steps p gateway n f w f w
  | step {g h : Family} {v v' : Workspace} (hsteps : Steps p gateway n f w g v)
      (hstep : Step p gateway n g v h v') : Steps p gateway n f w h v'

/-- What holds of a family that comes from a fork with `m` branches, inside the frames of `base`,
when the stacks in `came` have arrived at a join that waits for `n` of them. -/
structure Inv (p gateway : String) (n : Nat) (base : List Frame) (fork : Frame) (m : Nat)
    (came : List (List Frame)) (f : Family) (w : Workspace) : Prop where
  sound : w.Sound
  carried : ∀ l ∈ came ++ f.leaves, ∀ g ∈ l, g.Carried (w.store.states p)
  spread : Frame.Spread base fork m (came ++ f.leaves)
  counted : f.arrived.length = came.length
  held : came ≠ [] → came.length < n → ∀ l ∈ f.leaves, ∃ j,
    w.store.activeJoin? p gateway (l.head?.map Frame.forkId) = some j ∧
      j.completedBranches = came.length ∧ j.activeBranches = n ∧
      j.arrivedFrames = some (Frame.mergeAll came)
  waits : ∀ i d, f.arrived[i]? = some d → i + 1 < n → d.Waits
  releases : ∀ i d, f.arrived[i]? = some d → i + 1 = n →
    d.Releases ((Frame.mergeAll came).filter (!·.isClosed))

variable {p gateway : String} {n m : Nat} {base : List Frame} {fork : Frame}
  {came : List (List Frame)} {f : Family} {w w' : Workspace}

/-- The tokens of a family have the same outermost fork, so they come to the same join. -/
lemma Inv.key (h : Inv p gateway n base fork m came f w) {k l : List Frame}
    (hk : k ∈ f.leaves) (hl : l ∈ f.leaves) :
    k.head?.map Frame.forkId = l.head?.map Frame.forkId := by
  obtain ⟨b, -, inner, hin⟩ := h.spread.within k (List.mem_append_right _ hk)
  obtain ⟨c, -, other, hin'⟩ := h.spread.within l (List.mem_append_right _ hl)
  rw [show k = _ from hin, show l = _ from hin']
  cases base <;> rfl

/-- The family of a new fork. -/
lemma Inv.ofFork {r : Request} {frames : List Frame} (hr : r.Forks p frames) (hw : w.Sound)
    (hf : ∀ f ∈ frames, f.Carried (w.store.states p)) (hm : r.outgoing.length < 4294967296) :
    ∃ (d : Decision) (w' : Workspace) (fork : Frame), r.activate w = .ok d w' ∧
      fork.branchCount = r.outgoing.length ∧
      Inv p gateway n frames fork r.outgoing.length [] (.ofFork d frames) w' := by
  obtain ⟨d, w', fork, hact, hsound, -, -, hcarried, -, hcount, hstacks, -⟩ := hr.spec hw hf
  have hleaves : (d.cursors frames).map Cursor.frames =
      (List.range r.outgoing.length).map fun b => frames ++ [fork.forBranch b] := by
    rw [hstacks]
    refine List.map_congr_left fun b hb => ?_
    have := List.mem_range.1 hb
    rw [word32, Nat.mod_eq_of_lt (by omega)]
  refine ⟨d, w', fork, hact, hcount.trans (Nat.mod_eq_of_lt hm), hsound, fun l hl => ?_, ?_, rfl,
    fun hcame => absurd rfl hcame, by simp [Family.ofFork], by simp [Family.ofFork]⟩
  · obtain ⟨c, hc, rfl⟩ := List.mem_map.1 (show l ∈ (d.cursors frames).map Cursor.frames from hl)
    exact hcarried c hc
  · rw [List.nil_append, Family.ofFork, hleaves]
    exact Frame.spread_fork frames fork _

/-- A token of the family is forked again. -/
lemma Inv.split {before after : List (List Frame)} {l : List Frame} {arrived : List Decision}
    (h : Inv p gateway n base fork m came ⟨before ++ l :: after, arrived⟩ w) {r : Request}
    {d : Decision} (hr : r.Forks p l) (hact : r.activate w = .ok d w') :
    Inv p gateway n base fork m came
      ⟨before ++ (d.cursors l).map Cursor.frames ++ after, arrived⟩ w' := by
  have hmem : ∀ k, k ∈ l :: (came ++ before ++ after) ↔ k ∈ came ++ (before ++ l :: after) := by
    intro k
    simp only [List.mem_append, List.mem_cons]
    tauto
  obtain ⟨d', v, new, hact', hsound, hissued, hkept, hcarried, hfresh, -, hstacks, hjoin⟩ :=
    hr.spec h.sound (h.carried l ((hmem l).1 List.mem_cons_self))
  obtain ⟨rfl, rfl⟩ := Action.ok_unique hact' hact
  have hnew : ∀ s ∈ l :: (came ++ before ++ after), ∀ g ∈ s, g.forkId ≠ new.forkId := by
    intro s hs g hg heq
    have := (h.sound.states p).known_frame (h.carried s ((hmem s).1 hs) g hg).toSound
    rw [heq] at this
    omega
  have hout := hr.outgoing
  refine ⟨hsound, fun k hk g hg => ?_, ?_, h.counted, fun hcame hlt k hk => ?_, h.waits, h.releases⟩
  · rcases List.mem_append.1 hk with hk | hk
    · exact (h.carried k (List.mem_append_left _ hk) g hg).mono hkept
    · rcases List.mem_append.1 hk with hk | hk
      · rcases List.mem_append.1 hk with hk | hk
        · exact (h.carried k (by simp [hk]) g hg).mono hkept
        · obtain ⟨c, hc, rfl⟩ := List.mem_map.1 hk
          exact hcarried c hc g hg
      · exact (h.carried k (by simp [hk]) g hg).mono hkept
  · have hsplit : Frame.Spread base fork m
        ((d'.cursors l).map Cursor.frames ++ (came ++ before ++ after)) := by
      rw [hstacks]
      exact (h.spread.of_mem_iff hmem).split (by omega) hnew
    refine hsplit.of_mem_iff fun k => ?_
    simp only [List.mem_append]
    tauto
  · obtain ⟨j, hj, hrest⟩ := h.held hcame hlt l (by simp)
    have hkey : k.head?.map Frame.forkId = l.head?.map Frame.forkId := by
      rcases List.mem_append.1 hk with hk | hk
      · rcases List.mem_append.1 hk with hk | hk
        · exact h.key (by simp [hk]) (by simp)
        · have hchild : k ∈ (List.range r.outgoing.length).map fun b =>
              l ++ [new.forBranch (word32 b)] := hstacks ▸ hk
          obtain ⟨b, -, rfl⟩ := List.mem_map.1 hchild
          obtain ⟨c, -, inner, hin⟩ := h.spread.within l (by simp)
          rw [show l = _ from hin]
          cases base <;> rfl
      · exact h.key (by simp [hk]) (by simp)
    rw [hkey, hjoin]
    exact ⟨j, hj, hrest⟩

/-- A token of the family arrives at the join. -/
lemma Inv.arrive {before after : List (List Frame)} {l : List Frame} {arrived : List Decision}
    (h : Inv p gateway n base fork m came ⟨before ++ l :: after, arrived⟩ w) {r : Request}
    {d : Decision} (hr : r.Arrives p gateway n l) (hn : 2 ≤ n) (hlt : n < 4294967296)
    (hsize : came.length < n) (hunclaimed : Unclaimed p gateway ⟨before ++ l :: after, arrived⟩ l w)
    (hact : r.activate w = .ok d w') :
    Inv p gateway n base fork m (came ++ [l]) ⟨before ++ after, arrived ++ [d]⟩ w' := by
  have hmem : ∀ k, k ∈ came ++ [l] ++ (before ++ after) ↔ k ∈ came ++ (before ++ l :: after) := by
    intro k
    simp only [List.mem_append, List.mem_cons, List.not_mem_nil, or_false]
    tauto
  have hleaf : l ∈ before ++ l :: after := by simp
  obtain ⟨d', v, j, hact', hsound, hissued, hkept, hjoin, hopen, hfull⟩ :=
    hr.spec hn hlt h.sound (h.carried l (List.mem_append_right _ hleaf))
  obtain ⟨rfl, rfl⟩ := Action.ok_unique hact' hact
  have hcounted : arrived.length = came.length := h.counted
  have hj : j.completedBranches = came.length + 1 ∧ j.activeBranches = n ∧
      j.arrivedFrames = some (Frame.mergeAll (came ++ [l])) := by
    by_cases hcame : came = []
    · subst hcame
      have hnone := hunclaimed (List.length_eq_zero_iff.1 hcounted)
      rcases hjoin with ⟨-, hone, hactive, hframes⟩ | ⟨o, ho, -⟩
      · exact ⟨hone, hactive, hframes⟩
      · rw [hnone] at ho
        cases ho
    · obtain ⟨o, ho, hcompleted, hactive, hframes⟩ := h.held hcame hsize l hleaf
      rcases hjoin with ⟨hnone, -⟩ | ⟨o', ho', rfl⟩
      · rw [ho] at hnone
        cases hnone
      · rw [ho] at ho'
        cases ho'
        refine ⟨by rw [GatewayState.completedBranches_arrived, hcompleted], hactive, ?_⟩
        rw [GatewayState.arrivedFrames_arrived, hframes, Frame.mergeAll_append_singleton hcame]
  obtain ⟨hcompleted, hactive, hframes⟩ := hj
  have hisFull : j.isFull = decide (came.length + 1 = n) := by
    rw [GatewayState.isFull, hcompleted, hactive]
  refine ⟨hsound, fun k hk g hg => (h.carried k ((hmem k).1 hk) g hg).mono hkept,
    h.spread.of_mem_iff hmem, by simp [hcounted], fun _ hlen k hk => ?_, fun i e he hi => ?_,
    fun i e he hi => ?_⟩
  · rw [List.length_append, List.length_singleton] at hlen
    have hwaits := hopen (by rw [hisFull]; exact decide_eq_false (by omega))
    have hkey := h.key (k := k) (by simp at hk ⊢; tauto) hleaf
    exact ⟨j, hkey ▸ hwaits.2, by rw [hcompleted, List.length_append, List.length_singleton],
      hactive, hframes⟩
  · rcases getElem?_concat_cases he with he | ⟨rfl, rfl⟩
    · exact h.waits i e he hi
    · exact (hopen (by rw [hisFull]; exact decide_eq_false (by omega))).1
  · rcases getElem?_concat_cases he with he | ⟨rfl, rfl⟩
    · have : i < arrived.length := (List.getElem?_eq_some_iff.1 he).1
      omega
    · have hreleases := hfull (by rw [hisFull]; exact decide_eq_true (by omega))
      rwa [GatewayState.handedOn, GatewayState.shared, hframes] at hreleases

/-- Whatever else happens is of no account. -/
lemma Inv.other (h : Inv p gateway n base fork m came f w) (hw : f.Undisturbed p gateway w w') :
    Inv p gateway n base fork m came f w' where
  sound := hw.sound
  carried l hl g hg := (h.carried l hl g hg).mono hw.forks
  spread := h.spread
  counted := h.counted
  held hcame hlt l hl := by
    have harrived : f.arrived ≠ [] := fun hnil => hcame (List.length_eq_zero_iff.1 (by
      rw [← h.counted, hnil, List.length_nil]))
    rw [hw.join harrived l hl]
    exact h.held hcame hlt l hl
  waits := h.waits
  releases := h.releases

/-! ## Other activity -/

/-- Whatever leaves the states of the instance as they are does not disturb the family. -/
lemma undisturbed_of_states (hw : w'.Sound) (hissued : w.supply.issued ≤ w'.supply.issued)
    (hstates : w'.store.states p = w.store.states p) : f.Undisturbed p gateway w w' where
  sound := hw
  issued := hissued
  forks := hstates ▸ ForksKept.refl _
  join _ l _ := by rw [Store.activeJoin?_eq, Store.activeJoin?_eq, hstates]

/-- Nor does any token that comes to another gateway, of this instance or of another one. -/
theorem undisturbed_activate {r : Request} {q : String} (hw : w.Sound) (hq : r.instanceId = some q)
    (hf : ∀ g ∈ r.frames, g.Carried (w.store.states q)) (hne : r.gateway.id ≠ gateway) :
    (∃ e w', r.activate w = .error e w' ∧ f.Undisturbed p gateway w w') ∨
      ∃ d w', r.activate w = .ok d w' ∧ f.Undisturbed p gateway w w' := by
  rcases Request.activate_spec hw hq (fun g hg => (hf g hg).toSound) with
    ⟨e, -, hact⟩ | ⟨d, w', hact, heff, hconf⟩
  · exact .inl ⟨e, _, hact,
      undisturbed_of_states (hw.congr rfl (Nat.le_refl _)) (Nat.le_refl _) rfl⟩
  · obtain ⟨hstates, hkept, -⟩ := heff.sound (hw.states q) hf
    have hsound := hw.confined hconf hstates
    refine .inr ⟨d, w', hact, ?_⟩
    by_cases hp : p = q
    · subst hp
      refine ⟨hsound, hconf.issued, hkept, fun _ l _ => ?_⟩
      rw [Store.activeJoin?_eq, Store.activeJoin?_eq]
      exact heff.find?_elsewhere (hw.states p) (fun g hg => (hf g hg).toSound) hne
    · exact undisturbed_of_states hsound hconf.issued (hconf.others p hp)

/-! ## Runs -/

/-- No step makes a family smaller. -/
lemma Step.size_le {g : Family} (hstep : Step p gateway n f w g w') : f.size ≤ g.size := by
  cases hstep with
  | @fork r d _ _ before after l arrived hr hact =>
    have hlength := hr.length_cursors hact l
    have hout := hr.outgoing
    simp only [size, List.length_append, List.length_cons, List.length_map, hlength]
    omega
  | arrive =>
    simp only [size, List.length_append, List.length_cons, List.length_nil]
    omega
  | other => exact Nat.le_refl _

lemma Steps.size_le {g : Family} (hsteps : Steps p gateway n f w g w') : f.size ≤ g.size := by
  induction hsteps with
  | refl => exact Nat.le_refl _
  | step _ hstep ih => exact ih.trans hstep.size_le

/-- A step keeps the invariant if not more than `n` tokens come of it. -/
lemma Inv.step {g : Family} (h : Inv p gateway n base fork m came f w) (hn : 2 ≤ n)
    (hlt : n < 4294967296) (hstep : Step p gateway n f w g w') (hsize : g.size ≤ n) :
    ∃ came', Inv p gateway n base fork m came' g w' := by
  cases hstep with
  | fork hr hact => exact ⟨came, h.split hr hact⟩
  | arrive hr hunclaimed hact =>
    have hcounted := h.counted
    simp only [size, List.length_append, List.length_singleton] at hsize hcounted
    exact ⟨_, h.arrive hr hn hlt (by omega) hunclaimed hact⟩
  | other hother => exact ⟨came, h.other hother⟩

/-- So does a run. -/
lemma Inv.steps {g : Family} (h : Inv p gateway n base fork m came f w) (hn : 2 ≤ n)
    (hlt : n < 4294967296) (hsteps : Steps p gateway n f w g w') (hsize : g.size ≤ n) :
    ∃ came', Inv p gateway n base fork m came' g w' := by
  induction hsteps with
  | refl => exact ⟨came, h⟩
  | step _ hstep ih =>
    obtain ⟨came', h'⟩ := ih (hstep.size_le.trans hsize)
    exact h'.step hn hlt hstep hsize

/-- When all tokens of the family have arrived, what they have in common is the frames around the
fork and the frame of the fork with all its branches, which is closed. -/
lemma Inv.merged (h : Inv p gateway n base fork m came f w) (hbase : ∀ g ∈ base, g.Tidy)
    (hm : 2 ≤ m) (hlt : m < 4294967296) (hcount : fork.branchCount = m) (hleaves : f.leaves = []) :
    (Frame.mergeAll came).filter (!·.isClosed) = base.filter (!·.isClosed) := by
  have hspread := h.spread
  rw [hleaves, List.append_nil] at hspread
  rw [Frame.mergeAll_branches hbase hm hspread, List.filter_append]
  simp [Frame.isClosed, hcount, word32, Nat.mod_eq_of_lt hlt]

/-- A token with the given frames enters a parallel fork.  Whatever becomes of its branches, as long
as they are only forked again and not more than `n` tokens come of it, no fork and no arrival
fails.  The first `n - 1` tokens to arrive at the join wait.  The last one is released with the
frames that the token had before the fork, less those that are closed. -/
theorem forked_joined {root : Request} {frames : List Frame} (hr : root.Forks p frames)
    (hw : w.Sound) (hf : ∀ f ∈ frames, f.Carried (w.store.states p)) (hn : 2 ≤ n)
    (hlt : n < 4294967296) :
    ∃ d w₀, root.activate w = .ok d w₀ ∧ ∀ f w', Steps p gateway n (.ofFork d frames) w₀ f w' →
      f.size ≤ n →
        (∀ l ∈ f.leaves, ∀ r : Request, r.Forks p l ∨ r.Arrives p gateway n l →
          ∃ d' w'', r.activate w' = .ok d' w'') ∧
        (∀ i d', f.arrived[i]? = some d' → i + 1 < n → d'.Waits) ∧
        ∀ i d', f.arrived[i]? = some d' → i + 1 = n →
          d'.Releases (frames.filter (!·.isClosed)) := by
  obtain ⟨d, w₀, -, hact, -⟩ := hr.spec hw hf
  refine ⟨d, w₀, hact, fun f w' hsteps hsize => ?_⟩
  have hroot : (ofFork d frames).size = root.outgoing.length := by
    simp [size, ofFork, hr.length_cursors hact frames]
  have hm : root.outgoing.length ≤ n := by
    have := hsteps.size_le
    omega
  obtain ⟨d₀, v, fork, hact', hcount, hinv⟩ :=
    @Inv.ofFork p gateway n w root frames hr hw hf (by omega)
  rw [hact] at hact'
  cases hact'
  obtain ⟨came, h⟩ := hinv.steps hn hlt hsteps hsize
  refine ⟨fun l hl r hevent => ?_, h.waits, fun i d' hd' hi => ?_⟩
  · have hcarried := h.carried l (List.mem_append_right _ hl)
    rcases hevent with hforks | harrives
    · obtain ⟨d', w'', -, hok, -⟩ := hforks.spec h.sound hcarried
      exact ⟨d', w'', hok⟩
    · obtain ⟨d', w'', -, hok, -⟩ := harrives.spec hn hlt h.sound hcarried
      exact ⟨d', w'', hok⟩
  · have hindex := (List.getElem?_eq_some_iff.1 hd').1
    have hleaves : f.leaves = [] := List.length_eq_zero_iff.1 (by rw [size] at hsize; omega)
    rw [← h.merged (fun g hg => (hf g hg).tidy) hr.outgoing (by omega) hcount hleaves]
    exact h.releases i d' hd' hi

end Family

end ProcessEngine

import ProcessEngine.Proofs.Frame.Common
import ProcessEngine.Proofs.Store.Operations

/-!
# Arrivals at a join

The tokens that meet at a join arrive one after the other.  A newly opened join takes as many as it
waits for and refuses any more (`recordArrivals_eq`), and after two or more arrivals it holds what
the stacks of all tokens have in common, in whatever order they came (`recorded_in_any_order`).
-/

namespace ProcessEngine

namespace GatewayState

/-- A join at which no token has arrived. -/
structure Opened (s : GatewayState) : Prop where
  kind : s.kind = .join
  isActive : s.isActive = true
  completedBranches : s.completedBranches = 0
  activeBranches : 1 ≤ s.activeBranches
  arrivedFrames : s.arrivedFrames = none

lemma opened_ofJoin (new : NewJoin) (id : Uid) (generation : Nat) :
    (ofJoin new id generation).Opened :=
  ⟨rfl, rfl, rfl, Nat.le_max_right _ _, rfl⟩

/-- A join that is active as long as it waits for more. -/
structure Awaits (s : GatewayState) : Prop where
  kind : s.kind = .join
  isActive : s.isActive = true ↔ s.completedBranches < s.activeBranches
  counted : s.completedBranches ≤ s.activeBranches

lemma Opened.awaits {s : GatewayState} (h : s.Opened) : s.Awaits where
  kind := h.kind
  isActive := by
    have hpos := h.activeBranches
    simp only [h.isActive, h.completedBranches, true_iff]
    omega
  counted := by
    rw [h.completedBranches]
    exact Nat.zero_le _

lemma Awaits.arrived {s : GatewayState} (h : s.Awaits)
    (hopen : s.completedBranches < s.activeBranches) (frames : List Frame) :
    (s.arrived frames).Awaits where
  kind := h.kind
  isActive := by
    rw [isActive_arrived s frames h.kind (h.isActive.2 hopen), completedBranches_arrived,
      activeBranches_arrived]
    omega
  counted := hopen

/-- The stacks of all arrivals are merged, the first one first. -/
lemma arrivedFrames_foldl {s : GatewayState} (h : s.arrivedFrames = none)
    {arrivals : List (List Frame)} (hne : arrivals ≠ []) :
    (arrivals.foldl arrived s).arrivedFrames = some (Frame.mergeAll arrivals) := by
  induction arrivals using List.reverseRecOn with
  | nil => exact absurd rfl hne
  | append_singleton rest frames ih =>
    rw [List.foldl_append, List.foldl_cons, List.foldl_nil, arrivedFrames_arrived]
    by_cases hrest : rest = []
    · subst hrest
      rw [List.foldl_nil, h]
      rfl
    · rw [ih hrest, Frame.mergeAll_append_singleton hrest]

end GatewayState

namespace Store

/-- Records arrivals at a state one after the other; the first one that is refused ends it. -/
def recordArrivals (s : Store) (id : Uid) : List (List Frame) → Except EngineError Store
  | [] => .ok s
  | frames :: rest =>
    match s.recordArrival id frames with
    | .error e => .error e
    | .ok (_, s) => s.recordArrivals id rest

variable {s : Store} {j : GatewayState}

/-- An arrival that a join waits for is counted and folded in. -/
lemma recordArrival_awaited (hj : s.get? j.id = some j) (hactive : j.isActive = true)
    (hopen : j.completedBranches < j.activeBranches) (frames : List Frame) :
    ∃ s', s.recordArrival j.id frames = .ok (j.arrived frames, s') ∧
      s'.get? j.id = some (j.arrived frames) := by
  refine ⟨(s.update j.countBranch).update (j.arrived frames), ?_, ?_⟩
  · rw [recordArrival, increment, hj]
    simp [hactive, Nat.not_le.2 hopen, GatewayState.arrived]
  · have hcounted : (s.update j.countBranch).get? j.countBranch.id = some j.countBranch :=
      get?_update j.countBranch hj
    exact get?_update (j.arrived frames) hcounted

/-- A join takes as many arrivals as it waits for, and refuses the next one. -/
lemma recordArrivals_eq (hj : s.get? j.id = some j) (h : j.Awaits)
    (arrivals : List (List Frame)) :
    if j.completedBranches + arrivals.length ≤ j.activeBranches then
      ∃ s', s.recordArrivals j.id arrivals = .ok s' ∧
        s'.get? j.id = some (arrivals.foldl GatewayState.arrived j)
    else s.recordArrivals j.id arrivals = .error (.joinResolved j.id) := by
  induction arrivals generalizing s j with
  | nil =>
    rw [List.length_nil, Nat.add_zero, if_pos h.counted]
    exact ⟨s, rfl, hj⟩
  | cons frames rest ih =>
    rw [List.length_cons]
    by_cases hopen : j.completedBranches < j.activeBranches
    · obtain ⟨s', hrecorded, hj'⟩ := recordArrival_awaited hj (h.isActive.2 hopen) hopen frames
      have hrest := ih hj' (h.arrived hopen frames)
      rw [GatewayState.completedBranches_arrived, GatewayState.activeBranches_arrived,
        GatewayState.id_arrived, Nat.add_right_comm, Nat.add_assoc] at hrest
      rw [recordArrivals, hrecorded]
      exact hrest
    · have hresolved : j.isActive = false := Bool.eq_false_iff.2 fun hactive =>
        hopen (h.isActive.1 hactive)
      rw [if_neg (by omega), recordArrivals, recordArrival, increment, hj]
      simp [hresolved]

/-- Whatever the order in which tokens arrive at a newly opened join, it holds the same in the end:
what their stacks have in common.  If they are more than the join waits for, it refuses them. -/
theorem recorded_in_any_order {ls : List (List Frame)} (hj : s.get? j.id = some j)
    (hopened : j.Opened) (hmany : 2 ≤ ls.length) (hagree : Frame.Consistent ls) :
    ∃ shared, (∀ l, Frame.Common ls l ↔ l = shared) ∧ ∀ arrivals, arrivals.Perm ls →
      if ls.length ≤ j.activeBranches then
        ∃ s' j', s.recordArrivals j.id arrivals = .ok s' ∧ s'.get? j.id = some j' ∧
          j'.arrivedFrames = some shared
      else s.recordArrivals j.id arrivals = .error (.joinResolved j.id) := by
  have hne : ls ≠ [] := List.ne_nil_of_length_pos (Nat.zero_lt_of_lt hmany)
  have hcommon := Frame.common_mergeAll hmany hagree
  refine ⟨Frame.mergeAll ls, fun l => ⟨fun h => h.eq hcommon hne, fun h => h ▸ hcommon⟩,
    fun arrivals hperm => ?_⟩
  have hrecorded := recordArrivals_eq hj hopened.awaits arrivals
  rw [hopened.completedBranches, Nat.zero_add, hperm.length_eq] at hrecorded
  have hframes : (arrivals.foldl GatewayState.arrived j).arrivedFrames =
      some (Frame.mergeAll ls) := by
    have hsome : arrivals ≠ [] := fun hnil => hne (List.nil_perm.1 (hnil ▸ hperm))
    rw [GatewayState.arrivedFrames_foldl hopened.arrivedFrames hsome]
    have hsame : Frame.Common arrivals (Frame.mergeAll arrivals) :=
      Frame.common_mergeAll (hperm.length_eq ▸ hmany)
        (hagree.of_subset fun l hl => hperm.mem_iff.1 hl)
    rw [(hsame.of_perm hperm).eq hcommon hne]
  split_ifs at hrecorded ⊢ with hroom
  · obtain ⟨s', hok, hj'⟩ := hrecorded
    exact ⟨s', _, hok, hj', hframes⟩
  · exact hrecorded

/-! ### Three tokens out of two forks -/

/-- A join that waits for three tokens. -/
def threefold : Store := (empty.createJoin ⟨"p", none, "j", 3, none⟩ ⟨9⟩).2

/-- The join as it is opened. -/
def threefoldJoin : GatewayState := .ofJoin ⟨"p", none, "j", 3, none⟩ ⟨9⟩ 1

/-- The stacks of three tokens from the branches of a fork, inside of which there is another one. -/
def nestedStacks : List (List Frame) :=
  [[⟨"f", ⟨1⟩, 3, 1, [2]⟩, ⟨"g", ⟨2⟩, 2, 1, [1]⟩],
    [⟨"f", ⟨1⟩, 3, 1, [1, 0, 1]⟩, ⟨"g", ⟨2⟩, 2, 1, [0]⟩, ⟨"h", ⟨3⟩, 2, 1, [0]⟩],
    [⟨"f", ⟨1⟩, 3, 1, [2]⟩, ⟨"g", ⟨2⟩, 2, 1, [0]⟩, ⟨"h", ⟨4⟩, 2, 2, [1]⟩]]

/-- What the stacks of the three tokens have in common. -/
def nestedShared : List Frame := [⟨"f", ⟨1⟩, 3, 1, [0, 1, 2]⟩, ⟨"g", ⟨2⟩, 2, 1, [0, 1]⟩]

/-- What a join holds after arrivals, if they are recorded. -/
def framesAfter (s : Store) (id : Uid) (arrivals : List (List Frame)) : Option (List Frame) :=
  match s.recordArrivals id arrivals with
  | .ok s' => (s'.get? id).bind GatewayState.arrivedFrames
  | .error _ => none

/-- The three tokens may come in any order. -/
theorem recorded_in_any_order_nested :
    threefold.get? threefoldJoin.id = some threefoldJoin ∧ threefoldJoin.Opened ∧
      Frame.Consistent nestedStacks ∧ Frame.Common nestedStacks nestedShared ∧
      ∀ arrivals, arrivals.Perm nestedStacks →
        ∃ s' j', threefold.recordArrivals ⟨9⟩ arrivals = .ok s' ∧ s'.get? ⟨9⟩ = some j' ∧
          j'.arrivedFrames = some nestedShared := by
  have hj : threefold.get? threefoldJoin.id = some threefoldJoin := rfl
  have hopened : threefoldJoin.Opened := GatewayState.opened_ofJoin _ _ _
  have hagree : Frame.Consistent nestedStacks := by
    rw [Frame.Consistent]
    decide
  obtain ⟨shared, hcommon, hrecorded⟩ := recorded_in_any_order hj hopened (by decide) hagree
  have hroom : nestedStacks.length ≤ threefoldJoin.activeBranches := by decide
  simp only [if_pos hroom] at hrecorded
  obtain rfl : nestedShared = shared := by
    obtain ⟨s', j', hok, hget, hframes⟩ := hrecorded nestedStacks (.refl _)
    have hafter : framesAfter threefold threefoldJoin.id nestedStacks = some nestedShared := by
      decide
    rw [framesAfter, hok] at hafter
    simp only [hget, Option.bind_some, hframes] at hafter
    exact (Option.some.inj hafter).symm
  exact ⟨hj, hopened, hagree, (hcommon _).2 rfl, hrecorded⟩

end Store

end ProcessEngine

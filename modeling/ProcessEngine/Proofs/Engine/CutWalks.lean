import ProcessEngine.Proofs.Engine.Reachable
import ProcessEngine.Proofs.Engine.StepCount

/-!
# Walks that are cut

Nothing but a walk reports that a limit was reached: neither a gateway nor a visit does
(`Run.visit_neverCut`), so a walk reports it if and only if a token is in flight after all visits
that it is allowed (`Run.walk_cut_iff`).  An action that walks, and does not look at the limit
otherwise, comes to the same under a higher limit unless it is cut (`Action.CutOnly`).
-/

namespace ProcessEngine

/-- Whether the error says that a walk was cut. -/
def EngineError.isCut : EngineError → Bool
  | .traversalLimitExceeded .. => true
  | _ => false

/-! ## Actions without a walk -/

namespace Action

variable {α β : Type}

/-- An action that does not report that a walk was cut. -/
def NeverCut (a : Action α) : Prop := ∀ w err w', a w = .error err w' → err.isCut = false

lemma neverCut_of_ok {a : Action α} (h : ∀ w, ∃ x w', a w = .ok x w') : a.NeverCut := by
  intro w err w' hfail
  obtain ⟨x, v, hok⟩ := h w
  rw [hok] at hfail
  cases hfail

lemma neverCut_pure (a : α) : (pure a : Action α).NeverCut := neverCut_of_ok fun w => ⟨a, w, rfl⟩

lemma neverCut_throw {err : EngineError} (h : err.isCut = false) :
    (throw err : Action α).NeverCut := by
  intro w err' w' hfail
  cases hfail
  exact h

lemma NeverCut.bind {a : Action α} {f : α → Action β} (ha : a.NeverCut)
    (hf : ∀ x, (f x).NeverCut) : (a >>= f).NeverCut := by
  intro w err w' hfail
  rcases bind_eq_error.1 hfail with hfirst | ⟨x, v, -, hsecond⟩
  · exact ha w err w' hfirst
  · exact hf x v err w' hsecond

/-- If the second part of a sequence does not fail, the sequence fails just as the first part does.
-/
lemma bind_error_iff {a : Action α} {f : α → Action β} (hf : ∀ x v err v', f x v ≠ .error err v')
    {w : Workspace} {err : EngineError} :
    (∃ v, (a >>= f) w = .error err v) ↔ ∃ v, a w = .error err v := by
  simp only [bind_eq_error, hf, and_false, exists_false, or_false]

lemma neverCut_orFail {err : EngineError} (h : err.isCut = false) (o : Option α) :
    (orFail err o).NeverCut := by
  cases o with
  | none => exact neverCut_throw h
  | some a => exact neverCut_pure a

lemma neverCut_onStore {change : Store → Except EngineError (α × Store)}
    (h : ∀ s err, change s = .error err → err.isCut = false) : (onStore change).NeverCut := by
  intro w err w' hfail
  rw [onStore] at hfail
  split at hfail
  · cases hfail
  · next err' herror =>
    cases hfail
    exact h w.store err herror

lemma neverCut_freshUid : freshUid.NeverCut := neverCut_of_ok fun _ => ⟨_, _, rfl⟩

lemma neverCut_publish (events : List Event) : (publish events).NeverCut :=
  neverCut_of_ok fun _ => ⟨_, _, rfl⟩

end Action

namespace Request

open ProcessEngine.Action

variable (r : Request)

lemma completeState_neverCut (id : Uid) : (completeState id).NeverCut := by
  refine neverCut_onStore fun s err h => ?_
  rw [Store.complete] at h
  split at h <;> cases h
  rfl

lemma closeFrames_neverCut (frames : List Frame) : (closeFrames frames).NeverCut := by
  induction frames with
  | nil => exact neverCut_pure []
  | cons f rest ih =>
    rw [closeFrames]
    split_ifs
    · exact (completeState_neverCut f.forkId).bind fun _ => ih
    · exact ih.bind fun _ => neverCut_pure _

lemma recordArrival_neverCut (id : Uid) (frames : List Frame) :
    (onStore (·.recordArrival id frames)).NeverCut := by
  refine neverCut_onStore fun s err h => ?_
  rw [Store.recordArrival, Store.increment] at h
  split at h
  · next hfail =>
    cases h
    split at hfail
    · cases hfail
      rfl
    · split_ifs at hfail <;> cases hfail <;> rfl
  · cases h

lemma join_neverCut (flows : Option Nat) : (r.join flows).NeverCut := by
  refine (neverCut_orFail rfl _).bind fun instanceId => ?_
  split_ifs
  · exact neverCut_pure _
  refine (neverCut_of_ok fun w => ⟨w.store, w, rfl⟩).bind fun store => ?_
  refine neverCut_freshUid.bind fun id => ?_
  refine (neverCut_of_ok fun _ => ⟨_, _, rfl⟩).bind fun state => ?_
  refine (recordArrival_neverCut state.id r.frames).bind fun counted => ?_
  split_ifs
  · have hclosed : NeverCut (closeFrames (counted.arrivedFrames.getD []) >>= fun stillOpen =>
        pure (⟨true, counted.activeBranches, some counted.id, some stillOpen⟩ : Arrival)) :=
      (closeFrames_neverCut _).bind fun _ => neverCut_pure _
    cases (r.joinKey store instanceId flows).closes with
    | none => exact hclosed
    | some fork => exact (completeState_neverCut fork).bind fun _ => hclosed
  · exact neverCut_pure _

lemma recordFork_neverCut (targets : List String) : (r.recordFork targets).NeverCut := by
  rw [recordFork]
  split
  · exact neverCut_pure none
  · exact neverCut_freshUid.bind fun _ =>
      (neverCut_of_ok fun _ => ⟨_, _, rfl⟩).bind fun _ => neverCut_pure _

lemma splitAll_neverCut (d : Decision) : (r.splitAll d).NeverCut := by
  rw [splitAll]
  split_ifs
  · exact (r.recordFork_neverCut _).bind fun _ => neverCut_pure _
  · exact neverCut_pure _

lemma parallel_neverCut : r.parallel.NeverCut := by
  rw [parallel]
  split_ifs
  · exact neverCut_throw rfl
  · split
    · split_ifs
      · refine (r.join_neverCut _).bind fun arrival => ?_
        split_ifs
        · exact r.splitAll_neverCut _
        · exact neverCut_pure _
      · exact r.splitAll_neverCut _
    · exact r.splitAll_neverCut _

lemma inclusiveFork_neverCut : r.inclusiveFork.NeverCut := by
  refine (neverCut_publish _).bind fun _ => ?_
  dsimp only
  split_ifs
  · exact neverCut_throw rfl
  · exact (r.recordFork_neverCut _).bind fun _ => neverCut_pure _

/-- A gateway does not report that a walk was cut. -/
lemma activate_neverCut : r.activate.NeverCut := by
  rw [activate]
  split
  · exact (neverCut_publish _).bind fun _ => (neverCut_orFail rfl _).bind fun _ => neverCut_pure _
  · exact r.parallel_neverCut
  · split_ifs
    · exact r.inclusiveFork_neverCut
    · exact (neverCut_orFail rfl _).bind fun _ => (r.join_neverCut none).bind fun _ =>
        neverCut_pure _
  · rw [eventBased]
    split_ifs
    · exact neverCut_throw rfl
    · exact neverCut_pure _

end Request

namespace Run

open ProcessEngine.Action

variable {d : Definition} {run run' : Run} {w w' : Workspace} {pending : List Cursor}
  {limit : Nat}

lemma park_neverCut (run : Run) (element : String) (wait : Wait) (frames : List Frame) :
    (run.park element wait frames).NeverCut :=
  neverCut_of_ok fun w => ⟨_, _, run.park_apply w element wait frames⟩

lemma visitGateway_neverCut (run : Run) (d : Definition) (g : Gateway) (frames : List Frame) :
    (run.visitGateway d g frames).NeverCut := by
  refine neverCut_freshUid.bind fun execution => ?_
  refine (Request.activate_neverCut _).bind fun decision => ?_
  refine (neverCut_of_ok fun w => ⟨_, _, run.record_apply w _ _ _ _⟩).bind fun recorded => ?_
  split_ifs
  · exact neverCut_pure _
  · exact neverCut_pure _
  · exact (park_neverCut _ _ _ _).bind fun _ => neverCut_pure _

/-- A visit does not report that a walk was cut. -/
theorem visit_neverCut (run : Run) (d : Definition) (c : Cursor) : (run.visit d c).NeverCut := by
  refine (neverCut_orFail rfl _).bind fun element => ?_
  cases element with
  | startEvent _ | serviceTask _ | endEvent _ =>
    exact neverCut_freshUid.bind fun _ =>
      (neverCut_of_ok fun w => ⟨_, _, run.complete_apply w _ _⟩).bind fun _ => neverCut_pure _
  | userTask _ | subProcess _ => exact (park_neverCut _ _ _ _).bind fun _ => neverCut_pure _
  | gateway g => exact run.visitGateway_neverCut d g c.frames

/-- A walk reports that it was cut if and only if a token is in flight after all visits that it is
allowed. -/
theorem walk_cut_iff (d : Definition) (limit : Nat) (pending : List Cursor) (run : Run)
    (w : Workspace) :
    (∃ err v, err.isCut = true ∧ run.walk d limit pending w = .error err v) ↔
      ∃ c rest run' w', WalksIn d limit pending run w (c :: rest) run' w' := by
  constructor
  · rintro ⟨err, v, hcut, hwalk⟩
    obtain ⟨n, hends⟩ := walk_ends d limit pending run w
    rw [hwalk] at hends
    cases hends with
    | refused hn hbefore hvisit =>
      rw [visit_neverCut _ _ _ _ _ _ hvisit] at hcut
      cases hcut
    | cut hbefore => exact ⟨_, _, _, _, hbefore⟩
  · rintro ⟨c, rest, run', w', hwalk⟩
    exact ⟨_, w', rfl, hwalk.walk_cut⟩

end Run

/-! ## Actions with a walk -/

/-- An action that depends on the limit only in that a low limit cuts it. -/
def Action.CutOnly {α : Type} (a : Nat → Action α) : Prop :=
  ∀ m m', m ≤ m' → ∀ w, (∀ err v, a m w = .error err v → err.isCut = false) → a m' w = a m w

namespace Action.CutOnly

variable {α β : Type} {a : Nat → Action α}

lemma const (a : Action α) : CutOnly fun _ => a := fun _ _ _ _ _ => rfl

lemma walk (run : Run) (d : Definition) (pending : List Cursor) :
    CutOnly fun m => run.walk d m pending := by
  intro m m' hle w huncut
  obtain ⟨n, hends⟩ := Run.walk_ends d m pending run w
  refine hends.walk_mono (fun id v hcut => ?_) hle
  cases huncut _ v hcut

lemma bind {f : Nat → α → Action β} (ha : CutOnly a) (hf : ∀ x, CutOnly fun m => f m x) :
    CutOnly fun m => a m >>= f m := by
  intro m m' hle w huncut
  -- If the first part were cut under the low limit, the sequence would be.
  have hfirst : a m' w = a m w :=
    ha m m' hle w fun err v hfail => huncut err v (bind_of_error hfail _)
  change (a m' >>= f m') w = (a m >>= f m) w
  cases h : a m w with
  | error err v => rw [bind_of_error (hfirst.trans h), bind_of_error h]
  | ok x v =>
    rw [bind_of_ok (hfirst.trans h), bind_of_ok h]
    exact hf x m m' hle v fun err v' hfail => huncut err v' ((bind_of_ok h _).trans hfail)

lemma undoing (ha : CutOnly a) (id : String) : CutOnly fun m => Engine.undoing id (a m) := by
  intro m m' hle w huncut
  have hsame : a m' w = a m w := by
    refine ha m m' hle w fun err v hfail => huncut err
      { v with store := v.store.restore id (w.store.states id) } ?_
    simp only [Engine.undoing, hfail]
  simp only [Engine.undoing, hsame]

end Action.CutOnly

namespace Engine

open ProcessEngine.Action

lemma firstWalk_cutOnly (run : Run) (d : Definition) (first : Node) :
    CutOnly fun m => firstWalk run d m first :=
  (CutOnly.walk run d _).bind fun _ => .const _

lemma continuation_cutOnly (id : String) (task : Option String) (updates : Option Variables)
    (r : Registered) : CutOnly fun m => continuation m id task updates r := by
  cases task with
  | none => exact .const _
  | some task =>
    exact (CutOnly.const _).bind fun taken =>
      ((CutOnly.walk taken.2 r.definition _).undoing _).bind fun _ => .const _

end Engine

end ProcessEngine

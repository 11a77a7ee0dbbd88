import ProcessEngine.Proofs.Engine.Ending
import ProcessEngine.Proofs.Renaming.Calls

/-!
# Failed calls

A call that fails may have made forks, counted arrivals, released joins and completed forks before
it failed.  None of it is left: the registered instances, the states of every instance in their
order, and the records are as before, and only evaluations were published.  What does remain is that
identifiers were issued, the clock was read and generations were given out.  So later calls come to
the same as if the failed call had not been made, up to these (`failed_call_invisible`).
-/

namespace ProcessEngine

/-! ## Identifiers that were issued in vain -/

/-- The first `n` identifiers stay, and those after them come after the first `m`. -/
def Renaming.shift (n m : Nat) : Renaming where
  names := Equiv.refl String
  uid u := if u.value ≤ n then u else ⟨u.value + (m - n)⟩
  uid_injective u v h := by
    dsimp only at h
    split_ifs at h with hu hv hv
    · exact h
    · have := congrArg Uid.value h
      simp only at this
      omega
    · have := congrArg Uid.value h
      simp only at this
      omega
    · have := congrArg Uid.value h
      simp only at this
      exact congrArg Uid.mk (show u.value = v.value by omega)

section Shift

variable {n m : Nat}

lemma Renaming.uid_shift {u : Uid} (hu : u.value ≤ n) : (shift n m).uid u = u := if_pos hu

lemma map_seen_shift {frames : List Frame} (h : ∀ f ∈ frames, f.forkId.value ≤ n) :
    frames.map (Frame.seen (.shift n m)) = frames.map (Frame.seen .same) := by
  refine List.map_congr_left fun f hf => ?_
  rw [Frame.seen, Frame.seen, Renaming.uid_shift (h f hf)]
  rfl

/-- In a list of states in good order all identifiers were issued. -/
lemma seen_shift {p : String} {states : List GatewayState} (h : SoundStates p n states)
    {s : GatewayState} (hs : s ∈ states) : s.seen (.shift n m) = s.seen .same := by
  have hid : (Renaming.shift n m).uid s.id = s.id := Renaming.uid_shift (h.known s hs)
  have hcorrelation : s.correlationId.map (Renaming.shift n m).uid =
      s.correlationId.map Renaming.same.uid := by
    cases hu : s.correlationId with
    | none => rfl
    | some u =>
      cases hk : s.kind with
      | fork =>
        rw [(h.forks s hs hk).unscoped] at hu
        cases hu
      | join =>
        obtain ⟨o, ho, -, rfl⟩ := (h.joins s hs hk).scope u hu
        rw [Option.map_some, Renaming.uid_shift (h.known o ho)]
        rfl
  have hframes : s.arrivedFrames.map (List.map (Frame.seen (.shift n m))) =
      s.arrivedFrames.map (List.map (Frame.seen .same)) := by
    cases hk : s.kind with
    | fork =>
      rw [(h.forks s hs hk).unreached]
      rfl
    | join =>
      obtain ⟨fs, hfs, hsound⟩ := (h.joins s hs hk).frames
      rw [hfs, Option.map_some, Option.map_some,
        map_seen_shift fun f hf => h.known_frame (hsound f hf)]
  rw [GatewayState.seen, GatewayState.seen, hid, hcorrelation, hframes]
  rfl

end Shift

namespace Engine

variable {e : Engine}

/-- An engine in which nothing has happened that anybody could see looks the same. -/
lemma Sound.alike_unseen (h : e.Sound) {w : Workspace} (hu : Unseen e.workspace w) :
    e.Alike (.shift e.workspace.supply.issued w.supply.issued) { e with workspace := w } where
  config := rfl
  registered id := by
    cases hr : e.registered? id with
    | none =>
      rw [show Engine.registered? { e with workspace := w }
        ((Renaming.shift e.workspace.supply.issued w.supply.issued).names id) = none from hr]
      rfl
    | some r =>
      rw [show Engine.registered? { e with workspace := w }
        ((Renaming.shift e.workspace.supply.issued w.supply.issued).names id) = some r from hr]
      have htokens : r.current.tokens.map
          (Token.seen (.shift e.workspace.supply.issued w.supply.issued)) =
          r.current.tokens.map (Token.seen .same) := by
        refine List.map_congr_left fun t ht => ?_
        have hlive : r.current.isEnded = false := by
          by_contra hended
          rw [h.ended id r hr (by simpa using hended)] at ht
          cases ht
        rw [Token.seen, Token.seen, map_seen_shift fun f hf => (h.workspace.states id).known_frame
          ((h.kept id r hr hlive).frames t ht f hf).toSound]
      rw [Option.map_some, Option.map_some, Registered.seen, Registered.seen, Instance.seen,
        Instance.seen, htokens]
      rfl
  workspace := by
    refine ⟨fun q => ?_, fun k => ?_⟩
    · rw [show w.store.states ((Renaming.shift e.workspace.supply.issued w.supply.issued).names q) =
        e.workspace.store.states q from hu.states q]
      exact List.map_congr_left fun s hs => seen_shift (h.workspace.states q) hs
    · have hissued := hu.issued
      have hnew : ¬e.workspace.supply.issued + 1 + k ≤ e.workspace.supply.issued := by omega
      refine (if_neg hnew).trans (congrArg Uid.mk ?_)
      show e.workspace.supply.issued + 1 + k + (w.supply.issued - e.workspace.supply.issued) =
        w.supply.issued + 1 + k
      omega

/-- Whether a call fails. -/
def fails (e : Engine) (c : Call) : Bool :=
  match (e.call c).1 with
  | .error _ => true
  | .ok _ => false

/-- Nothing that matters has happened between two states of an engine.  What is registered, what is
stored for each instance and what is recorded is the same, in the same order, and evaluations are
all that was published.  Every sequence of calls goes on from the one state as it does from the
other: the same results, events, records, instances and states, but for times, generations, and
identifiers that are handed out from then on. -/
structure Unnoticed (e later : Engine) : Prop where
  registry : later.registry = e.registry
  instanceIds : later.instanceIds = e.instanceIds
  states : ∀ id, later.workspace.store.states id = e.workspace.store.states id
  coordinator : later.coordinator = e.coordinator
  published : ∃ events : List Event, (∀ x ∈ events, x.isEvaluation = true) ∧
    later.workspace.bus = e.workspace.bus.publishAll events
  course : ∃ κ : Renaming, (∀ id, κ.names id = id) ∧
    (∀ u, u.value ≤ e.workspace.supply.issued → κ.uid u = u) ∧ e.Alike κ later ∧
      ∀ cs, SameCourse κ e later cs

/-- A call that fails goes unnoticed, wherever in the traversal it fails. -/
theorem failed_call_invisible {c : Call} (h : e.Reachable) (hfails : e.fails c = true) :
    e.Unnoticed (e.call c).2 := by
  have hsound := h.sound
  have hsound' := (h.call c).sound
  have houtcome := call_outcome hsound c
  rw [fails] at hfails
  generalize e.call c = result at houtcome hfails hsound'
  cases houtcome with
  | @failed _ err w hpending hunseen =>
    have halike := hsound.alike_unseen hunseen
    exact ⟨rfl, rfl, hunseen.states, rfl, hunseen.published, _, fun _ => rfl,
      fun u hu => Renaming.uid_shift hu, halike, halike.sameCourse hsound hsound'⟩
  | committed => cases hfails
  | terminated => cases hfails

/-! ## A start that fails late -/

/-- A fork and a join that are passed before an element is missing. -/
def brokenEnd : Definition :=
  { Definition.empty "broken" with
    startEvents := [.unnamed "start"]
    serviceTasks := [.unnamed "a", .unnamed "b"]
    gateways := [.unnamed "fork" .parallel none, .unnamed "join" .parallel none]
    flows := [⟨"f1", "start", "fork", none⟩, ⟨"f2", "fork", "a", none⟩, ⟨"f3", "fork", "b", none⟩,
      ⟨"f4", "a", "join", none⟩, ⟨"f5", "b", "join", none⟩, ⟨"f6", "join", "missing", none⟩] }

/-- A start that fails after a join was released goes unnoticed. -/
theorem failed_call_invisible_broken :
    small.fails (.start brokenEnd "key" none) = true ∧
      small.Unnoticed (small.call (.start brokenEnd "key" none)).2 := by
  have hfails : small.fails (.start brokenEnd "key" none) = true := by decide +kernel
  exact ⟨hfails, failed_call_invisible reachable_small hfails⟩

end Engine

end ProcessEngine

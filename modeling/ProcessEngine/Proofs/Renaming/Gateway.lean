import ProcessEngine.Proofs.Gateway.Effect
import ProcessEngine.Proofs.Renaming.States

/-!
# Activations seen through a renaming

What an activation comes to is settled by what can be seen of the request and of the states of the
instance, but for the generations and the identifiers that it hands out (`Effect.eq_comesTo`).  So
two activations that look the same before come to what looks the same (`comesTo_seen`).
-/

namespace ProcessEngine

/-! ## What is seen of decisions, errors and events -/

/-- A decision as it is seen. -/
def Decision.seen (κ : Renaming) (d : Decision) : Decision :=
  { d with
    forkFrame := d.forkFrame.map (Frame.seen κ)
    continueFrames := d.continueFrames.map (List.map (Frame.seen κ))
    stateId := d.stateId.map κ.uid }

/-- A token in flight as it is seen. -/
def Cursor.seen (κ : Renaming) (c : Cursor) : Cursor :=
  { c with frames := c.frames.map (Frame.seen κ) }

lemma Decision.cursors_seen (κ : Renaming) (d : Decision) (frames : List Frame) :
    (d.seen κ).cursors (frames.map (Frame.seen κ)) = (d.cursors frames).map (Cursor.seen κ) := by
  obtain ⟨next, needsWait, isFork, isJoin, activeBranches, forkFrame, continueFrames, stateId⟩ := d
  refine List.ext_getElem (by simp [cursors, seen]) fun i h₁ h₂ => ?_
  cases forkFrame <;> cases continueFrames <;>
    simp [cursors, seen, Cursor.seen, Frame.seen_forBranch]

/-- An error as it is seen. -/
def EngineError.seen (κ : Renaming) : EngineError → EngineError
  | .instanceNotFound i => .instanceNotFound (κ.names i)
  | .instanceEnded i => .instanceEnded (κ.names i)
  | .taskNotActive i element => .taskNotActive (κ.names i) element
  | .tokenSuspended i element => .tokenSuspended (κ.names i) element
  | .noSuspendedElement i => .noSuspendedElement (κ.names i)
  | .traversalLimitExceeded i limit => .traversalLimitExceeded (κ.names i) limit
  | .stateNotFound s => .stateNotFound (κ.uid s)
  | .branchCountExceeded s n => .branchCountExceeded (κ.uid s) n
  | .joinResolved s => .joinResolved (κ.uid s)
  | e => e

/-- An event as it is seen. -/
def Event.seen (κ : Renaming) : Event → Event
  | .processStart i definition businessKey => .processStart (κ.names i) definition businessKey
  | .processStarted i => .processStarted (κ.names i)
  | .processContinue i task => .processContinue (κ.names i) task
  | .processSuspend i element => .processSuspend (κ.names i) element
  | .processSuspended i elements => .processSuspended (κ.names i) elements
  | .processResume i element => .processResume (κ.names i) element
  | .processResumed i elements => .processResumed (κ.names i) elements
  | .processEnd i => .processEnd (κ.names i)
  | .processTerminate i reason => .processTerminate (κ.names i) reason
  | .processTerminated i reason => .processTerminated (κ.names i) reason
  | .taskCreated i task name => .taskCreated (κ.names i) task name
  | e => e

lemma Event.seen_of_isEvaluation (κ : Renaming) {e : Event} (h : e.isEvaluation = true) :
    e.seen κ = e := by
  cases e <;> first | rfl | cases h

/-- Evaluations look the same through every renaming. -/
lemma map_seen_evaluations (κ : Renaming) {es : List Event}
    (h : ∀ e ∈ es, e.isEvaluation = true) : es.map (Event.seen κ) = es := by
  conv_rhs => rw [← List.map_id es]
  exact List.map_congr_left fun e he => Event.seen_of_isEvaluation κ (h e he)

/-! ## What an activation comes to -/

namespace Request

/-- What the course of a token comes to, with the generations of the join and of the fork that it
may make: the decision, the identifiers issued then, and the states of the instance then. -/
def comesTo (r : Request) (p : String) (issued : Nat) (states : List GatewayState)
    (generation forkGeneration : Nat) : Option (Decision × Nat × List GatewayState) :=
  match r.course with
  | .refuse _ => none
  | .pass d => some (d, issued, states)
  | .split targets =>
    let fork := r.newFork p targets ⟨issued + 1⟩ forkGeneration
    some ((Decision.to []).forked targets fork, issued + 1, states ++ [fork])
  | .meet flows targets =>
    let j := (r.arrival p flows states ⟨issued + 1⟩ generation).1
    let later := r.arrivalStates p flows states ⟨issued + 1⟩ generation
    let fork := r.newFork p targets ⟨issued + 2⟩ forkGeneration
    if !j.isFull then some (.waiting j, issued + 1, later)
    else if 1 < targets.length then
      some ((Decision.released j targets).forked targets fork, issued + 2, later ++ [fork])
    else some (.released j targets, issued + 1, later)

variable {r s : Request} {p : String} {issued issued' : Nat} {states states' : List GatewayState}
  {d : Decision}

/-- An effect is what the course comes to with some generations. -/
lemma Effect.eq_comesTo (heff : r.Effect p issued states d issued' states') :
    ∃ generation forkGeneration,
      r.comesTo p issued states generation forkGeneration = some (d, issued', states') := by
  cases heff with
  | pass hcourse => exact ⟨0, 0, by rw [comesTo, hcourse]⟩
  | split generation hcourse => exact ⟨0, generation, by rw [comesTo, hcourse]⟩
  | wait generation hcourse hfull =>
    refine ⟨generation, 0, ?_⟩
    rw [comesTo, hcourse]
    simp only [hfull, Bool.not_false, if_true]
  | release generation hcourse hfull hone =>
    refine ⟨generation, 0, ?_⟩
    rw [comesTo, hcourse]
    simp only [hfull, Bool.not_true, Bool.false_eq_true, if_false, if_neg hone]
  | releaseSplit generation forkGeneration hcourse hfull hmany =>
    refine ⟨generation, forkGeneration, ?_⟩
    rw [comesTo, hcourse]
    simp only [hfull, Bool.not_true, Bool.false_eq_true, if_false, if_pos hmany]

/-- What is seen of what an activation comes to does not depend on the generations. -/
lemma comesTo_seen (κ : Renaming) (p : String) (issued : Nat) (states : List GatewayState)
    {first : Nat} (h₁ : κ.uid ⟨issued + 1⟩ = ⟨first + 1⟩)
    (h₂ : κ.uid ⟨issued + 2⟩ = ⟨first + 2⟩) (r : Request) (generation forkGeneration : Nat) :
    (r.seen κ).comesTo (κ.names p) first (states.map (GatewayState.seen κ)) 0 0 =
      (r.comesTo p issued states generation forkGeneration).map fun (d, later, states') =>
        (d.seen κ, first + (later - issued), states'.map (GatewayState.seen κ)) := by
  have hfork : ∀ targets id, (r.seen κ).newFork (κ.names p) targets (κ.uid id) 0 =
      (r.newFork p targets id forkGeneration).seen κ := fun _ _ => rfl
  have hpass : ∀ d, r.course = .pass d → d.seen κ = d := by
    intro d hcourse
    obtain ⟨hfork, hcontinue, hstate, -⟩ := course_pass hcourse
    rw [Decision.seen, hfork, hcontinue, hstate]
    cases d
    simp_all
  rw [comesTo, comesTo, course_seen]
  cases hcourse : r.course with
  | refuse e => rfl
  | pass d => simp only [Option.map_some, hpass d hcourse, Nat.sub_self, Nat.add_zero]
  | split targets =>
    simp only [Option.map_some, ← h₁, hfork, Nat.add_sub_cancel_left, List.map_append,
      List.map_cons, List.map_nil]
    rfl
  | meet flows targets =>
    have harrival := r.arrival_seen κ p flows states ⟨issued + 1⟩ generation
    have hstates := r.arrivalStates_seen κ p flows states ⟨issued + 1⟩ generation
    rw [h₁] at harrival hstates
    simp only [harrival, hstates, GatewayState.isFull_seen, ← h₂, hfork]
    split_ifs
    · simp only [Option.map_some, Nat.add_sub_cancel_left]
      rfl
    · simp only [Option.map_some, Nat.add_sub_cancel_left, List.map_append, List.map_cons,
        List.map_nil, Decision.released, GatewayState.handedOn_seen]
      rfl
    · simp only [Option.map_some, Nat.add_sub_cancel_left, Decision.released,
        GatewayState.handedOn_seen]
      rfl

end Request

end ProcessEngine

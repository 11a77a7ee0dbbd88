import ProcessEngine.Proofs.Engine.Lasting
import ProcessEngine.Proofs.Gateway.Outlets

/-!
# Why calls fail

A walk fails when it has visited as many elements as are allowed, or when a token comes to an
element that is not in the definition or to a gateway that refuses it (`Halts`).  A start fails if
there is no start event or its walk fails (`start_error`); an instance is not continued if it is not
there or has ended, if no token waits for the task or the token is suspended, or if the walk fails
(`continueInstance_error`).
-/

namespace ProcessEngine

namespace Run

variable {d : Definition} {run run' : Run} {w w' : Workspace} {pending : List Cursor}
  {err : EngineError}

/-- A traversal fails where the limit is reached, or where a token is refused. -/
theorem traverse_error {limit left : Nat} (hw : w.Sound) (hk : (run.stage pending w).Kept d)
    (h : traverse d limit left pending run w = .error err w') :
    err = .traversalLimitExceeded run.current.id limit ∨
      ∃ c rest run₁ w₁, Walks d pending run w (c :: rest) run₁ w₁ ∧ Refused d run₁ c err := by
  induction left generalizing pending run w with
  | zero =>
    cases pending with
    | nil => cases h
    | cons c rest =>
      cases h
      exact .inl rfl
  | succ left ih =>
    cases pending with
    | nil => cases h
    | cons c rest =>
      rw [traverse_cons, Action.bind_eq_error] at h
      rcases h with hvisit | ⟨⟨next, run₁⟩, w₁, hvisit, hrest⟩
      · rcases visit_spec (d := d) hw (hk.pending c List.mem_cons_self) with
          ⟨e, v, herror, hrefused, -⟩ | ⟨next, run₁, v, hok, -⟩
        · rw [hvisit] at herror
          cases herror
          exact .inr ⟨c, rest, run, w, .refl _ _ _, hrefused⟩
        · rw [hvisit] at hok
          cases hok
      · obtain ⟨hw₁, hk₁, hid₁, -⟩ := visit_kept hw hk hvisit
        rcases ih hw₁ hk₁ hrest with hlimit | ⟨c', rest', run₂, w₂, hwalk, hrefused⟩
        · exact .inl (by rw [hlimit, hid₁])
        · exact .inr ⟨c', rest', run₂, w₂, .visit hvisit hwalk, hrefused⟩

/-- Ending an instance does not fail. -/
lemma finish_ne_error : run.finish w ≠ .error err w' := by
  intro hfail
  rw [finish] at hfail
  split_ifs at hfail
  · obtain ⟨ended, supply, hclose, -⟩ := close_spec run w
    rw [Action.bind_of_ok hclose] at hfail
    cases hfail
  · cases hfail

end Run

/-- Why the walk of an instance fails. -/
inductive Halts (d : Definition) (limit : Nat) : EngineError → Prop
  | limit (id : String) : Halts d limit (.traversalLimitExceeded id limit)
  | refused {c : Cursor} {rest : List Cursor} {run : Run} {w : Workspace} {err : EngineError}
      (hreaches : Reaches d (c :: rest) run w) (hrefused : Refused d run c err) : Halts d limit err

namespace Engine

variable {e : Engine} {d : Definition} {err : EngineError}

/-- Why a call has failed, if it has. -/
def failure? : Except EngineError Instance → Option EngineError
  | .error err => some err
  | .ok _ => none

lemma error_of_failure? {result : Except EngineError Instance}
    (h : failure? result = some err) : result = .error err := by
  cases result with
  | error err' => rw [Option.some.inj h]
  | ok i => cases h

/-! ## Starting -/

/-- Why an instance is not started. -/
inductive StartFails (e : Engine) (d : Definition) : EngineError → Prop
  | noStart (h : d.startEvents = []) : StartFails e d (.noStartEvent d.id)
  | halts {err : EngineError} (h : Halts d e.config.maxTraversalSteps err) : StartFails e d err

/-- There is no other reason. -/
theorem start_error (h : e.Reachable) {businessKey : String} {vars : Option Variables}
    (hfail : (e.start d businessKey vars).1 = .error err) : e.StartFails d err := by
  cases hstart : d.startEvents with
  | nil =>
    rw [start, hstart] at hfail
    cases hfail
    exact .noStart hstart
  | cons first rest =>
    obtain ⟨run, supply, hopening⟩ : ∃ run supply,
        opening e.workspace.supply d businessKey (vars.getD []) = (run, supply) := ⟨_, _, rfl⟩
    obtain ⟨htokens, hhistory, hnone, hsound⟩ := opening_spec h.sound hopening
    have hstage : (run.stage [⟨first.id, []⟩] { e.workspace with supply }).Kept d :=
      .fresh hsound htokens hhistory hnone first.id
    rw [start_eq e hstart hopening] at hfail
    split at hfail
    · cases hfail
    · next err' w' hwalk =>
      obtain rfl : err' = err := Except.error.inj hfail
      rw [firstWalk, Action.bind_eq_error] at hwalk
      rcases hwalk with hwalk | ⟨run₁, w₁, -, hfinish⟩
      · rcases Run.traverse_error hsound hstage hwalk with
          rfl | ⟨c, rest', run₁, w₁, hwalks, hrefused⟩
        · exact .halts (.limit _)
        · exact .halts (.refused (.start h hstart hopening hwalks) hrefused)
      · exact absurd hfinish Run.finish_ne_error

/-! ## Continuing -/

/-- Why an instance is not continued. -/
inductive ProceedFails (e : Engine) (id : String) : Option String → EngineError → Prop
  | unknown {task : Option String} (h : e.registered? id = none) :
      ProceedFails e id task (.instanceNotFound id)
  | ended {task : Option String} {r : Registered} (h : e.registered? id = some r)
      (hended : r.current.isEnded = true) : ProceedFails e id task (.instanceEnded id)
  | notActive {task : String} {r : Registered} (h : e.registered? id = some r)
      (hnone : r.current.tokens.find? (·.accepts task) = none) :
      ProceedFails e id (some task) (.taskNotActive id task)
  | suspended {task : String} {r : Registered} {token : Token} (h : e.registered? id = some r)
      (hfind : r.current.tokens.find? (·.accepts task) = some token)
      (hsuspended : token.suspended = true) :
      ProceedFails e id (some task) (.tokenSuspended id task)
  | noElement {task : String} {r : Registered} {token : Token} (h : e.registered? id = some r)
      (hlive : r.current.isEnded = false)
      (hfind : r.current.tokens.find? (·.accepts task) = some token)
      (hnone : r.definition.element? task = none) :
      ProceedFails e id (some task) (.elementNotFound r.definition.id task)
  | halts {task : String} {r : Registered} {err : EngineError} (h : e.registered? id = some r)
      (hhalts : Halts r.definition e.config.maxTraversalSteps err) :
      ProceedFails e id (some task) err

/-- A call on a live instance fails if there is no such instance, or if its action does. -/
lemma onLive_error {id : String} {action : Registered → Action Run}
    (hfail : (e.onLive id action).1 = .error err) :
    (e.registered? id = none ∧ err = .instanceNotFound id) ∨
      ∃ r, e.registered? id = some r ∧
        (r.current.isEnded = true ∧ err = .instanceEnded id ∨
          r.current.isEnded = false ∧ ∃ w, action r e.workspace = .error err w) := by
  rw [onLive] at hfail
  cases hregistered : e.registered? id with
  | none =>
    rw [live_unknown hregistered] at hfail
    cases hfail
    exact .inl ⟨rfl, rfl⟩
  | some r =>
    refine .inr ⟨r, rfl, ?_⟩
    cases hended : r.current.isEnded with
    | true =>
      rw [live_ended hregistered hended] at hfail
      cases hfail
      exact .inl ⟨rfl, rfl⟩
    | false =>
      rw [live_running hregistered hended] at hfail
      simp only [carryOut] at hfail
      cases haction : action r e.workspace with
      | ok run w =>
        rw [perform_ok haction] at hfail
        cases hfail
      | error err' w =>
        rw [perform_error haction] at hfail
        obtain rfl : err' = err := Except.error.inj hfail
        exact .inr ⟨rfl, w, rfl⟩

section Task

variable {run : Run} {task : String} {w w' : Workspace}

/-- A task is not completed if no token accepts it, or the first one that does is suspended, or the
definition has no such element. -/
lemma completeTask_error (h : completeTask run d task w = .error err w') :
    (run.current.tokens.find? (·.accepts task) = none ∧ err = .taskNotActive run.current.id task) ∨
      ∃ token, run.current.tokens.find? (·.accepts task) = some token ∧
        (token.suspended = true ∧ err = .tokenSuspended run.current.id task ∨
          d.element? task = none ∧ err = .elementNotFound d.id task) := by
  rw [completeTask_eq] at h
  split at h
  · next hnone =>
    cases h
    exact .inl ⟨hnone, rfl⟩
  · next token hfind =>
    refine .inr ⟨token, hfind, ?_⟩
    split_ifs at h with hsuspended
    · cases h
      exact .inl ⟨hsuspended, rfl⟩
    · split at h
      · next hnone =>
        cases h
        exact .inr ⟨hnone, rfl⟩
      · cases h

/-- Going on from a task fails if the task is not completed, or if the walk from it fails. -/
lemma continueFrom_error {limit : Nat} (hw : w.Sound)
    (hk : Kept d run.current (w.store.states run.current.id))
    (h : continueFrom run d limit task w = .error err w') :
    (∃ w₁, completeTask run d task w = .error err w₁) ∨
      ∃ token run₁ w₁, completeTask run d task w = .ok (token, run₁) w₁ ∧
        (err = .traversalLimitExceeded run₁.current.id limit ∨ ∃ c rest run₂ w₂,
          Run.Walks d (d.leave task token.frames) run₁ w₁ (c :: rest) run₂ w₂ ∧
            Refused d run₂ c err) := by
  rw [continueFrom, Action.bind_eq_error] at h
  rcases h with htask | ⟨⟨token, run₁⟩, w₁, htask, hrest⟩
  · exact .inl ⟨w', htask⟩
  refine .inr ⟨token, run₁, w₁, htask, ?_⟩
  obtain ⟨hw₁, hstage, -, -⟩ := completeTask_kept hw hk htask
  rw [Action.bind_eq_error] at hrest
  rcases hrest with hundoing | ⟨run₂, w₂, -, hfinish⟩
  · rw [undoing] at hundoing
    split at hundoing
    · cases hundoing
    · next err' w₂ hwalk =>
      cases hundoing
      exact Run.traverse_error hw₁ hstage hwalk
  · exact absurd hfinish Run.finish_ne_error

end Task

/-- There is no other reason. -/
theorem continueInstance_error (h : e.Reachable) {id : String} {task : Option String}
    {updates : Option Variables}
    (hfail : (e.continueInstance id task updates).1 = .error err) :
    e.ProceedFails id task err := by
  rw [continueInstance_eq] at hfail
  rcases onLive_error hfail with ⟨hnone, rfl⟩ | ⟨r, hr, ⟨hended, rfl⟩ | ⟨hlive, w, haction⟩⟩
  · exact .unknown hnone
  · exact .ended hr hended
  cases task with
  | none => cases haction
  | some task =>
    have hid := (h.sound.known id r hr).1
    have hkept := h.sound.kept id r hr hlive
    rw [← hid] at hkept
    have hmerged := hkept.mergeVariables (updates.getD [])
    rcases continueFrom_error h.sound.workspace hmerged haction with
      ⟨w₁, htask⟩ | ⟨token, run₁, w₁, htask, rfl | ⟨c, rest, run₂, w₂, hwalk, hrefused⟩⟩
    · rcases completeTask_error htask with
        ⟨hnone, rfl⟩ | ⟨token, hfind, ⟨hsuspended, rfl⟩ | ⟨hnone, rfl⟩⟩
      · exact hid ▸ .notActive (hid ▸ hr) hnone
      · exact hid ▸ .suspended (hid ▸ hr) hfind hsuspended
      · exact .noElement hr hlive hfind hnone
    · exact .halts hr (.limit _)
    · exact .halts hr (.refused (.proceed h hr hlive htask hwalk) hrefused)

end Engine

end ProcessEngine

import ProcessEngine.Proofs.Engine.Reachable

/-!
# The stages that tokens are seen at

A token is parked between the calls to an engine, and parked or in flight during the walk of a call.
`Reaches` takes in all these stages, and `Reaches.kept` carries the invariant of reachable engines
to them.
-/

namespace ProcessEngine

/-- An instance that is about to be started has no tokens, no history and no states. -/
lemma Engine.opening_spec {d : Definition} {run : Run} {e : Engine} (h : e.Sound)
    {businessKey : String} {vars : Variables} {supply : Supply}
    (hopening : Engine.opening e.workspace.supply d businessKey vars = (run, supply)) :
    run.current.tokens = [] ∧ run.current.history = [] ∧
      e.workspace.store.states run.current.id = [] ∧
      Workspace.Sound { e.workspace with supply } := by
  have hrun : run = (Engine.opening e.workspace.supply d businessKey vars).1 := by rw [hopening]
  have hsupply : supply = (Engine.opening e.workspace.supply d businessKey vars).2 := by
    rw [hopening]
  have hissued : e.workspace.supply.issued ≤ supply.issued := by
    rw [hsupply]
    exact Nat.le_succ _
  rw [hrun]
  exact ⟨rfl, rfl, h.states_instanceId, h.workspace.congr rfl hissued⟩

/-- The tokens in flight, the run and the workspace at a stage that an instance of the definition
can come to: between calls, or after any number of visits of a call. -/
inductive Reaches : Definition → List Cursor → Run → Workspace → Prop
  | idle {e : Engine} {id : String} {r : Registered} (h : e.Reachable)
      (hregistered : e.registered? id = some r) (hlive : r.current.isEnded = false) :
      Reaches r.definition [] (Run.on r.current) e.workspace
  | start {e : Engine} {d : Definition} {first : Node} {rest : List Node} {businessKey : String}
      {vars : Variables} {run run' : Run} {supply : Supply} {pending : List Cursor}
      {w' : Workspace} (h : e.Reachable) (hstart : d.startEvents = first :: rest)
      (hopening : Engine.opening e.workspace.supply d businessKey vars = (run, supply))
      (hwalk : Run.Walks d [⟨first.id, []⟩] run { e.workspace with supply } pending run' w') :
      Reaches d pending run' w'
  | proceed {e : Engine} {id task : String} {updates : Variables} {r : Registered} {token : Token}
      {run run' : Run} {pending : List Cursor} {w w' : Workspace} (h : e.Reachable)
      (hregistered : e.registered? id = some r) (hlive : r.current.isEnded = false)
      (htask : Engine.completeTask ((Run.on (r.current.mergeVariables updates)).emit
        (.processContinue id (some task))) r.definition task e.workspace = .ok (token, run) w)
      (hwalk : Run.Walks r.definition (r.definition.leave task token.frames) run w pending run'
        w') :
      Reaches r.definition pending run' w'

/-- At every stage everything is in order. -/
theorem Reaches.kept {d : Definition} {pending : List Cursor} {run : Run} {w : Workspace}
    (h : Reaches d pending run w) : w.Sound ∧ (run.stage pending w).Kept d := by
  cases h with
  | @idle e id r h hregistered hlive =>
    have hkept := h.sound.kept id r hregistered hlive
    rw [← (h.sound.known id r hregistered).1] at hkept
    exact ⟨h.sound.workspace, h.sound.workspace.states _, by simp [Run.stage], hkept⟩
  | @start e d' first rest businessKey vars run₁ run' supply pending' w' h hstart hopening hwalk =>
    obtain ⟨htokens, hhistory, hnone, hsound⟩ := Engine.opening_spec h.sound hopening
    obtain ⟨hsound', hkept', -⟩ :=
      hwalk.kept hsound (.fresh hsound htokens hhistory hnone first.id)
    exact ⟨hsound', hkept'⟩
  | @proceed e id task updates r token run₁ run' pending' w₁ w' h hregistered hlive htask hwalk =>
    have hkept := h.sound.kept id r hregistered hlive
    rw [← (h.sound.known id r hregistered).1] at hkept
    obtain ⟨hw₁, hstage, -, -⟩ := Engine.completeTask_kept h.sound.workspace
      (hkept.mergeVariables updates) htask
    obtain ⟨hsound', hkept', -⟩ := hwalk.kept hw₁ hstage
    exact ⟨hsound', hkept'⟩

end ProcessEngine

import ProcessEngine.Engine.Basic
import ProcessEngine.Engine.Traversal

/-!
# The lifecycle of instances

Starting, continuing, suspending, resuming and terminating an instance.  Each call works on a run
and commits it only when all of it has succeeded; a call that fails leaves every instance, every
gateway state and every compensation record as it was.
-/

namespace ProcessEngine.Engine

/-! ## Start -/

/-- A run on a new instance with a new id.  The business key is a variable as well. -/
def opening (supply : Supply) (d : Definition) (businessKey : String) (vars : Variables) :
    Run × Supply :=
  let (id, supply) := supply.instanceId
  let (now, supply) := supply.now
  let vars := Fields.insert vars businessKeyName (.string businessKey)
  let run := Run.on (Instance.fresh id d.id businessKey vars now)
  (run.emit (.processStart id d.id businessKey), supply)

/-- The first walk of an instance, from the given start event. -/
def firstWalk (run : Run) (d : Definition) (limit : Nat) (start : Node) : Action Run := do
  let run ← run.walk d limit [⟨start.id, []⟩]
  (run.emit (.processStarted run.current.id)).finish

/-- Creates an instance and walks it from the first start event until every token waits or ends. -/
def start (e : Engine) (d : Definition) (businessKey : String) (vars : Option Variables) :
    Except EngineError Instance × Engine :=
  match d.startEvents with
  | [] => (.error (.noStartEvent d.id), e)
  | first :: _ =>
    let (run, supply) := opening e.workspace.supply d businessKey (vars.getD [])
    match (e.withSupply supply).perform (firstWalk run d e.config.maxTraversalSteps first) with
    | (.error err, e) => (.error err, e.forgetStates run.current.id)
    | (.ok run, e) =>
      let (i, e) := e.commit d run
      (.ok i, e)

/-! ## Calls on a registered instance -/

/-- The registered instance of an id, which must not have ended. -/
def live (e : Engine) (id : String) : Except EngineError Registered :=
  match e.registered? id with
  | none => .error (.instanceNotFound id)
  | some r => if r.current.isEnded then .error (.instanceEnded id) else .ok r

/-- Performs an action that continues a run, and commits the run if the action succeeds. -/
def carryOut (e : Engine) (d : Definition) (action : Action Run) :
    Except EngineError Instance × Engine :=
  match e.perform action with
  | (.error err, e) => (.error err, e)
  | (.ok run, e) =>
    let (i, e) := e.commit d run
    (.ok i, e)

/-- Calls that only change the instance. -/
def onLive (e : Engine) (id : String) (action : Registered → Action Run) :
    Except EngineError Instance × Engine :=
  match e.live id with
  | .error err => (.error err, e)
  | .ok r => e.carryOut r.definition (action r)

/-! ## Continue -/

/-- Performs an action; if it fails, the gateway states of an instance are put back, so that a
repeated call counts arrivals from the same place. -/
def undoing {α : Type} (id : String) (action : Action α) : Action α := fun w =>
  match action w with
  | .ok a w' => .ok a w'
  | .error err w' =>
    .error err { w' with store := w'.store.restore id (w.store.states id) }

/-- Takes the first token that the task accepts; its element completes. -/
def completeTask (run : Run) (d : Definition) (task : String) : Action (Token × Run) := do
  let token ← Action.orFail (.taskNotActive run.current.id task)
    (run.current.tokens.find? (·.accepts task))
  if token.suspended then throw (.tokenSuspended run.current.id task)
  else
    let run := { run with
      current := { run.current with
        tokens := run.current.tokens.eraseP (·.accepts task) } }
    let element ← Action.orFail (.elementNotFound d.id task) (d.element? task)
    return (token, ← run.complete element token.id.text)

/-- Completes a task and walks on from it. -/
def continueFrom (run : Run) (d : Definition) (limit : Nat) (task : String) : Action Run := do
  let (token, run) ← completeTask run d task
  let run ← undoing run.current.id (run.walk d limit (d.leave task token.frames))
  run.finish

/-- Sets variables and, if a task is given, completes the token that waits there and walks on. -/
def continueInstance (e : Engine) (id : String) (task : Option String)
    (updates : Option Variables) : Except EngineError Instance × Engine :=
  e.onLive id fun r =>
    let run := (Run.on (r.current.mergeVariables (updates.getD []))).emit (.processContinue id task)
    match task with
    | none => pure run
    | some task => continueFrom run r.definition e.config.maxTraversalSteps task

/-! ## Suspend and resume -/

/-- Whether a token is at the given element; without one every token is. -/
def isAt (element : Option String) (t : Token) : Bool := element.all (t.elementId == ·)

/-- Suspends the tokens at an element, or all of them. -/
def suspendRun (r : Registered) (element : Option String) : Action Run := do
  let i := r.current
  let run := (Run.on i).emit (.processSuspend i.id element)
  match element with
  | some x => if i.tokens.all (·.elementId != x) then throw (.taskNotActive i.id x)
  | none => pure ()
  let chosen (t : Token) : Bool := !t.suspended && isAt element t
  let tokens := i.tokens.map fun t => if chosen t then { t with suspended := true } else t
  let run := { run with current := { i with tokens } }
  let suspended := i.tokens.filter chosen
  let run ← run.recordTokens r.definition .suspended suspended
  let state := if tokens.all (·.suspended) then InstanceState.suspended else i.state
  let run := { run with current := { run.current with state } }
  return run.emit (.processSuspended i.id (suspended.map Token.elementId))

/-- Suspends the tokens of an instance that wait at an element, or all of them. -/
def suspend (e : Engine) (id : String) (element : Option String) :
    Except EngineError Instance × Engine :=
  e.onLive id fun r => suspendRun r element

/-- Resumes the suspended tokens at an element, or all of them. -/
def resumeRun (r : Registered) (element : Option String) : Action Run := do
  let i := r.current
  let run := (Run.on i).emit (.processResume i.id element)
  let chosen (t : Token) : Bool := t.suspended && isAt element t
  let resumed := i.tokens.filter chosen
  if resumed.isEmpty then throw (.noSuspendedElement i.id)
  else
    let tokens := i.tokens.map fun t => if chosen t then { t with suspended := false } else t
    let run := { run with current := { i with tokens, state := .active } }
    return run.emit (.processResumed i.id (resumed.map Token.elementId))

/-- Resumes the suspended tokens of an instance that wait at an element, or all of them. -/
def resume (e : Engine) (id : String) (element : Option String) :
    Except EngineError Instance × Engine :=
  e.onLive id fun r => resumeRun r element

/-! ## Terminate -/

/-- Cancels every token and ends the instance. -/
def terminateRun (r : Registered) (reason : Option String) : Action Run := do
  let i := r.current
  let run := (Run.on { i with tokens := [] }).emit (.processTerminate i.id reason)
  let run ← run.recordTokens r.definition .cancelled i.tokens
  let run ← run.close
  return run.emit (.processTerminated i.id reason)

/-- Cancels every token of an instance and forgets the instance; yields its last state. -/
def terminate (e : Engine) (id : String) (reason : Option String) :
    Except EngineError Instance × Engine :=
  match e.registered? id with
  | none => (.error (.instanceNotFound id), e)
  | some r =>
    match e.perform (terminateRun r reason) with
    | (.error err, e) => (.error err, e)
    | (.ok run, e) => (.ok run.current, (e.unregister id).settle run)

end ProcessEngine.Engine

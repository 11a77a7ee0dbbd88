import ProcessEngine.Value

/-!
# Engine events

What the engine and the evaluation of guards report to whoever listens.
-/

namespace ProcessEngine

/-- A reported event.  Events of a process name its instance; evaluations belong to none. -/
inductive Event where
  | processStart (instanceId definitionId businessKey : String)
  | processStarted (instanceId : String)
  | processContinue (instanceId : String) (task : Option String)
  | processSuspend (instanceId : String) (element : Option String)
  | processSuspended (instanceId : String) (elements : List String)
  | processResume (instanceId : String) (element : Option String)
  | processResumed (instanceId : String) (elements : List String)
  | processEnd (instanceId : String)
  | processTerminate (instanceId : String) (reason : Option String)
  | processTerminated (instanceId : String) (reason : Option String)
  | taskCreated (instanceId task : String) (name : Option String)
  | evaluateStart (expression : String)
  | evaluateEnd (expression : String) (result : Option Value)
  | evaluateError (expression error : String)
deriving Inhabited

namespace Event

/-- The dotted name of an event. -/
def name : Event → String
  | .processStart .. => "process.start"
  | .processStarted _ => "process.started"
  | .processContinue .. => "process.continue"
  | .processSuspend .. => "process.suspend"
  | .processSuspended .. => "process.suspended"
  | .processResume .. => "process.resume"
  | .processResumed .. => "process.resumed"
  | .processEnd _ => "process.end"
  | .processTerminate .. => "process.terminate"
  | .processTerminated .. => "process.terminated"
  | .taskCreated .. => "task.created"
  | .evaluateStart _ => "expression.evaluate.start"
  | .evaluateEnd .. => "expression.evaluate.end"
  | .evaluateError .. => "expression.evaluate.error"

/-- The instance an event belongs to; evaluations belong to none. -/
def instanceId? : Event → Option String
  | .processStart i _ _ | .processStarted i | .processContinue i _ | .processSuspend i _
  | .processSuspended i _ | .processResume i _ | .processResumed i _ | .processEnd i
  | .processTerminate i _ | .processTerminated i _ | .taskCreated i _ _ => some i
  | .evaluateStart _ | .evaluateEnd .. | .evaluateError .. => none

end Event

end ProcessEngine

import ProcessEngine.Event.Basic
import ProcessEngine.Json.Record

/-!
# The wire form of events

An event is a record tagged by its kind.  A field that may be missing is written as null; a result
that is undefined and one that is null are both written as null, and null is read as undefined.
-/

namespace ProcessEngine.Event

open Json

/-- The record of an event. -/
def toValue : Event → Value
  | .processStart i d k => .object [("event", .string "processStart"), instanceField i,
      ("processDefinitionId", .string d), ("businessKey", .string k)]
  | .processStarted i => .object [("event", .string "processStarted"), instanceField i]
  | .processContinue i t => .object [("event", .string "processContinue"), instanceField i,
      ("taskId", .ofText? t)]
  | .processSuspend i e => .object [("event", .string "processSuspend"), instanceField i,
      ("elementId", .ofText? e)]
  | .processSuspended i es => .object [("event", .string "processSuspended"), instanceField i,
      ("elementIds", .ofTexts es)]
  | .processResume i e => .object [("event", .string "processResume"), instanceField i,
      ("elementId", .ofText? e)]
  | .processResumed i es => .object [("event", .string "processResumed"), instanceField i,
      ("elementIds", .ofTexts es)]
  | .processEnd i => .object [("event", .string "processEnd"), instanceField i]
  | .processTerminate i r => .object [("event", .string "processTerminate"), instanceField i,
      ("reason", .ofText? r)]
  | .processTerminated i r => .object [("event", .string "processTerminated"), instanceField i,
      ("reason", .ofText? r)]
  | .taskCreated i t n => .object [("event", .string "taskCreated"), instanceField i,
      ("taskId", .string t), ("taskName", .ofText? n)]
  | .evaluateStart e => .object [("event", .string "expressionEvaluateStart"),
      ("expression", .string e)]
  | .evaluateEnd e r => .object [("event", .string "expressionEvaluateEnd"),
      ("expression", .string e), ("result", r.getD .null)]
  | .evaluateError e m => .object [("event", .string "expressionEvaluateError"),
      ("expression", .string e), ("error", .string m)]
where
  /-- The field that names the instance. -/
  instanceField (i : String) : String × Value := ("processInstanceId", .string i)

/-- Reads the fields of an event that has only an instance. -/
def ofInstance? (make : String → Event) (content : Value) : Option Event := do
  let [i] ← wholeRecord ["processInstanceId"] content | none
  return make (← required text? i)

/-- Reads the fields of an event that has an instance and one more field. -/
def ofInstanceAnd? {α : Type} (field : String) (decode : Option Value → Option α)
    (make : String → α → Event) (content : Value) : Option Event := do
  let [i, x] ← wholeRecord ["processInstanceId", field] content | none
  return make (← required text? i) (← decode x)

/-- Reads an event. -/
def ofValue? (v : Value) : Option Event := do
  let (kind, content) ← tagged "event" v
  match kind with
  | "processStart" =>
    let [i, d, k] ←
      wholeRecord ["processInstanceId", "processDefinitionId", "businessKey"] content | none
    return .processStart (← required text? i) (← required text? d) (← required text? k)
  | "processStarted" => ofInstance? .processStarted content
  | "processContinue" => ofInstanceAnd? "taskId" (nullable text?) .processContinue content
  | "processSuspend" => ofInstanceAnd? "elementId" (nullable text?) .processSuspend content
  | "processSuspended" =>
    ofInstanceAnd? "elementIds" (required (listOf text?)) .processSuspended content
  | "processResume" => ofInstanceAnd? "elementId" (nullable text?) .processResume content
  | "processResumed" =>
    ofInstanceAnd? "elementIds" (required (listOf text?)) .processResumed content
  | "processEnd" => ofInstance? .processEnd content
  | "processTerminate" => ofInstanceAnd? "reason" (nullable text?) .processTerminate content
  | "processTerminated" => ofInstanceAnd? "reason" (nullable text?) .processTerminated content
  | "taskCreated" =>
    let [i, t, n] ← wholeRecord ["processInstanceId", "taskId", "taskName"] content | none
    return .taskCreated (← required text? i) (← required text? t) (← nullable text? n)
  | "expressionEvaluateStart" =>
    let [e] ← wholeRecord ["expression"] content | none
    return .evaluateStart (← required text? e)
  | "expressionEvaluateEnd" =>
    let [e, r] ← wholeRecord ["expression", "result"] content | none
    return .evaluateEnd (← required text? e) (← nullable some r)
  | "expressionEvaluateError" =>
    let [e, m] ← wholeRecord ["expression", "error"] content | none
    return .evaluateError (← required text? e) (← required text? m)
  | _ => none

end ProcessEngine.Event

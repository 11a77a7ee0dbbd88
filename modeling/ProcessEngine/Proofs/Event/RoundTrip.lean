import ProcessEngine.Event.Json
import ProcessEngine.Gateway.Routing
import ProcessEngine.Proofs.Json.Record

/-!
# Events are read back

The record of an event is read as the event, with one exception: an evaluation to a null is read as
one to nothing, since both are written alike (`Event.read_back_iff`).  Guards do evaluate to nulls
(`Event.null_guard_lost`).  What was once read is not changed any more by being written and read
(`Event.read_again`).
-/

namespace ProcessEngine.Event

open Json

/-- What is read from the record of an event. -/
def readBack : Event → Event
  | .evaluateEnd e (some .null) => .evaluateEnd e none
  | event => event

/-! ## Events of an instance -/

section Contents

variable {α : Type} {field : String} {decode : Option Value → Option α}

lemma ofInstance?_object (make : String → Event) (i : String) :
    ofInstance? make (.object [toValue.instanceField i]) = some (make i) := by
  have hfields : wholeRecord ["processInstanceId"] (.object [toValue.instanceField i]) =
      some [some (.string i)] := recordFields_object rfl (by decide)
  simp [ofInstance?, hfields]

lemma ofInstanceAnd?_object (make : String → α → Event) (i : String) {a : α} {v : Value}
    (hf : "processInstanceId" ≠ field) (hd : decode (some v) = some a) :
    ofInstanceAnd? field decode make (.object [toValue.instanceField i, (field, v)]) =
      some (make i a) := by
  have hfields : wholeRecord ["processInstanceId", field]
      (.object [toValue.instanceField i, (field, v)]) = some [some (.string i), some v] :=
    recordFields_object rfl (by simpa using hf)
  simp [ofInstanceAnd?, hfields, hd]

end Contents

/-! ## All events -/

/-- The record of an event is read as the event, an evaluation to a null as one to nothing. -/
theorem ofValue?_toValue (event : Event) : ofValue? event.toValue = some event.readBack := by
  cases event with
  | processStart i d k =>
    have hfields : wholeRecord ["processInstanceId", "processDefinitionId", "businessKey"]
        (.object [toValue.instanceField i, ("processDefinitionId", .string d),
          ("businessKey", .string k)]) = some [some (.string i), some (.string d),
          some (.string k)] := recordFields_object rfl (by decide)
    rw [toValue, ofValue?, tagged_object (by simp [Fields.names, toValue.instanceField])]
    simp [hfields, readBack]
  | processStarted i | processEnd i =>
    rw [toValue, ofValue?, tagged_object (by simp [Fields.names, toValue.instanceField])]
    simp [ofInstance?_object, readBack]
  | processContinue i x | processSuspend i x | processResume i x | processTerminate i x
  | processTerminated i x | processSuspended i x | processResumed i x =>
    rw [toValue, ofValue?, tagged_object (by simp [Fields.names, toValue.instanceField])]
    simp [ofInstanceAnd?_object, readBack]
  | taskCreated i t n =>
    have hfields : wholeRecord ["processInstanceId", "taskId", "taskName"]
        (.object [toValue.instanceField i, ("taskId", .string t), ("taskName", .ofText? n)]) =
          some [some (.string i), some (.string t), some (.ofText? n)] :=
      recordFields_object rfl (by decide)
    rw [toValue, ofValue?, tagged_object (by simp [Fields.names, toValue.instanceField])]
    simp [hfields, readBack]
  | evaluateStart e =>
    have hfields : wholeRecord ["expression"] (.object [("expression", .string e)]) =
        some [some (.string e)] := recordFields_object rfl (by decide)
    rw [toValue, ofValue?, tagged_object (by simp [Fields.names])]
    simp [hfields, readBack]
  | evaluateEnd e r =>
    have hfields : wholeRecord ["expression", "result"]
        (.object [("expression", .string e), ("result", r.getD .null)]) =
          some [some (.string e), some (r.getD .null)] := recordFields_object rfl (by decide)
    have hresult : ((nullable some (some (r.getD .null))).bind fun r => some (evaluateEnd e r)) =
        some (evaluateEnd e r).readBack := by
      rcases r with _ | (_ | _ | _ | _ | _ | _) <;> rfl
    rw [toValue, ofValue?, tagged_object (by simp [Fields.names]), ← hresult]
    simp [hfields]
  | evaluateError e m =>
    have hfields : wholeRecord ["expression", "error"]
        (.object [("expression", .string e), ("error", .string m)]) =
          some [some (.string e), some (.string m)] := recordFields_object rfl (by decide)
    rw [toValue, ofValue?, tagged_object (by simp [Fields.names])]
    simp [hfields, readBack]

lemma readBack_eq_iff {event : Event} :
    event.readBack = event ↔ ∀ e, event ≠ .evaluateEnd e (some .null) := by
  unfold readBack
  split
  · next e => simp
  · next h => exact iff_of_true rfl h

/-! ## What was read -/

/-- An event, if one was read, is read back. -/
def Kept (read : Option Event) : Prop := ∀ event, read = some event → event.readBack = event

section Kept

variable {α : Type} {event : Event}

lemma Kept.none : Kept none := nofun

lemma Kept.some (h : event.readBack = event) : Kept (some event) := by
  rintro _ ⟨⟩
  exact h

lemma Kept.bind {x : Option α} {f : α → Option Event} (h : ∀ a, x = Option.some a → Kept (f a)) :
    Kept (x.bind f) := by
  intro event hbind
  obtain ⟨a, ha, hevent⟩ := Option.bind_eq_some_iff.1 hbind
  exact h a ha event hevent

lemma kept_ofInstance? {make : String → Event} (h : ∀ i, (make i).readBack = make i)
    (content : Value) : Kept (ofInstance? make content) := by
  refine Kept.bind fun fields _ => ?_
  split
  · exact Kept.bind fun i _ => Kept.some (h i)
  · exact Kept.none

lemma kept_ofInstanceAnd? {field : String} {decode : Option Value → Option α}
    {make : String → α → Event} (h : ∀ i a, (make i a).readBack = make i a) (content : Value) :
    Kept (ofInstanceAnd? field decode make content) := by
  refine Kept.bind fun fields _ => ?_
  split
  · exact Kept.bind fun i _ => Kept.bind fun a _ => Kept.some (h i a)
  · exact Kept.none

/-- A result that was read is no null. -/
lemma ne_null_of_nullable {field : Option Value} {r : Option Value}
    (h : nullable Option.some field = Option.some r) : r ≠ Option.some .null := by
  rintro rfl
  rcases field with _ | (_ | _ | _ | _ | _ | _) <;> cases h

/-- What is read from any value is read back. -/
lemma kept_ofValue? (v : Value) : Kept (ofValue? v) := by
  refine Kept.bind fun ⟨kind, content⟩ _ => ?_
  -- The cases are the kinds in the order in which they are tried, and last an unknown one.
  dsimp only
  split
  case h_1 | h_11 =>
    refine Kept.bind fun fields _ => ?_
    split
    · exact Kept.bind fun _ _ => Kept.bind fun _ _ => Kept.bind fun _ _ => Kept.some rfl
    · exact Kept.none
  case h_2 | h_8 => exact kept_ofInstance? (fun _ => rfl) content
  case h_3 | h_4 | h_5 | h_6 | h_7 | h_9 | h_10 =>
    exact kept_ofInstanceAnd? (fun _ _ => rfl) content
  case h_12 =>
    refine Kept.bind fun fields _ => ?_
    split
    · exact Kept.bind fun _ _ => Kept.some rfl
    · exact Kept.none
  case h_13 =>
    -- The only kind for which it matters what was read.
    refine Kept.bind fun fields _ => ?_
    split
    · refine Kept.bind fun e _ => Kept.bind fun r hr => Kept.some ?_
      rw [readBack_eq_iff]
      rintro _ ⟨⟩
      exact ne_null_of_nullable hr rfl
    · exact Kept.none
  case h_14 =>
    refine Kept.bind fun fields _ => ?_
    split
    · exact Kept.bind fun _ _ => Kept.bind fun _ _ => Kept.some rfl
    · exact Kept.none
  case h_15 => exact Kept.none

end Kept

/-- What was read from any value is read again from its record. -/
theorem read_again (v : Value) : ((ofValue? v).map toValue).bind ofValue? = ofValue? v := by
  cases h : ofValue? v with
  | none => rfl
  | some event =>
    rw [Option.map_some, Option.bind_some, ofValue?_toValue, kept_ofValue? v event h]

/-! ## When an event is read back -/

/-- An event is read back from its record if and only if it is not an evaluation to a null.  The
record of every event is read, of such an evaluation as one to nothing. -/
theorem read_back_iff (event : Event) :
    (ofValue? event.toValue = some event ↔ ∀ e, event ≠ .evaluateEnd e (some .null)) ∧
      ofValue? event.toValue = some event.readBack := by
  refine ⟨?_, ofValue?_toValue event⟩
  rw [ofValue?_toValue, Option.some_inj, readBack_eq_iff]

/-- A guard that is null is reported by an event that is not read back: its record is that of the
event by which a guard that is undefined is reported. -/
theorem null_guard_lost :
    let guard : Flow := ⟨"paid", "choice", "shipping", some "${x}"⟩
    guard.guardEvents [("x", .null)] =
        [.evaluateStart "${x}", .evaluateEnd "${x}" (some .null)] ∧
      guard.guardEvents [] = [.evaluateStart "${x}", .evaluateEnd "${x}" none] ∧
      (evaluateEnd "${x}" (some .null)).toValue = (evaluateEnd "${x}" none).toValue ∧
      ofValue? (evaluateEnd "${x}" (some .null)).toValue ≠
        some (.evaluateEnd "${x}" (some .null)) := by
  refine ⟨rfl, rfl, rfl, ?_⟩
  simp [ofValue?_toValue, readBack]

end ProcessEngine.Event

import ProcessEngine.Definition.Json
import ProcessEngine.Proofs.Json.Record

/-!
# Definitions are read back

The record of a definition is read as the definition, whatever it holds, so that reading, writing
and reading again gives what the first reading gave (`Definition.reads_back`).  The values of the
fields may as well stand in their order, and fields of unknown names change nothing.
-/

namespace ProcessEngine

open Json

/-! ## Parts -/

lemma Node.ofValue?_toValue (n : Node) : Node.ofValue? n.toValue = some n := by
  have hfields : recordFields Node.fieldNames n.toValue =
      some [some (.string n.id), some (.ofText? n.name)] := recordFields_object rfl (by decide)
  simp [Node.ofValue?, hfields]

lemma GatewayKind.choice?_name (k : GatewayKind) :
    choice? GatewayKind.choices (.string k.name) = some k := by
  cases k <;> rfl

lemma Gateway.ofValue?_toValue (g : Gateway) : Gateway.ofValue? g.toValue = some g := by
  have hfields : recordFields Gateway.fieldNames g.toValue =
      some [some (.string g.id), some (.ofText? g.name), some (.string g.kind.name),
        some (.ofText? g.defaultFlow)] := recordFields_object rfl (by decide)
  simp [Gateway.ofValue?, hfields, GatewayKind.choice?_name]

lemma Flow.ofValue?_toValue (f : Flow) : Flow.ofValue? f.toValue = some f := by
  have hfields : recordFields Flow.fieldNames f.toValue =
      some [some (.string f.id), some (.string f.source), some (.string f.target),
        some (.ofText? f.condition)] := recordFields_object rfl (by decide)
  simp [Flow.ofValue?, hfields]

/-! ## The definition -/

namespace Definition

/-- What stands in the fields of the record of a definition, in their order. -/
def values (d : Definition) : List Value :=
  [.string d.id, .ofNat d.version.toNat, .ofText? d.name,
    .array (d.startEvents.map Node.toValue), .array (d.endEvents.map Node.toValue),
    .array (d.userTasks.map Node.toValue), .array (d.serviceTasks.map Node.toValue),
    .array (d.gateways.map Gateway.toValue), .array (d.flows.map Flow.toValue),
    .array (d.subProcesses.map Node.toValue)]

variable {d : Definition} {v : Value}

/-- A value whose fields are those of a definition is read as the definition. -/
lemma ofValue?_of_values (h : recordFields fieldNames v = some (d.values.map some)) :
    ofValue? v = some d := by
  have hnodes := listOf_map Node.ofValue?_toValue
  have hgateways := listOf_map Gateway.ofValue?_toValue
  have hflows := listOf_map Flow.ofValue?_toValue
  -- The version is named before the record is opened: no reduction may compare it with its bound.
  obtain ⟨version, hvalue, hversion⟩ : ∃ version, some (.ofNat d.version.toNat) = version ∧
      defaulted 1 word32? version = some d.version := ⟨_, rfl, by simp⟩
  rw [ofValue?, h]
  simp [values, hvalue, hversion, hnodes, hgateways, hflows]

/-- A definition may be written by position. -/
theorem ofValue?_byPosition (d : Definition) : ofValue? (.array d.values) = some d :=
  ofValue?_of_values (recordFields_array rfl)

/-- Fields of unknown names change nothing. -/
theorem ofValue?_known (fields : Fields) :
    ofValue? (.object (fields.filter fun field => decide (field.1 ∈ fieldNames))) =
      ofValue? (.object fields) := by
  rw [ofValue?, ofValue?, recordFields_filter]

/-- The record of a definition is read as that definition, whatever it holds; so what was read from
any value, whichever of the accepted forms it has, is read again from its record. -/
theorem reads_back :
    (∀ d : Definition, ofValue? d.toValue = some d) ∧
      ∀ v : Value, ((ofValue? v).map toValue).bind ofValue? = ofValue? v := by
  have hback (d : Definition) : ofValue? d.toValue = some d :=
    ofValue?_of_values (recordFields_object rfl (by decide +kernel))
  refine ⟨hback, fun v => ?_⟩
  cases h : ofValue? v with
  | none => rfl
  | some d => rw [Option.map_some, Option.bind_some, hback]

end Definition

end ProcessEngine

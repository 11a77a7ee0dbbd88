import Mathlib.Data.List.Nodup
import Mathlib.Tactic.Common
import ProcessEngine.Json.Record

/-!
# Records are read back

What is written under distinct field names, or in the order of the fields, is read back field by
field; what stands under other names is passed over.  Each way to write a field has its reading.
-/

namespace ProcessEngine.Json

/-! ## Fields by name -/

section Fields

variable {names : List String} {fields : Fields} {name : String} {v : Value}

lemma mapM_congr {α β : Type} {f g : α → Option β} {items : List α} (h : ∀ x ∈ items, f x = g x) :
    items.mapM f = items.mapM g := by
  induction items with
  | nil => rfl
  | cons x rest ih =>
    obtain ⟨hfirst, hrest⟩ := List.forall_mem_cons.1 h
    rw [List.mapM_cons, List.mapM_cons, hfirst, ih hrest]

/-- Items that are all read give the list of what they were read as. -/
lemma mapM_eq_map {α β : Type} {f : α → Option β} {g : α → β} {items : List α}
    (h : ∀ x ∈ items, f x = some (g x)) : items.mapM f = some (items.map g) := by
  rw [mapM_congr h]
  exact List.mapM_pure

lemma filter_absent (h : name ∉ fields.names) : fields.filter (·.1 == name) = [] := by
  rw [List.filter_eq_nil_iff]
  intro field hfield heq
  exact h (List.mem_map.2 ⟨field, hfield, by simpa using heq⟩)

/-- Of fields with distinct names each is found. -/
lemma lookupOnce_of_mem (hn : fields.names.Nodup) (hm : (name, v) ∈ fields) :
    lookupOnce fields name = some (some v) := by
  suffices fields.filter (·.1 == name) = [(name, v)] by rw [lookupOnce, this]
  induction fields with
  | nil => exact absurd hm List.not_mem_nil
  | cons field rest ih =>
    obtain ⟨hfirst, hrest⟩ := List.nodup_cons.1 hn
    rcases List.mem_cons.1 hm with rfl | hm
    · rw [List.filter_cons_of_pos (by simp), filter_absent hfirst]
    · have : field.1 ≠ name := fun h => hfirst (h ▸ List.mem_map_of_mem hm)
      rw [List.filter_cons_of_neg (by simpa using this), ih hrest hm]

/-- Fields with distinct names are read by these names. -/
lemma recordFields_object (h : fields.names = names) (hn : names.Nodup) :
    recordFields names (.object fields) = some (fields.map fun field => some field.2) := by
  subst h
  rw [recordFields, Fields.names, List.mapM_map]
  exact mapM_eq_map fun field hfield => lookupOnce_of_mem hn hfield

/-- Values in the order of the fields are read as the fields. -/
lemma recordFields_array {values : List Value} (h : values.length = names.length) :
    recordFields names (.array values) = some (values.map some) := by
  simp [recordFields, h]

lemma lookupOnce_filter (h : name ∈ names) :
    lookupOnce (fields.filter fun field => decide (field.1 ∈ names)) name =
      lookupOnce fields name := by
  unfold lookupOnce
  rw [List.filter_filter]
  congr 1
  refine List.filter_congr fun field _ => ?_
  by_cases heq : field.1 = name
  · simp [heq, h]
  · simp [heq]

/-- Fields of unknown names are passed over. -/
lemma recordFields_filter :
    recordFields names (.object (fields.filter fun field => decide (field.1 ∈ names))) =
      recordFields names (.object fields) :=
  mapM_congr fun _ h => lookupOnce_filter h

/-- A tagged record is read as its tag and its other fields. -/
lemma tagged_object {tag kind : String} (h : tag ∉ fields.names) :
    tagged tag (.object ((tag, .string kind) :: fields)) = some (kind, .object fields) := by
  have hkept : fields.filter (·.1 != tag) = fields := by
    rw [List.filter_eq_self]
    rintro field hfield
    simpa using fun heq : field.1 = tag => h (heq ▸ List.mem_map_of_mem hfield)
  have hfound : lookupOnce ((tag, .string kind) :: fields) tag = some (some (.string kind)) := by
    rw [lookupOnce, List.filter_cons_of_pos (by simp), filter_absent h]
  rw [tagged, hfound]
  simp [hkept]

end Fields

/-! ## Simple values -/

section Values

variable {α : Type} {decode : Value → Option α} {encode : α → Value}

@[simp] lemma required_some (v : Value) : required decode (some v) = decode v := by rfl

@[simp] lemma defaulted_some (default : α) (v : Value) :
    defaulted default decode (some v) = decode v := by rfl

@[simp] lemma text?_string (s : String) : text? (.string s) = some s := rfl

@[simp] lemma nullable_ofText? (text : Option String) :
    nullable text? (some (.ofText? text)) = some text := by
  cases text <;> rfl

/-- A list is read back if its items are. -/
lemma listOf_map (h : ∀ a, decode (encode a) = some a) (items : List α) :
    listOf decode (.array (items.map encode)) = some items := by
  have hread : items.mapM (decode ∘ encode) = some (items.map id) := mapM_eq_map fun a _ => h a
  rw [listOf, List.mapM_map, hread, List.map_id]

@[simp] lemma listOf_ofTexts (texts : List String) :
    listOf text? (.ofTexts texts) = some texts :=
  listOf_map text?_string texts

@[simp] lemma word32?_ofNat (w : UInt32) : word32? (.ofNat w.toNat) = some w := by
  have hbound : (w.toNat : Int) < (UInt32.size : Nat) := Int.ofNat_lt.2 w.toNat_lt
  simp only [word32?, natBelow, Value.ofNat]
  rw [if_pos (by simpa using hbound)]
  simp

end Values

end ProcessEngine.Json

import Mathlib.Logic.Basic
import ProcessEngine.Definition.Basic

/-!
# Elements of a definition

An element that is found under an id carries that id.
-/

namespace ProcessEngine.Definition

variable {d : Definition} {x : String} {e : Element}

lemma orElse_eq_some {a b : Option Element} (h : (a <|> b) = some e) : a = some e ∨ b = some e := by
  cases a with
  | none => exact .inr h
  | some y => exact .inl h

lemma id_of_nodeIn {nodes : List Node} {make : Node → Element} (hmake : ∀ n, (make n).id = n.id)
    (h : (nodeIn nodes x).map make = some e) : e.id = x := by
  obtain ⟨n, hn, rfl⟩ := Option.map_eq_some_iff.1 h
  rw [hmake]
  simpa using List.find?_some hn

lemma element?_id (h : d.element? x = some e) : e.id = x := by
  rcases orElse_eq_some h with h | h
  · exact id_of_nodeIn (fun _ => rfl) h
  rcases orElse_eq_some h with h | h
  · exact id_of_nodeIn (fun _ => rfl) h
  rcases orElse_eq_some h with h | h
  · exact id_of_nodeIn (fun _ => rfl) h
  rcases orElse_eq_some h with h | h
  · exact id_of_nodeIn (fun _ => rfl) h
  rcases orElse_eq_some h with h | h
  · obtain ⟨g, hg, rfl⟩ := Option.map_eq_some_iff.1 h
    simpa [Element.id] using List.find?_some hg
  · exact id_of_nodeIn (fun _ => rfl) h

/-- An element is found under its own id. -/
lemma element?_self (h : d.element? x = some e) : d.element? e.id = some e := by
  rw [element?_id h]
  exact h

end ProcessEngine.Definition

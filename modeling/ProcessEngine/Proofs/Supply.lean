import Mathlib.Logic.Basic
import ProcessEngine.Supply

/-!
# Identifiers are told apart

The id of an instance ends in its serial number, so instances with different serial numbers have
different ids, whatever the clock says.
-/

namespace ProcessEngine

/-- The value of a number can be read off its digits, zeros in front included. -/
lemma Text.ofDigitChars_padded (width n : Nat) :
    Nat.ofDigitChars 10 (Text.padded 10 width n) 0 = n := by
  rw [Text.padded, Nat.ofDigitChars_append, Nat.ofDigitChars_replicate_zero, Nat.mul_zero,
    Nat.ofDigitChars_ten_toDigits]

lemma Text.dash_not_mem_padded (width n : Nat) : '-' ∉ Text.padded 10 width n := by
  rw [Text.padded, List.mem_append, not_or]
  refine ⟨fun hmem => ?_, fun hmem => ?_⟩
  · have := List.eq_of_mem_replicate hmem
    simp at this
  · have := Nat.isDigit_of_mem_toDigits (by decide) (by decide) hmem
    simp [Char.isDigit] at this

/-- What follows the last separator is the same in equal lists. -/
lemma eq_of_append_separator {α : Type} {x : α} {as bs cs ds : List α}
    (h : as ++ x :: bs = cs ++ x :: ds) (hb : x ∉ bs) (hd : x ∉ ds) : bs = ds := by
  rcases List.append_eq_append_iff.1 h with ⟨es, -, heq⟩ | ⟨es, -, heq⟩
  · cases es with
    | nil => exact (List.cons.inj heq).2
    | cons e es =>
      refine absurd ?_ hb
      rw [(List.cons.inj heq).2]
      exact List.mem_append_right _ List.mem_cons_self
  · cases es with
    | nil => exact (List.cons.inj heq).2.symm
    | cons e es =>
      refine absurd ?_ hd
      rw [(List.cons.inj heq).2]
      exact List.mem_append_right _ List.mem_cons_self

/-- Instances with different serial numbers have different ids. -/
theorem Supply.serial_of_instanceIdText {s t : Instant} {m n : Nat}
    (h : instanceIdText s m = instanceIdText t n) : m = n := by
  unfold instanceIdText at h
  rw [String.ofList_inj] at h
  have hdigits := eq_of_append_separator h (Text.dash_not_mem_padded 9 m)
    (Text.dash_not_mem_padded 9 n)
  rw [← Text.ofDigitChars_padded 9 m, hdigits, Text.ofDigitChars_padded]

/-- The id of an instance that was started when no more identifiers were issued than given. -/
def Issued (issued : Nat) (id : String) : Prop :=
  ∃ time serial, serial ≤ issued ∧ id = Supply.instanceIdText time serial

namespace Issued

lemma mono {issued later : Nat} {id : String} (h : Issued issued id) (hle : issued ≤ later) :
    Issued later id := by
  obtain ⟨time, serial, hserial, rfl⟩ := h
  exact ⟨time, serial, Nat.le_trans hserial hle, rfl⟩

/-- The id of the next instance is a new one. -/
lemma ne_instanceId {supply : Supply} {id : String} (h : Issued supply.issued id) :
    id ≠ supply.instanceId.1 := by
  obtain ⟨time, serial, hserial, rfl⟩ := h
  intro heq
  have : serial = supply.issued + 1 := Supply.serial_of_instanceIdText heq
  omega

lemma instanceId (supply : Supply) : Issued supply.instanceId.2.issued supply.instanceId.1 :=
  ⟨_, supply.issued + 1, Nat.le_refl _, rfl⟩

end Issued

end ProcessEngine

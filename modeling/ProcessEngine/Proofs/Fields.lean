import Mathlib.Tactic.SplitIfs
import ProcessEngine.Value

/-!
# The fields of a record

What is found under a name after fields were set: the last value that was set, or else what stood
there before.
-/

namespace ProcessEngine.Fields

lemma get?_cons (name : String) (v : Value) (rest : Fields) (other : String) :
    get? ((name, v) :: rest) other = if name = other then some v else rest.get? other := rfl

lemma get?_insert (fields : Fields) (name : String) (v : Value) (other : String) :
    (fields.insert name v).get? other = if name = other then some v else fields.get? other := by
  induction fields with
  | nil => rfl
  | cons field rest ih =>
    obtain ⟨k, u⟩ := field
    by_cases hk : k = name
    · subst hk
      rw [insert, if_pos rfl, get?_cons, get?_cons]
      split_ifs <;> rfl
    by_cases hlt : name < k
    · rw [insert, if_neg hk, if_pos hlt, get?_cons]
    · rw [insert, if_neg hk, if_neg hlt, get?_cons, get?_cons, ih]
      by_cases h : k = other
      · rw [if_pos h, if_pos h, if_neg fun hname => hk (h.trans hname.symm)]
      · rw [if_neg h, if_neg h]

/-- Of several fields to be set the later win, and each wins over what stood there. -/
lemma get?_merge (base updates : Fields) (name : String) :
    (base.merge updates).get? name = ((ofPairs updates).get? name).or (base.get? name) := by
  induction updates generalizing base with
  | nil => rfl
  | cons update rest ih =>
    obtain ⟨k, v⟩ := update
    have hbase : base.merge ((k, v) :: rest) = (base.insert k v).merge rest := rfl
    have hpairs : ofPairs ((k, v) :: rest) = merge [(k, v)] rest := rfl
    rw [hbase, hpairs, ih, ih, Option.or_assoc, get?_insert, get?_cons]
    split_ifs <;> rfl

end ProcessEngine.Fields

import Mathlib.Data.List.Basic
import Mathlib.Data.List.Forall2
import Mathlib.Data.List.Pairwise
import Mathlib.Data.List.Sort

/-!
# Lists

Facts about searching, counting and changing lists that the bookkeeping rests on.
-/

namespace ProcessEngine

variable {α : Type} {l before after : List α} {x y : α}

/-- What is among the others is in the list. -/
lemma mem_of_mem_others (h : y ∈ before ++ after) : y ∈ before ++ x :: after :=
  ((List.sublist_cons_self x after).append_left before).mem h

/-- What stands at a position of an extended list stood there before, or is the new last entry. -/
lemma getElem?_concat_cases {i : Nat} (h : (l ++ [x])[i]? = some y) :
    l[i]? = some y ∨ i = l.length ∧ y = x := by
  rcases Nat.lt_or_ge i l.length with hi | hi
  · rw [List.getElem?_append_left hi] at h
    exact .inl h
  · rw [List.getElem?_append_right hi, List.getElem?_singleton] at h
    split_ifs at h with hzero
    exact .inr ⟨by omega, (Option.some.inj h).symm⟩

/-- A selection is not affected by changes to what it does not accept. -/
lemma filter_map_of_fixed {accepts : α → Bool} {change : α → α}
    (h : ∀ x ∈ l, change x = x ∨ accepts x = false ∧ accepts (change x) = false) :
    (l.map change).filter accepts = l.filter accepts := by
  induction l with
  | nil => rfl
  | cons x rest ih =>
    have hrest := ih fun y hy => h y (List.mem_cons_of_mem _ hy)
    rw [List.map_cons, List.filter_cons, List.filter_cons, hrest]
    rcases h x List.mem_cons_self with hx | ⟨hold, hnew⟩
    · rw [hx]
    · rw [hold, hnew]
      rfl

/-- The first entry that a search accepts is counted until it is erased. -/
lemma countP_eraseP {accepts : α → Bool} (hfind : l.find? accepts = some x) (counts : α → Bool) :
    l.countP counts = (l.eraseP accepts).countP counts + if counts x then 1 else 0 := by
  obtain ⟨haccepts, before, after, rfl, hnot⟩ := List.find?_eq_some_iff_append.1 hfind
  have hbefore : ∀ o ∈ before, ¬accepts o = true := fun o ho => by simpa using hnot o ho
  rw [List.eraseP_append_right _ hbefore, List.eraseP_cons_of_pos haccepts, List.countP_append,
    List.countP_append, List.countP_cons, Nat.add_assoc]

/-- Every number of hits up to the last one is that of some beginning that ends with a hit. -/
lemma exists_countP_take {accepts : α → Bool} {n : Nat} (hn : 0 < n) (hle : n ≤ l.countP accepts) :
    ∃ i x, l[i]? = some x ∧ accepts x = true ∧ (l.take (i + 1)).countP accepts = n := by
  induction l generalizing n with
  | nil =>
    rw [List.countP_nil] at hle
    omega
  | cons x rest ih =>
    rw [List.countP_cons] at hle
    by_cases hx : accepts x = true
    · rw [if_pos hx] at hle
      by_cases hone : n = 1
      · exact ⟨0, x, rfl, hx, by simp [hx, hone]⟩
      · have hmore : 0 < n - 1 := by omega
        obtain ⟨i, y, hy, haccepts, hcount⟩ := ih hmore (by omega)
        refine ⟨i + 1, y, hy, haccepts, ?_⟩
        rw [List.take_succ_cons, List.countP_cons, hcount, if_pos hx]
        omega
    · rw [if_neg hx] at hle
      obtain ⟨i, y, hy, haccepts, hcount⟩ := ih hn hle
      refine ⟨i + 1, y, hy, haccepts, ?_⟩
      rw [List.take_succ_cons, List.countP_cons, hcount, if_neg hx, Nat.add_zero]

/-- If at most one entry is accepted, a search does not depend on the order of the list. -/
lemma find?_eq_of_perm {m : List α} {accepts : α → Bool} (h : l.Perm m)
    (hone : l.countP accepts ≤ 1) : l.find? accepts = m.find? accepts := by
  rw [← List.head?_filter, ← List.head?_filter]
  have hfilter := h.filter accepts
  rw [List.countP_eq_length_filter] at hone
  rcases hl : l.filter accepts with _ | ⟨x, _ | ⟨y, rest⟩⟩
  · rw [hl] at hfilter
    rw [hfilter.nil_eq]
  · rw [hl] at hfilter
    rw [List.singleton_perm.1 hfilter]
  · rw [hl] at hone
    simp at hone

/-- Sorting gives the one order in which no entry comes before a strictly smaller one, if there are
no two of the same rank. -/
lemma mergeSort_eq_of_perm {m : List α} {le : α → α → Bool}
    (htrans : ∀ a b c, le a b = true → le b c = true → le a c = true)
    (htotal : ∀ a b, (le a b || le b a) = true) (h : l.Perm m)
    (hm : m.Pairwise fun a b => le b a = false) : l.mergeSort le = m := by
  have hle : m.Pairwise fun a b => le a b = true := by
    refine hm.imp fun {a b} hba => ?_
    simpa [hba] using htotal a b
  have hapart : m.Pairwise fun a b => le a b = true → le b a = true → a = b := by
    refine hm.imp fun {a b} hba _ hba' => ?_
    rw [hba] at hba'
    cases hba'
  have hsymm : Std.Symm fun a b => le a b = true → le b a = true → a = b :=
    ⟨fun a b hab hba hab' => (hab hab' hba).symm⟩
  have hranks := hapart.forall_of_forall fun _ _ _ _ => rfl
  refine List.Perm.eq_of_pairwise (fun a b ha hb => hranks ?_ hb)
    (List.pairwise_mergeSort htrans htotal l) hle ((List.mergeSort_perm l le).trans h)
  exact h.mem_iff.1 ((List.mergeSort_perm l le).mem_iff.1 ha)

/-- At each position both of two related lists have an entry, or none of them. -/
lemma forall₂_getElem?_cases {β : Type} {R : α → β → Prop} {m : List β} (h : List.Forall₂ R l m)
    (i : Nat) :
    (l[i]? = none ∧ m[i]? = none) ∨ ∃ x y, l[i]? = some x ∧ m[i]? = some y ∧ R x y := by
  induction h generalizing i with
  | nil => exact .inl ⟨rfl, rfl⟩
  | @cons x y l m hxy _ ih =>
    cases i with
    | zero => exact .inr ⟨x, y, rfl, rfl, hxy⟩
    | succ i => simpa using ih i

/-- If the accepted entries of a list are related to another list, so are the accepted entries of
the list with positions, which lie behind the first position and before the one after the last. -/
lemma forall₂_zipIdx {β : Type} {R : α → β → Prop} {accepts : α → Bool} {m : List β}
    (h : List.Forall₂ R (l.filter accepts) m) (n : Nat) :
    List.Forall₂ (fun x y => n ≤ x.2 ∧ x.2 < n + l.length ∧ R x.1 y)
      ((l.zipIdx n).filter fun x => accepts x.1) m := by
  induction l generalizing n m with
  | nil =>
    cases h
    exact .nil
  | cons x rest ih =>
    rw [List.zipIdx_cons, List.length_cons]
    by_cases hx : accepts x = true
    · rw [List.filter_cons_of_pos hx] at h
      rw [List.filter_cons, if_pos hx]
      cases h with
      | cons hxy hrest =>
        refine .cons ⟨Nat.le_refl _, by simp, hxy⟩ ((ih hrest (n + 1)).imp ?_)
        rintro y z ⟨hle, hlt, hyz⟩
        exact ⟨by omega, by omega, hyz⟩
    · rw [List.filter_cons_of_neg hx] at h
      rw [List.filter_cons, if_neg hx]
      refine (ih h (n + 1)).imp ?_
      rintro y z ⟨hle, hlt, hyz⟩
      exact ⟨by omega, by omega, hyz⟩

/-- A choice of keys leaves the entries of the chosen ones. -/
lemma lookup_filter {β : Type} [BEq α] [LawfulBEq α] (keeps : α → Bool) (table : List (α × β))
    (key : α) :
    (table.filter fun entry => keeps entry.1).lookup key =
      if keeps key then table.lookup key else none := by
  induction table with
  | nil => simp
  | cons entry rest ih =>
    obtain ⟨other, value⟩ := entry
    by_cases hkeeps : keeps other = true
    · rw [List.filter_cons, if_pos hkeeps, List.lookup_cons, List.lookup_cons, ih]
      by_cases hkey : key = other
      · simp [hkey, hkeeps]
      · simp [beq_false_of_ne hkey]
    · rw [List.filter_cons, if_neg hkeeps, ih, List.lookup_cons]
      by_cases hkey : key = other
      · simp [hkey, hkeeps]
      · simp [beq_false_of_ne hkey]

/-- A key is set in a table: the other keys keep what they have. -/
lemma lookup_set {β : Type} [BEq α] [LawfulBEq α] (table : List (α × β)) (key other : α)
    (value : β) :
    ((key, value) :: table.filter fun entry => entry.1 != key).lookup other =
      if other == key then some value else table.lookup other := by
  rw [List.lookup_cons, lookup_filter (· != key)]
  by_cases hkey : other = key
  · simp [hkey]
  · simp [hkey, beq_false_of_ne hkey]

end ProcessEngine

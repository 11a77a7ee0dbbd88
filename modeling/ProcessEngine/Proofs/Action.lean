import ProcessEngine.Proofs.Store.States
import ProcessEngine.Workspace

/-!
# Reasoning about actions

An action is run on a workspace and either succeeds or fails, with the workspace it leaves behind.
Its steps are taken apart with `bind_eq_ok` and `bind_eq_error`, and the basic actions are opened by
the simplifier.

`Confined` says what a workspace keeps while an action works for one instance: the states of all
other instances, the identifiers that are in use, and what was published.
-/

namespace ProcessEngine

namespace Action

variable {α β : Type} {w w' : Workspace}

@[simp] lemma pure_apply (a : α) (w : Workspace) : (pure a : Action α) w = .ok a w := rfl

lemma bind_of_ok {a : Action α} {x : α} (h : a w = .ok x w') (f : α → Action β) :
    (a >>= f) w = f x w' := by
  change EStateM.bind a f w = _
  rw [EStateM.bind, h]

lemma bind_of_error {a : Action α} {e : EngineError} (h : a w = .error e w') (f : α → Action β) :
    (a >>= f) w = .error e w' := by
  change EStateM.bind a f w = _
  rw [EStateM.bind, h]

/-- An action has one result. -/
lemma ok_unique {a : Action α} {x y : α} {v v' : Workspace} (h : a w = .ok x v)
    (h' : a w = .ok y v') : x = y ∧ v = v' := by
  rw [h] at h'
  cases h'
  exact ⟨rfl, rfl⟩

/-- A sequence succeeds if both parts do, one after the other. -/
lemma bind_eq_ok {a : Action α} {f : α → Action β} {y : β} :
    (a >>= f) w = .ok y w' ↔ ∃ x v, a w = .ok x v ∧ f x v = .ok y w' := by
  cases h : a w with
  | ok x v => simp [bind_of_ok h, and_assoc]
  | error e v => simp [bind_of_error h]

/-- A sequence fails if its first part does, or the second one after the first. -/
lemma bind_eq_error {a : Action α} {f : α → Action β} {e : EngineError} :
    (a >>= f) w = .error e w' ↔
      a w = .error e w' ∨ ∃ x v, a w = .ok x v ∧ f x v = .error e w' := by
  cases h : a w with
  | ok x v => simp [bind_of_ok h, and_assoc]
  | error e v => simp [bind_of_error h]

@[simp] lemma freshUid_apply (w : Workspace) :
    freshUid w = .ok w.supply.uid.1 { w with supply := w.supply.uid.2 } := rfl

@[simp] lemma publish_apply (events : List Event) (w : Workspace) :
    publish events w = .ok () { w with bus := w.bus.publishAll events } := rfl

@[simp] lemma readStore_apply (w : Workspace) : readStore w = .ok w.store w := rfl

lemma onStore_of_ok {change : Store → Except EngineError (α × Store)} {a : α} {s : Store}
    (h : change w.store = .ok (a, s)) : onStore change w = .ok a { w with store := s } := by
  rw [onStore, h]

@[simp] lemma orFail_some (e : EngineError) (a : α) : orFail e (some a) = pure a := rfl

/-- The workspace that an action leaves behind, whether it succeeds or fails. -/
def after (a : Action α) (w : Workspace) : Workspace :=
  match a w with
  | .ok _ w' | .error _ w' => w'

lemma after_of_ok {a : Action α} {x : α} (h : a w = .ok x w') : a.after w = w' := by
  rw [after, h]

lemma after_of_error {a : Action α} {e : EngineError} (h : a w = .error e w') : a.after w = w' := by
  rw [after, h]

lemma after_bind_of_ok {a : Action α} {x : α} (h : a w = .ok x w') (f : α → Action β) :
    (a >>= f).after w = (f x).after w' := by
  rw [after, bind_of_ok h, after]

end Action

/-- Whether an event reports an evaluation. -/
def Event.isEvaluation : Event → Bool
  | .evaluateStart _ | .evaluateEnd .. | .evaluateError .. => true
  | _ => false

lemma EventBus.publishAll_append (b : EventBus) (es fs : List Event) :
    b.publishAll (es ++ fs) = (b.publishAll es).publishAll fs := by
  simp [publishAll]

/-- What an action for one instance keeps: the states of the other instances stay as they are, the
identifiers of states are not shared, identifiers are only issued, and nothing but the given
evaluations is published. -/
structure Confined (p : String) (es : List Event) (w w' : Workspace) : Prop where
  keyed : w'.store.Keyed w'.supply.issued
  others : ∀ q, q ≠ p → w'.store.states q = w.store.states q
  issued : w.supply.issued ≤ w'.supply.issued
  clock : w'.supply.clock = w.supply.clock
  evaluations : ∀ e ∈ es, e.isEvaluation = true
  bus : w'.bus = w.bus.publishAll es

namespace Confined

variable {p : String} {es fs : List Event} {w w' w'' : Workspace}

lemma refl (hk : w.store.Keyed w.supply.issued) : Confined p [] w w :=
  ⟨hk, fun _ _ => rfl, Nat.le_refl _, rfl, by simp, rfl⟩

lemma trans (h : Confined p es w w') (h' : Confined p fs w' w'') :
    Confined p (es ++ fs) w w'' where
  keyed := h'.keyed
  others q hq := (h'.others q hq).trans (h.others q hq)
  issued := Nat.le_trans h.issued h'.issued
  clock := h'.clock.trans h.clock
  evaluations e he := by
    rcases List.mem_append.1 he with he | he
    · exact h.evaluations e he
    · exact h'.evaluations e he
  bus := by rw [h'.bus, h.bus, EventBus.publishAll_append]

/-- Identifiers are issued and the clock is read, nothing else. -/
lemma of_supply (hk : w.store.Keyed w.supply.issued) {supply : Supply}
    (hi : w.supply.issued ≤ supply.issued) (hc : supply.clock = w.supply.clock) :
    Confined p [] w { w with supply } :=
  ⟨hk.mono hi, fun _ _ => rfl, hi, hc, by simp, rfl⟩

end Confined

end ProcessEngine

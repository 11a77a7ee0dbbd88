import ProcessEngine.Proofs.Engine.Kept

/-!
# Walks

A walk is a sequence of visits, each to the element of the first token in flight.  From a sound
workspace and a stage at which everything is in order a walk comes to such a stage again
(`Walks.kept`).  A traversal that succeeds is a walk to the end, and one that fails is a walk to a
visit that is refused, or as far as the limit allows (`traverse_spec`); in both cases only the
states of its own instance have changed.
-/

namespace ProcessEngine

/-- A visit does not end the instance. -/
lemma Visited.endedAt {d : Definition} {s t : Stage} (h : Visited d s t) :
    t.run.current.endedAt = s.run.current.endedAt := by
  cases h with
  | complete => rw [Run.current_completed]; rfl
  | _ => rfl

namespace Run

variable {d : Definition} {run run' run'' : Run} {w w' w'' : Workspace} {c : Cursor}
  {pending pending' pending'' : List Cursor}

/-- Tokens in flight make one visit after the other. -/
inductive Walks (d : Definition) :
    List Cursor → Run → Workspace → List Cursor → Run → Workspace → Prop
  | refl (pending : List Cursor) (run : Run) (w : Workspace) : Walks d pending run w pending run w
  | visit {c : Cursor} {next rest pending' : List Cursor} {run run' run'' : Run}
      {w w' w'' : Workspace} (hvisit : run.visit d c w = .ok (next, run') w')
      (hwalk : Walks d (next ++ rest) run' w' pending' run'' w'') :
      Walks d (c :: rest) run w pending' run'' w''

/-- What a visit keeps. -/
lemma visit_kept {rest next : List Cursor} (hw : w.Sound) (hk : (run.stage (c :: rest) w).Kept d)
    (hvisit : run.visit d c w = .ok (next, run') w') :
    w'.Sound ∧ (run'.stage (next ++ rest) w').Kept d ∧ run'.current.id = run.current.id ∧
      run'.current.endedAt = run.current.endedAt ∧
      Confined run.current.id (run.heard d c) w w' := by
  rcases visit_spec (d := d) hw (hk.pending c List.mem_cons_self) with
    ⟨e, v, herror, -⟩ | ⟨next₁, run₁, v, hok, hvisited, hconf⟩
  · rw [hvisit] at herror
    cases herror
  · rw [hvisit] at hok
    cases hok
    have hkept := (hvisited rest).kept hk
    have hid : run'.current.id = run.current.id := (hvisited rest).id_current
    have hstates : SoundStates run'.current.id w'.supply.issued
        (w'.store.states run'.current.id) := hkept.states
    rw [hid] at hstates
    exact ⟨hw.confined hconf hstates, hkept, hid, (hvisited rest).endedAt, hconf⟩

/-- What a walk keeps. -/
theorem Walks.kept (h : Walks d pending run w pending' run' w') (hw : w.Sound)
    (hk : (run.stage pending w).Kept d) :
    w'.Sound ∧ (run'.stage pending' w').Kept d ∧ run'.current.id = run.current.id ∧
      run'.current.endedAt = run.current.endedAt ∧ ∃ es, Confined run.current.id es w w' := by
  induction h with
  | refl pending run w => exact ⟨hw, hk, rfl, rfl, [], .refl hw.keyed⟩
  | visit hvisit hwalk ih =>
    obtain ⟨hw₁, hk₁, hid₁, hended₁, hconf₁⟩ := visit_kept hw hk hvisit
    obtain ⟨hw₂, hk₂, hid₂, hended₂, es, hconf₂⟩ := ih hw₁ hk₁
    rw [hid₁] at hconf₂
    exact ⟨hw₂, hk₂, hid₂.trans hid₁, hended₂.trans hended₁, _, hconf₁.trans hconf₂⟩

/-! ## Traversals -/

lemma traverse_cons (d : Definition) (limit left : Nat) (c : Cursor) (rest : List Cursor)
    (run : Run) :
    traverse d limit (left + 1) (c :: rest) run = (do
      let (next, run) ← run.visit d c
      traverse d limit left (next ++ rest) run) := rfl

/-- A traversal that succeeds is a walk of all tokens to where they wait or end. -/
theorem walks_of_traverse {limit left : Nat}
    (h : traverse d limit left pending run w = .ok run' w') :
    Walks d pending run w [] run' w' := by
  induction left generalizing pending run w with
  | zero =>
    cases pending with
    | nil =>
      cases h
      exact .refl _ _ _
    | cons c rest => cases h
  | succ left ih =>
    cases pending with
    | nil =>
      cases h
      exact .refl _ _ _
    | cons c rest =>
      rw [traverse_cons, Action.bind_eq_ok] at h
      obtain ⟨⟨next, run₁⟩, w₁, hvisit, hrest⟩ := h
      exact .visit hvisit (ih hrest)

/-- A traversal from a sound workspace succeeds or fails; either way the workspace is sound then,
and only the states of its own instance have changed. -/
theorem traverse_spec (limit left : Nat) (hw : w.Sound) (hk : (run.stage pending w).Kept d) :
    (∃ e w' es, traverse d limit left pending run w = .error e w' ∧ w'.Sound ∧
        Confined run.current.id es w w') ∨
      ∃ run' w' es, traverse d limit left pending run w = .ok run' w' ∧ w'.Sound ∧
        (run'.stage [] w').Kept d ∧ run'.current.id = run.current.id ∧
        run'.current.endedAt = run.current.endedAt ∧ Confined run.current.id es w w' := by
  cases htraverse : traverse d limit left pending run w with
  | ok run' w' =>
    obtain ⟨hw', hk', hid, hended, es, hconf⟩ := (walks_of_traverse htraverse).kept hw hk
    exact .inr ⟨run', w', es, rfl, hw', hk', hid, hended, hconf⟩
  | error e w' =>
    suffices hfail : w'.Sound ∧ ∃ es, Confined run.current.id es w w' by
      obtain ⟨hw', es, hconf⟩ := hfail
      exact .inl ⟨e, w', es, rfl, hw', hconf⟩
    induction left generalizing pending run w with
    | zero =>
      cases pending with
      | nil => cases htraverse
      | cons c rest =>
        cases htraverse
        exact ⟨hw, [], .refl hw.keyed⟩
    | succ left ih =>
      cases pending with
      | nil => cases htraverse
      | cons c rest =>
        rw [traverse_cons, Action.bind_eq_error] at htraverse
        rcases htraverse with hvisit | ⟨⟨next, run₁⟩, w₁, hvisit, hrest⟩
        · rcases visit_spec (d := d) hw (hk.pending c List.mem_cons_self) with
            ⟨e', v, herror, -, hstore, hconf⟩ | ⟨next, run₁, v, hok, -⟩
          · rw [hvisit] at herror
            cases herror
            exact ⟨hw.congr hstore hconf.issued, _, hconf⟩
          · rw [hvisit] at hok
            cases hok
        · obtain ⟨hw₁, hk₁, hid₁, -, hconf₁⟩ := visit_kept hw hk hvisit
          obtain ⟨hw', es, hconf⟩ := ih hw₁ hk₁ hrest
          rw [hid₁] at hconf
          exact ⟨hw', _, hconf₁.trans hconf⟩

end Run

end ProcessEngine

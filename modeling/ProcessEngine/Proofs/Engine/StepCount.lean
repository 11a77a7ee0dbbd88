import ProcessEngine.Proofs.Engine.Walk

/-!
# Counting visits

`Run.WalksIn` counts the visits of a walk.  Whatever the graph, a walk ends within the visits that
it is allowed, in one of three ways (`Run.walk_ends`): every token waits or has ended, a token is
refused, or a token is still in flight after the last visit.  A walk of the first or second kind
does not depend on the limit (`Run.Ends.walk_mono`).
-/

namespace ProcessEngine.Run

variable {d : Definition} {run run' : Run} {w w' : Workspace} {pending pending' : List Cursor}
  {n limit : Nat}

/-- Tokens in flight make a number of visits, one after the other. -/
inductive WalksIn (d : Definition) :
    Nat → List Cursor → Run → Workspace → List Cursor → Run → Workspace → Prop
  | refl (pending : List Cursor) (run : Run) (w : Workspace) :
      WalksIn d 0 pending run w pending run w
  | visit {n : Nat} {c : Cursor} {next rest pending' : List Cursor} {run run' run'' : Run}
      {w w' w'' : Workspace} (hvisit : run.visit d c w = .ok (next, run') w')
      (hwalk : WalksIn d n (next ++ rest) run' w' pending' run'' w'') :
      WalksIn d (n + 1) (c :: rest) run w pending' run'' w''

lemma traverse_nil (d : Definition) (limit left : Nat) (run : Run) :
    traverse d limit left [] run = pure run := by
  cases left <;> rfl

/-- A traversal that has made some visits goes on from where they led, with those that are left. -/
lemma WalksIn.traverse_add (h : WalksIn d n pending run w pending' run' w') (limit left : Nat) :
    traverse d limit (n + left) pending run w = traverse d limit left pending' run' w' := by
  induction h with
  | refl => rw [Nat.zero_add]
  | visit hvisit _ ih =>
    rw [Nat.add_right_comm, traverse_cons, Action.bind_of_ok hvisit]
    exact ih

/-- How far tokens come in a number of visits: they all wait or have ended before, or one of them is
refused, or all visits are made. -/
lemma walks_as_far (d : Definition) (limit : Nat) (pending : List Cursor) (run : Run)
    (w : Workspace) :
    (∃ n ≤ limit, ∃ run' w', WalksIn d n pending run w [] run' w') ∨
      (∃ n < limit, ∃ c rest run' w' err v, WalksIn d n pending run w (c :: rest) run' w' ∧
        run'.visit d c w' = .error err v) ∨
      ∃ c rest run' w', WalksIn d limit pending run w (c :: rest) run' w' := by
  induction limit generalizing pending run w with
  | zero =>
    cases pending with
    | nil => exact .inl ⟨0, Nat.le_refl 0, run, w, .refl [] run w⟩
    | cons c rest => exact .inr (.inr ⟨c, rest, run, w, .refl _ run w⟩)
  | succ limit ih =>
    cases pending with
    | nil => exact .inl ⟨0, Nat.zero_le _, run, w, .refl [] run w⟩
    | cons c rest =>
      cases hvisit : run.visit d c w with
      | error err v =>
        exact .inr (.inl ⟨0, Nat.succ_pos _, c, rest, run, w, err, v, .refl _ run w, hvisit⟩)
      | ok moved w₁ =>
        obtain ⟨next, run₁⟩ := moved
        -- The visits that are left are shared by the tokens that have come out and the others.
        rcases ih (next ++ rest) run₁ w₁ with
          ⟨n, hn, run', w', hwalk⟩ | ⟨n, hn, c', rest', run', w', err, v, hwalk, hfail⟩ |
          ⟨c', rest', run', w', hwalk⟩
        · exact .inl ⟨n + 1, Nat.succ_le_succ hn, run', w', .visit hvisit hwalk⟩
        · exact .inr (.inl ⟨n + 1, Nat.succ_lt_succ hn, c', rest', run', w', err, v,
            .visit hvisit hwalk, hfail⟩)
        · exact .inr (.inr ⟨c', rest', run', w', .visit hvisit hwalk⟩)

/-- How a walk of at most `limit` visits ends, and how many it has made: every token waits or has
ended, or the last visit is refused, or all visits are made and a token is still in flight. -/
inductive Ends (d : Definition) (limit : Nat) (pending : List Cursor) (run : Run) (w : Workspace) :
    Nat → EStateM.Result EngineError Workspace Run → Prop
  | done {n : Nat} {run' : Run} {w' : Workspace} (hn : n ≤ limit)
      (hwalk : WalksIn d n pending run w [] run' w') : Ends d limit pending run w n (.ok run' w')
  | refused {n : Nat} {c : Cursor} {rest : List Cursor} {run' : Run} {w' v : Workspace}
      {err : EngineError} (hn : n < limit) (hwalk : WalksIn d n pending run w (c :: rest) run' w')
      (hvisit : run'.visit d c w' = .error err v) :
      Ends d limit pending run w (n + 1) (.error err v)
  | cut {c : Cursor} {rest : List Cursor} {run' : Run} {w' : Workspace}
      (hwalk : WalksIn d limit pending run w (c :: rest) run' w') :
      Ends d limit pending run w limit (.error (.traversalLimitExceeded run'.current.id limit) w')

variable {x : EStateM.Result EngineError Workspace Run}

lemma Ends.le (h : Ends d limit pending run w n x) : n ≤ limit := by
  cases h with
  | done hn => exact hn
  | refused hn => exact hn
  | cut => exact Nat.le_refl _

/-- A walk in which every token comes to wait or to an end succeeds if it is allowed its visits. -/
lemma WalksIn.walk_ok (h : WalksIn d n pending run w [] run' w') (hn : n ≤ limit) :
    run.walk d limit pending w = .ok run' w' := by
  obtain ⟨left, rfl⟩ := Nat.exists_eq_add_of_le hn
  rw [walk, h.traverse_add, traverse_nil, Action.pure_apply]

/-- A walk to a visit that is refused fails if it is allowed its visits and that one. -/
lemma WalksIn.walk_error {c : Cursor} {rest : List Cursor} {err : EngineError} {v : Workspace}
    (h : WalksIn d n pending run w (c :: rest) run' w') (hn : n < limit)
    (hvisit : run'.visit d c w' = .error err v) : run.walk d limit pending w = .error err v := by
  obtain ⟨left, rfl⟩ := Nat.exists_eq_add_of_lt hn
  rw [walk, Nat.add_assoc, h.traverse_add, traverse_cons, Action.bind_of_error hvisit]

/-- A walk with tokens in flight after all visits that it is allowed is cut. -/
lemma WalksIn.walk_cut {c : Cursor} {rest : List Cursor}
    (h : WalksIn d limit pending run w (c :: rest) run' w') :
    run.walk d limit pending w =
      .error (.traversalLimitExceeded run'.current.id limit) w' :=
  h.traverse_add limit 0

/-- **Every walk ends**, whatever the graph, within the visits that it is allowed. -/
theorem walk_ends (d : Definition) (limit : Nat) (pending : List Cursor) (run : Run)
    (w : Workspace) : ∃ n, Ends d limit pending run w n (run.walk d limit pending w) := by
  rcases walks_as_far d limit pending run w with
    ⟨n, hn, run', w', hwalk⟩ | ⟨n, hn, c, rest, run', w', err, v, hwalk, hvisit⟩ |
    ⟨c, rest, run', w', hwalk⟩
  · rw [hwalk.walk_ok hn]
    exact ⟨n, .done hn hwalk⟩
  · rw [hwalk.walk_error hn hvisit]
    exact ⟨n + 1, .refused hn hwalk hvisit⟩
  · rw [hwalk.walk_cut]
    exact ⟨limit, .cut hwalk⟩

/-- A walk that is not cut does not depend on the limit. -/
theorem Ends.walk_mono {limit' : Nat} (h : Ends d limit pending run w n x)
    (huncut : ∀ id v, x ≠ .error (.traversalLimitExceeded id limit) v) (hle : limit ≤ limit') :
    run.walk d limit' pending w = x := by
  cases h with
  | done hn hwalk => exact hwalk.walk_ok (Nat.le_trans hn hle)
  | refused hn hwalk hvisit => exact hwalk.walk_error (Nat.lt_of_lt_of_le hn hle) hvisit
  | cut => exact absurd rfl (huncut _ _)

end ProcessEngine.Run

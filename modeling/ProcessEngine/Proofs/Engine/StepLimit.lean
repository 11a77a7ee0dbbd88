import ProcessEngine.Proofs.Engine.CutWalks
import ProcessEngine.Proofs.Engine.Failures
import ProcessEngine.Proofs.Engine.Successes
import ProcessEngine.Proofs.Renaming.Calls

/-!
# The step limit

How many elements a call may visit has no part in what the call comes to, except that a walk is cut
if tokens are still in flight after that many visits: starting and continuing an instance come to
the same under a higher limit unless they are cut, in whatever state the engine is
(`limit_only_cuts`).
-/

namespace ProcessEngine.Engine

open ProcessEngine.Action

/-- The engine with another step limit. -/
def limited (e : Engine) (m : Nat) : Engine :=
  { e with config := { e.config with maxTraversalSteps := m } }

/-- The outcome of a call, with another step limit from then on. -/
def under (m : Nat) (x : Except EngineError Instance × Engine) :
    Except EngineError Instance × Engine :=
  (x.1, x.2.limited m)

/-- A result that says that the walk of the call was cut. -/
def Cut (result : Except EngineError Instance) : Prop :=
  ∃ id limit, result = .error (.traversalLimitExceeded id limit)

/-- The walk that a call sets out on: from the first start event of a new instance, or from a task
that has been completed. -/
inductive SetsOut (e : Engine) : Call → Definition → List Cursor → Run → Workspace → Prop
  | start {d : Definition} {businessKey : String} {vars : Option Variables} {first : Node}
      {rest : List Node} {run : Run} {supply : Supply} (hstart : d.startEvents = first :: rest)
      (hopening : opening e.workspace.supply d businessKey (vars.getD []) = (run, supply)) :
      SetsOut e (.start d businessKey vars) d [⟨first.id, []⟩] run { e.workspace with supply }
  | proceed {id task : String} {updates : Option Variables} {r : Registered} {token : Token}
      {run : Run} {w : Workspace} (hlive : e.live id = .ok r)
      (htask : completeTask ((Run.on (r.current.mergeVariables (updates.getD []))).emit
        (.processContinue id (some task))) r.definition task e.workspace = .ok (token, run) w) :
      SetsOut e (.proceed id (some task) updates) r.definition
        (r.definition.leave task token.frames) run w

variable {e : Engine} {c : Call} {d : Definition} {pending : List Cursor} {run : Run}
  {w : Workspace} {m m' : Nat} {err : EngineError}

lemma cut_error_iff : Cut (.error err) ↔ err.isCut = true := by
  constructor
  · rintro ⟨id, limit, h⟩
    cases h
    rfl
  · intro h
    cases err with
    | traversalLimitExceeded id limit => exact ⟨id, limit, rfl⟩
    | _ => cases h

lemma not_cut_ok (i : Instance) : ¬Cut (.ok i) := by
  rintro ⟨id, limit, h⟩
  cases h

lemma undoing_error_iff {id : String} {a : Action Run} :
    (∃ v, undoing id a w = .error err v) ↔ ∃ v, a w = .error err v := by
  rw [undoing]
  cases a w with
  | ok x v => simp
  | error err' v => simp

/-- A new instance is not started just if its walk fails. -/
lemma firstWalk_error_iff {first : Node} :
    (∃ v, firstWalk run d m first w = .error err v) ↔
      ∃ v, run.walk d m [⟨first.id, []⟩] w = .error err v :=
  bind_error_iff fun _ _ _ _ => Run.finish_ne_error

/-- After a task has been completed, an instance is not continued just if its walk fails. -/
lemma continueFrom_error_iff {task : String} {token : Token} {run' : Run} {w' : Workspace}
    (htask : completeTask run d task w = .ok (token, run') w') :
    (∃ v, continueFrom run d m task w = .error err v) ↔
      ∃ v, run'.walk d m (d.leave task token.frames) w' = .error err v := by
  rw [continueFrom, bind_of_ok htask]
  exact (bind_error_iff fun _ _ _ _ => Run.finish_ne_error).trans undoing_error_iff

lemma carryOut_error_iff {a : Action Run} :
    (e.carryOut d a).1 = .error err ↔ ∃ v, a e.workspace = .error err v := by
  rw [carryOut]
  cases h : a e.workspace with
  | ok run v => simp [perform_ok h]
  | error err' v => simp [perform_error h]

/-- What a start does with the outcome of the first walk. -/
def conclude (e : Engine) (d : Definition) (id : String) :
    EStateM.Result EngineError Workspace Run → Except EngineError Instance × Engine
  | .ok run w => (.ok run.current, (commit { e with workspace := w } d run).2)
  | .error err w =>
    (.error err, { e with workspace := { w with store := (w.store.deleteInstance id).2 } })

lemma commit_limited (e : Engine) (m : Nat) (d : Definition) (run : Run) :
    ((e.limited m).commit d run).2 = (e.commit d run).2.limited m := by
  rw [commit, commit, settle, settle]
  split_ifs <;> rfl

lemma conclude_limited (e : Engine) (m : Nat) (d : Definition) (id : String)
    (x : EStateM.Result EngineError Workspace Run) :
    (e.limited m).conclude d id x = under m (e.conclude d id x) := by
  cases x with
  | ok run w => exact congrArg (Prod.mk _) (commit_limited { e with workspace := w } m d run)
  | error err w => rfl

lemma carryOut_limited (e : Engine) (m : Nat) (d : Definition) (a : Action Run) :
    (e.limited m).carryOut d a = under m (e.carryOut d a) := by
  rw [carryOut, carryOut]
  cases h : a e.workspace with
  | ok run w =>
    rw [perform_ok h, perform_ok (e := e.limited m) h]
    exact congrArg (Prod.mk _) (commit_limited { e with workspace := w } m d run)
  | error err w =>
    rw [perform_error h, perform_error (e := e.limited m) h]
    rfl

/-- A start under a limit walks from the first start event. -/
lemma call_start {businessKey : String} {vars : Option Variables} {first : Node} {rest : List Node}
    {supply : Supply} (hstart : d.startEvents = first :: rest)
    (hopening : opening e.workspace.supply d businessKey (vars.getD []) = (run, supply)) (m : Nat) :
    (e.limited m).call (.start d businessKey vars) = under m
      (e.conclude d run.current.id (firstWalk run d m first { e.workspace with supply })) := by
  rw [call, start_eq (e.limited m) hstart hopening, ← conclude_limited]
  generalize hx : firstWalk run d m first { e.workspace with supply } = x
  have hx' : firstWalk run d (e.limited m).config.maxTraversalSteps first
      { (e.limited m).workspace with supply } = x := hx
  rw [hx']
  cases x <;> rfl

section Live

variable {id : String} {r : Registered}

/-- A call on a live instance under a limit carries out a continuation. -/
lemma call_proceed (hlive : e.live id = .ok r) (m : Nat) (task : Option String)
    (updates : Option Variables) :
    (e.limited m).call (.proceed id task updates) =
      under m (e.carryOut r.definition (continuation m id task updates r)) := by
  rw [← carryOut_limited, call, continueInstance_eq, onLive,
    show (e.limited m).live id = .ok r from hlive]
  rfl

/-- A call on any other instance is refused under every limit. -/
lemma call_refused (hlive : e.live id = .error err) (m : Nat) (task : Option String)
    (updates : Option Variables) :
    (e.limited m).call (.proceed id task updates) = under m (.error err, e) := by
  rw [call, continueInstance_eq, onLive, show (e.limited m).live id = .error err from hlive]
  rfl

lemma isCut_of_live_error (hlive : e.live id = .error err) : err.isCut = false := by
  rw [live] at hlive
  split at hlive
  · cases hlive
    rfl
  · split_ifs at hlive
    cases hlive
    rfl

end Live

lemma isCut_of_completeTask_error {task : String} {w' : Workspace}
    (h : completeTask run d task w = .error err w') : err.isCut = false := by
  rcases completeTask_error h with ⟨-, rfl⟩ | ⟨token, -, ⟨-, rfl⟩ | ⟨-, rfl⟩⟩ <;> rfl

/-- A call that sets out on a walk fails just as the walk does. -/
theorem SetsOut.fails_iff (h : e.SetsOut c d pending run w) (m : Nat) (err : EngineError) :
    ((e.limited m).call c).1 = .error err ↔ ∃ v, run.walk d m pending w = .error err v := by
  cases h with
  | @start d businessKey vars first rest run supply hstart hopening =>
    rw [call_start hstart hopening, ← firstWalk_error_iff]
    cases firstWalk run d m first { e.workspace with supply } with
    | ok run' v => simp [under, conclude]
    | error err' v => simp [under, conclude]
  | @proceed id task updates r token run w hlive htask =>
    rw [call_proceed hlive, under, carryOut_error_iff]
    exact continueFrom_error_iff htask

/-- Only a call that sets out on a walk is cut. -/
lemma exists_setsOut (hc : c.moves = true) (hcut : Cut ((e.limited m).call c).1) :
    ∃ d pending run w, e.SetsOut c d pending run w := by
  cases c with
  | start d businessKey vars =>
    cases hstart : d.startEvents with
    | nil =>
      rw [call, Engine.start, hstart, cut_error_iff] at hcut
      cases hcut
    | cons first rest => exact ⟨d, _, _, _, .start hstart rfl⟩
  | proceed id task updates =>
    cases hlive : e.live id with
    | error err =>
      rw [call_refused hlive, under, cut_error_iff, isCut_of_live_error hlive] at hcut
      cases hcut
    | ok r =>
      rw [call_proceed hlive] at hcut
      cases task with
      | none => exact absurd hcut (not_cut_ok _)
      | some task =>
        generalize hrun : (Run.on (r.current.mergeVariables (updates.getD []))).emit
          (.processContinue id (some task)) = run
        cases htask : completeTask run r.definition task e.workspace with
        | ok taken w =>
          rw [← hrun] at htask
          exact ⟨_, _, _, _, .proceed hlive htask⟩
        | error err v =>
          have herr := isCut_of_completeTask_error htask
          rw [← hrun] at htask
          have hfail : (e.carryOut r.definition (continuation m id (some task) updates r)).1 =
              .error err := carryOut_error_iff.2 ⟨v, bind_of_error htask _⟩
          rw [under, hfail, cut_error_iff, herr] at hcut
          cases hcut
  | _ => cases hc

/-- A call that is not cut comes to the same under a higher limit. -/
lemma call_limited (e : Engine) (hc : c.moves = true) (hle : m ≤ m')
    (huncut : ¬Cut ((e.limited m).call c).1) :
    (e.limited m').call c = under m' ((e.limited m).call c) := by
  have hreason : ∀ {err}, ((e.limited m).call c).1 = .error err → err.isCut = false := by
    intro err hfail
    by_contra hcut
    rw [hfail, cut_error_iff] at huncut
    exact huncut (Bool.eq_true_of_not_eq_false hcut)
  cases c with
  | start d businessKey vars =>
    cases hstart : d.startEvents with
    | nil =>
      rw [call, call, Engine.start, Engine.start, hstart]
      rfl
    | cons first rest =>
      obtain ⟨run, supply, hopening⟩ : ∃ run supply,
          opening e.workspace.supply d businessKey (vars.getD []) = (run, supply) := ⟨_, _, rfl⟩
      rw [call_start hstart hopening] at hreason
      have hsame : firstWalk run d m' first { e.workspace with supply } =
          firstWalk run d m first { e.workspace with supply } :=
        firstWalk_cutOnly run d first m m' hle _ fun err v hfail => hreason <| by
          simp only [hfail]
          rfl
      rw [call_start hstart hopening, call_start hstart hopening, hsame]
      rfl
  | proceed id task updates =>
    cases hlive : e.live id with
    | error err =>
      rw [call_refused hlive, call_refused hlive]
      rfl
    | ok r =>
      rw [call_proceed hlive] at hreason
      rw [call_proceed hlive, call_proceed hlive]
      have hsame : continuation m' id task updates r e.workspace =
          continuation m id task updates r e.workspace :=
        continuation_cutOnly id task updates r m m' hle e.workspace fun err v hfail =>
          hreason (carryOut_error_iff.2 ⟨v, hfail⟩)
      rw [carryOut, carryOut, perform, perform, EStateM.run, EStateM.run, hsame]
      rfl
  | _ => cases hc

/-! ### With other ids and times -/

section Alike

variable {κ : Renaming} {e' : Engine}

lemma Sound.limited (h : e.Sound) (m : Nat) : (e.limited m).Sound :=
  ⟨h.workspace, h.known, h.stored, h.kept, h.ended⟩

lemma cut_iff_of_seenResult {x y : Except EngineError Instance}
    (h : seenResult κ x = seenResult .same y) : Cut x ↔ Cut y := by
  have hseen : ∀ (κ : Renaming) (err : EngineError), (err.seen κ).isCut = err.isCut := by
    intro κ err
    cases err <;> rfl
  cases x with
  | ok i =>
    cases y with
    | ok j => exact iff_of_false (not_cut_ok i) (not_cut_ok j)
    | error err => cases h
  | error err =>
    cases y with
    | ok j => cases h
    | error err' =>
      rw [cut_error_iff, cut_error_iff, ← hseen κ err, ← hseen .same err', Except.error.inj h]

/-- A call that is not cut comes to the same under a higher limit with an engine that looks the
same, whatever ids and times that one hands out. -/
lemma call_limited_alike (hc : c.moves = true) (hle : m ≤ m')
    (huncut : ¬Cut ((e.limited m).call c).1) (hs : e.Sound) (hs' : e'.Sound)
    (halike : (e.limited m).Alike κ (e'.limited m)) :
    ∃ κ', κ.Extends κ' e e' ∧ SameOutcome κ' (e.limited m) (e'.limited m) ((e.limited m).call c)
      (under m ((e'.limited m').call (c.renamed κ))) := by
  obtain ⟨κ', hextends, hsame⟩ := call_alike halike (hs.limited m) (hs'.limited m) c
  have hmoves : (c.renamed κ).moves = true := by
    cases c <;> first | rfl | cases hc
  have huncut' : ¬Cut ((e'.limited m).call (c.renamed κ)).1 :=
    (cut_iff_of_seenResult hsame.result).not.1 huncut
  refine ⟨κ', ⟨hextends.names, hextends.uid⟩, ?_⟩
  -- Under the low limit the other engine comes to the same, and the limit is what it was.
  have hback : under m ((e'.limited m').call (c.renamed κ)) =
      (e'.limited m).call (c.renamed κ) := by
    rw [call_limited e' hmoves hle huncut']
    exact (call_limited e' hmoves (Nat.le_refl m) huncut').symm
  rwa [hback]

end Alike

/-- **The step limit only cuts.** In every state of an engine a call that starts or continues an
instance makes at most as many visits as its limit allows, and fails just as its walk does.  It is
cut if and only if a token is in flight after all of them.  If it is not cut, it comes to the same
under every higher limit: the same result, and the same engine but for the limit; and so it does
with an engine that looks the same and hands out other ids and times. -/
theorem limit_only_cuts (e : Engine) {c : Call} (hc : c.moves = true) {m m' : Nat}
    (hle : m ≤ m') :
    (∀ d pending run w, e.SetsOut c d pending run w →
      ∃ n ≤ m, Run.Ends d m pending run w n (run.walk d m pending w) ∧
        ∀ err, ((e.limited m).call c).1 = .error err ↔
          ∃ v, run.walk d m pending w = .error err v) ∧
    (Cut ((e.limited m).call c).1 ↔
      ∃ d pending run w next rest run' w', e.SetsOut c d pending run w ∧
        Run.WalksIn d m pending run w (next :: rest) run' w') ∧
    (¬Cut ((e.limited m).call c).1 →
      (e.limited m').call c = under m' ((e.limited m).call c) ∧
      ∀ κ e', e.Sound → e'.Sound → (e.limited m).Alike κ (e'.limited m) →
        ∃ κ', κ.Extends κ' e e' ∧ SameOutcome κ' (e.limited m) (e'.limited m)
          ((e.limited m).call c) (under m ((e'.limited m').call (c.renamed κ)))) := by
  refine ⟨fun d pending run w hwalk => ?_, ⟨fun hcut => ?_, ?_⟩, fun huncut => ⟨?_, ?_⟩⟩
  · obtain ⟨n, hends⟩ := Run.walk_ends d m pending run w
    exact ⟨n, hends.le, hends, hwalk.fails_iff m⟩
  · obtain ⟨d, pending, run, w, hwalk⟩ := exists_setsOut hc hcut
    obtain ⟨id, limit, hfail⟩ := hcut
    obtain ⟨v, hcut⟩ := (hwalk.fails_iff m _).1 hfail
    obtain ⟨next, rest, run', w', hvisits⟩ :=
      (Run.walk_cut_iff d m pending run w).1 ⟨_, v, rfl, hcut⟩
    exact ⟨d, pending, run, w, next, rest, run', w', hwalk, hvisits⟩
  · rintro ⟨d, pending, run, w, next, rest, run', w', hwalk, hvisits⟩
    exact ⟨_, _, (hwalk.fails_iff m _).2 ⟨w', hvisits.walk_cut⟩⟩
  · exact call_limited e hc hle huncut
  · exact fun κ e' hs hs' halike => call_limited_alike hc hle huncut hs hs' halike

/-- A fork within a cycle: its branches come back to the join before it, one of them only after a
task. -/
def rounds : Definition :=
  { Definition.empty "rounds" with
    startEvents := [.unnamed "start"]
    userTasks := [.unnamed "u"]
    serviceTasks := [.unnamed "s"]
    gateways := [.unnamed "j" .inclusive none, .unnamed "f" .parallel none]
    flows := [⟨"f1", "start", "j", none⟩, ⟨"f2", "j", "f", none⟩, ⟨"f3", "f", "u", none⟩,
      ⟨"f4", "f", "s", none⟩, ⟨"f5", "u", "j", none⟩, ⟨"f6", "s", "j", none⟩] }

/-- A start of it. -/
def round : Call := .start rounds "key" none

/-- Six visits are enough, and nine make no difference; after five a token is still in flight. -/
theorem limit_only_cuts_rounds : round.moves = true ∧ 6 ≤ 9 ∧ 5 ≤ 6 ∧
    ¬Cut ((small.limited 6).call round).1 ∧
    (small.limited 9).call round = under 9 ((small.limited 6).call round) ∧
    Cut ((small.limited 5).call round).1 ∧
    ∃ d pending run w next rest run' w', small.SetsOut round d pending run w ∧
      Run.WalksIn d 5 pending run w (next :: rest) run' w' := by
  have huncut : ¬Cut ((small.limited 6).call round).1 := by
    rintro ⟨id, limit, hfail⟩
    have hnone : failure? ((small.limited 6).call round).1 = none := by decide +kernel
    rw [hfail] at hnone
    cases hnone
  have hcut : Cut ((small.limited 5).call round).1 := by
    have hsome : (failure? ((small.limited 5).call round).1).any (·.isCut) = true := by
      decide +kernel
    obtain ⟨err, hfail, herr⟩ := (Option.any_eq_true _ _).1 hsome
    rw [error_of_failure? hfail, cut_error_iff]
    exact herr
  obtain ⟨-, -, hsame⟩ := limit_only_cuts small (c := round) rfl (show 6 ≤ 9 by decide)
  obtain ⟨-, hfive, -⟩ := limit_only_cuts small (c := round) rfl (show 5 ≤ 6 by decide)
  exact ⟨rfl, by decide, by decide, huncut, (hsame huncut).1, hcut, hfive.1 hcut⟩

end ProcessEngine.Engine

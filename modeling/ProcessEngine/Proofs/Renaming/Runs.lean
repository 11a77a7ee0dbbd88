import ProcessEngine.Proofs.Engine.Runs
import ProcessEngine.Proofs.Renaming.Walk

/-!
# Runs of calls that go on alike

Each action that a call to the engine performs looks only at what is seen of the instance.  So two
such actions go on alike if the instances, the states and the identifiers to come look the same.
-/

namespace ProcessEngine

/-- A registered instance and its definition as they are seen. -/
def Registered.seen (κ : Renaming) (r : Registered) : Registered :=
  { r with current := r.current.seen κ }

/-- Runs that look the same. -/
def SameRun (κ : Renaming) (run run' : Run) : Prop := run.seen κ = run'.seen .same

variable {κ : Renaming} {w w' : Workspace} {run run' : Run} {d : Definition}

namespace Run

lemma close_concurs (h : w.Alike κ w') (hrun : SameRun κ run run') :
    Outcomes κ (SameRun κ) w w' (run.close w) (run'.close w') := by
  rw [close, close, ← isEnded_of_seen hrun]
  split_ifs
  · exact .pure h hrun
  · refine .of_supply (n := 0) h ?_ rfl rfl
    have hseen := hrun
    simp only [SameRun, seen, Instance.seen, mk.injEq, Instance.mk.injEq] at hseen ⊢
    simp only [hseen, Option.map_some, and_self]

lemma finish_concurs (h : w.Alike κ w') (hrun : SameRun κ run run') :
    Outcomes κ (SameRun κ) w w' (run.finish w) (run'.finish w') := by
  have htokens : run.current.tokens.isEmpty = run'.current.tokens.isEmpty := by
    have hlength := congrArg List.isEmpty (tokens_of_seen hrun)
    simpa only [List.isEmpty_map] using hlength
  rw [finish, finish, ← isEnded_of_seen hrun, htokens]
  split_ifs
  · refine (close_concurs h hrun).bind fun closed closed' v v' _ _ hclosed halike =>
      .pure halike ?_
    rw [SameRun, seen_emit, seen_emit, hclosed, Event.seen, names_of_seen hclosed]
    rfl
  · exact .pure h hrun

/-- Entries for tokens that look the same. -/
lemma recordTokens_concurs (status : HistoryStatus) {ts ts' : List Token} (h : w.Alike κ w')
    (hrun : SameRun κ run run') (hts : ts.map (Token.seen κ) = ts'.map (Token.seen .same)) :
    Outcomes κ (SameRun κ) w w' (run.recordTokens d status ts w)
      (run'.recordTokens d status ts' w') := by
  induction ts generalizing ts' run run' w w' with
  | nil =>
    obtain rfl : ts' = [] := by simpa using hts.symm
    exact .pure h hrun
  | cons t rest ih =>
    cases ts' with
    | nil => simp at hts
    | cons t' rest' =>
      rw [List.map_cons, List.map_cons, List.cons.injEq] at hts
      obtain ⟨-, helement, -⟩ := Token.mk.inj hts.1
      rw [recordTokens, recordTokens, helement]
      exact (record_concurs h hrun _ _ status _ _).bind fun recorded recorded' v v' _ _ hrecorded
        halike => ih halike hrecorded hts.2

end Run

namespace Engine

open Run

/-! ## Completing a task -/

lemma find?_accepts_seen (κ : Renaming) (ts : List Token) (task : String) :
    (ts.map (Token.seen κ)).find? (·.accepts task) =
      (ts.find? (·.accepts task)).map (Token.seen κ) := by
  rw [List.find?_map]
  rfl

lemma seen_taken (κ : Renaming) (run : Run) (task : String) (token : Token) (element : Element)
    (now : Instant) :
    (taken run task token element now).seen κ = Run.passed { run.seen κ with
      current := { (run.seen κ).current with
        tokens := (run.seen κ).current.tokens.eraseP (·.accepts task) } } element := by
  rw [taken, seen_completed]
  simp only [seen, Instance.seen, List.eraseP_map]
  rfl

/-- Tokens and runs that look the same after a task is completed. -/
def SameTaken (κ : Renaming) (x x' : Token × Run) : Prop :=
  x.1.seen κ = x'.1.seen .same ∧ SameRun κ x.2 x'.2

lemma completeTask_concurs (h : w.Alike κ w') (hrun : SameRun κ run run') (task : String) :
    Outcomes κ (SameTaken κ) w w' (completeTask run d task w) (completeTask run' d task w') := by
  have hfind := congrArg (List.find? (·.accepts task)) (tokens_of_seen hrun)
  rw [find?_accepts_seen, find?_accepts_seen] at hfind
  have hid := names_of_seen hrun
  rw [completeTask_eq, completeTask_eq]
  cases htoken : run.current.tokens.find? (·.accepts task) with
  | none =>
    rw [htoken, Option.map_none, eq_comm, Option.map_eq_none_iff] at hfind
    rw [hfind]
    refine .throw h ?_
    rw [EngineError.seen, hid]
    rfl
  | some token =>
    rw [htoken, Option.map_some, eq_comm, Option.map_eq_some_iff] at hfind
    obtain ⟨token', htoken', hsame⟩ := hfind
    obtain ⟨-, -, -, hsuspended, -⟩ := Token.mk.inj hsame
    rw [htoken']
    simp only [hsuspended]
    split_ifs
    · refine .throw h ?_
      rw [EngineError.seen, hid]
      rfl
    · cases d.element? task with
      | none => exact .throw h rfl
      | some element =>
        refine .of_supply (n := 0) h ⟨hsame.symm, ?_⟩ rfl rfl
        rw [SameRun, seen_taken, seen_taken, hrun]

/-! ## Walking on -/

/-- Two actions that go on alike do so as well if they are undone when they fail. -/
lemma undoing_concurs {α : Type} {R : α → α → Prop} {a a' : Action α} {id id' : String}
    (hw : w.Sound) (hw' : w'.Sound) (h : w.Alike κ w') (ha : Outcomes κ R w w' (a w) (a' w'))
    (hc : ∀ e v, a w = .error e v → ∃ es, Confined id es w v)
    (hc' : ∀ e v, a' w' = .error e v → ∃ es, Confined id' es w' v) :
    Outcomes κ R w w' (undoing id a w) (undoing id' a' w') := by
  rw [undoing, undoing]
  generalize hx : a w = x at ha
  generalize hx' : a' w' = x' at ha
  cases ha with
  | ok hvalue halike hnews => exact .ok hvalue halike hnews
  | @error e e' v v' herror halike hnews =>
    obtain ⟨es, hconf⟩ := hc e v hx
    obtain ⟨es', hconf'⟩ := hc' e' v' hx'
    have hback := (Unseen.of_restore hw.keyed hconf).states
    have hback' := (Unseen.of_restore hw'.keyed hconf').states
    refine .error herror ⟨fun q => ?_, halike.fresh⟩ hnews
    exact (congrArg _ (hback q)).trans ((h.states q).trans (congrArg _ (hback' (κ.names q)).symm))

lemma confined_of_traverse {limit : Nat} {pending : List Cursor} (hw : w.Sound)
    (hk : (run.stage pending w).Kept d) (e : EngineError) (v : Workspace)
    (hwalk : run.walk d limit pending w = .error e v) : ∃ es, Confined run.current.id es w v := by
  rcases traverse_spec limit limit hw hk with ⟨e', v', es, herror, -, hconf⟩ | ⟨_, _, _, hok, -⟩
  · rw [walk, herror] at hwalk
    cases hwalk
    exact ⟨es, hconf⟩
  · rw [walk, hok] at hwalk
    cases hwalk

theorem continueFrom_concurs (limit : Nat) (task : String) (hw : w.Sound) (hw' : w'.Sound)
    (h : w.Alike κ w') (hrun : SameRun κ run run')
    (hk : Kept d run.current (w.store.states run.current.id))
    (hk' : Kept d run'.current (w'.store.states run'.current.id)) :
    Outcomes κ (SameRun κ) w w' (continueFrom run d limit task w)
      (continueFrom run' d limit task w') := by
  refine (completeTask_concurs h hrun task).bind ?_
  rintro ⟨token, taken⟩ ⟨token', taken'⟩ v v' htask htask' ⟨htoken, htaken⟩ halike
  obtain ⟨hsound, hstage, -, -⟩ := completeTask_kept hw hk htask
  obtain ⟨hsound', hstage', -, -⟩ := completeTask_kept hw' hk' htask'
  obtain ⟨-, -, -, -, hframes⟩ := Token.mk.inj htoken
  exact (undoing_concurs hsound hsound' halike
    (traverse_concurs limit limit hsound hsound' halike htaken (map_seen_leave d task hframes)
      hstage hstage')
    (confined_of_traverse hsound hstage) (confined_of_traverse hsound' hstage')).bind
      fun walked walked' v v' _ _ hwalked halike => finish_concurs halike hwalked

/-- The first walks of two new instances. -/
theorem firstWalk_concurs (limit : Nat) (start : Node) (hw : w.Sound) (hw' : w'.Sound)
    (h : w.Alike κ w') (hrun : SameRun κ run run')
    (hk : Kept d run.current (w.store.states run.current.id))
    (hk' : Kept d run'.current (w'.store.states run'.current.id)) :
    Outcomes κ (SameRun κ) w w' (firstWalk run d limit start w)
      (firstWalk run' d limit start w') := by
  have hstage : (run.stage [⟨start.id, []⟩] w).Kept d := ⟨hw.states _, by simp [stage], hk⟩
  have hstage' : (run'.stage [⟨start.id, []⟩] w').Kept d := ⟨hw'.states _, by simp [stage], hk'⟩
  refine (traverse_concurs limit limit hw hw' h hrun rfl hstage hstage').bind
    fun walked walked' v v' _ _ hwalked halike => finish_concurs halike ?_
  rw [SameRun, seen_emit, seen_emit, hwalked, Event.seen, names_of_seen hwalked]
  rfl

/-! ## Calls on registered instances -/

section Registered

variable {r r' : Registered}

/-- What is seen of registered instances that look the same. -/
lemma of_registered_seen (hr : r.seen κ = r'.seen .same) :
    r.definition = r'.definition ∧ κ.names r.current.id = r'.current.id ∧
      r.current.state = r'.current.state ∧
      r.current.tokens.map (Token.seen κ) = r'.current.tokens.map (Token.seen .same) := by
  obtain ⟨hcurrent, hdefinition⟩ := Registered.mk.inj hr
  obtain ⟨hid, -, -, -, -, hstate, htokens, -⟩ := Instance.mk.inj hcurrent
  exact ⟨hdefinition, hid, hstate, htokens⟩

/-- Runs on instances that look the same, with tokens, states and events that look the same. -/
lemma sameRun_on (hr : r.seen κ = r'.seen .same) {tokens tokens' : List Token}
    (htokens : tokens.map (Token.seen κ) = tokens'.map (Token.seen .same))
    {state state' : InstanceState}
    (hstate : state = state') {events events' : List Event}
    (hevents : events.map (Event.seen κ) = events'.map (Event.seen .same)) :
    SameRun κ ⟨{ r.current with tokens, state }, events, []⟩
      ⟨{ r'.current with tokens := tokens', state := state' }, events', []⟩ := by
  obtain ⟨hcurrent, -⟩ := Registered.mk.inj hr
  simp only [SameRun, Run.seen, Instance.seen, Run.mk.injEq, Instance.mk.injEq, List.map_nil,
    and_true] at hcurrent ⊢
  simp only [hcurrent, htokens, hstate, hevents, and_self]

/-- Tokens that are chosen by what is seen of them. -/
lemma map_seen_filter (κ : Renaming) (choose : Token → Bool)
    (hchoose : ∀ t, choose (t.seen κ) = choose t) (ts : List Token) :
    (ts.filter choose).map (Token.seen κ) = (ts.map (Token.seen κ)).filter choose := by
  rw [List.filter_map]
  congr 1
  exact List.filter_congr fun t _ => (hchoose t).symm

lemma map_elementId_of_seen {ts ts' : List Token}
    (h : ts.map (Token.seen κ) = ts'.map (Token.seen .same)) :
    ts.map Token.elementId = ts'.map Token.elementId := by
  have hids := congrArg (List.map Token.elementId) h
  rw [List.map_map, List.map_map] at hids
  exact hids

/-- The actions of calls that change variables, and perhaps complete a task. -/
theorem continuation_concurs (limit : Nat) {id : String} (task : Option String)
    (updates : Option Variables) (hw : w.Sound) (hw' : w'.Sound) (h : w.Alike κ w')
    (hr : r.seen κ = r'.seen .same)
    (hk : Kept r.definition r.current (w.store.states r.current.id))
    (hk' : Kept r'.definition r'.current (w'.store.states r'.current.id)) :
    Outcomes κ (SameRun κ) w w' (continuation limit id task updates r w)
      (continuation limit (κ.names id) task updates r' w') := by
  obtain ⟨hdefinition, -⟩ := of_registered_seen hr
  have hrun : SameRun κ
      ((Run.on (r.current.mergeVariables (updates.getD []))).emit (.processContinue id task))
      ((Run.on (r'.current.mergeVariables (updates.getD []))).emit
        (.processContinue (κ.names id) task)) := by
    obtain ⟨hcurrent, -⟩ := Registered.mk.inj hr
    rw [SameRun, seen_emit, seen_emit]
    simp only [Run.on, Run.seen, Instance.seen, Instance.mergeVariables, Instance.mk.injEq,
      List.map_nil] at hcurrent ⊢
    simp only [hcurrent]
    rfl
  cases task with
  | none => exact .pure h hrun
  | some task =>
    simp only [continuation]
    rw [← hdefinition] at hk' ⊢
    exact continueFrom_concurs limit task hw hw' h hrun
      (hk.mergeVariables _) (hk'.mergeVariables _)

/-- Suspending and resuming change tokens by what is seen of them. -/
lemma map_seen_change (κ : Renaming) {change : Token → Token}
    (hchange : ∀ t, (change t).seen κ = change (t.seen κ)) (ts : List Token) :
    (ts.map change).map (Token.seen κ) = (ts.map (Token.seen κ)).map change := by
  rw [List.map_map, List.map_map]
  exact List.map_congr_left fun t _ => hchange t

lemma seen_suspendedTokens (κ : Renaming) (element : Option String) (ts : List Token) :
    (suspendedTokens element ts).map (Token.seen κ) =
      suspendedTokens element (ts.map (Token.seen κ)) :=
  map_seen_change κ (fun t => by
    rw [apply_ite (Token.seen κ)]
    rfl) ts

theorem suspendRun_concurs (element : Option String) (h : w.Alike κ w')
    (hr : r.seen κ = r'.seen .same) :
    Outcomes κ (SameRun κ) w w' (suspendRun r element w) (suspendRun r' element w') := by
  obtain ⟨hdefinition, hid, hstate, htokens⟩ := of_registered_seen hr
  have habsent : (fun x => r.current.tokens.all (·.elementId != x)) =
      fun x => r'.current.tokens.all (·.elementId != x) := by
    funext x
    have hall := congrArg (List.all · (· != x)) (map_elementId_of_seen htokens)
    simp only [List.all_map] at hall
    exact hall
  have hsuspended :
      (r.current.tokens.filter fun t => !t.suspended && isAt element t).map (Token.seen κ) =
        (r'.current.tokens.filter fun t => !t.suspended && isAt element t).map
          (Token.seen .same) := by
    rw [map_seen_filter κ _ fun _ => rfl, map_seen_filter .same _ fun _ => rfl, htokens]
  have hchanged : (suspendedTokens element r.current.tokens).map (Token.seen κ) =
      (suspendedTokens element r'.current.tokens).map (Token.seen .same) := by
    rw [seen_suspendedTokens, seen_suspendedTokens, htokens]
  rw [suspendRun_eq, suspendRun_eq, habsent]
  split
  · refine .throw h ?_
    rw [EngineError.seen, hid]
    rfl
  · have hstart : SameRun κ (suspending r element) (suspending r' element) := by
      refine sameRun_on hr hchanged hstate ?_
      simp only [Run.on, Run.emit, List.nil_append, List.map_cons, List.map_nil, Event.seen, hid]
      rfl
    rw [← hdefinition]
    refine (recordTokens_concurs .suspended h hstart hsuspended).bind
      fun recorded recorded' v v' _ _ hrecorded halike => .pure halike ?_
    have hall : (suspendedTokens element r.current.tokens).all (·.suspended) =
        (suspendedTokens element r'.current.tokens).all (·.suspended) := by
      have hall := congrArg (List.all · (·.suspended)) hchanged
      simp only [List.all_map] at hall
      exact hall
    simp only [SameRun, settleSuspension, seen_emit, hall, hstate, map_elementId_of_seen hsuspended]
    simp only [SameRun, Run.seen, Instance.seen, Run.mk.injEq, Instance.mk.injEq, Event.seen, hid,
      Run.emit] at hrecorded ⊢
    simp only [hrecorded, true_and, and_true]
    rfl

/-- Terminations go on alike. -/
theorem terminateRun_concurs (reason : Option String) (h : w.Alike κ w')
    (hr : r.seen κ = r'.seen .same) :
    Outcomes κ (SameRun κ) w w' (terminateRun r reason w) (terminateRun r' reason w') := by
  obtain ⟨hdefinition, hid, hstate, htokens⟩ := of_registered_seen hr
  have hstart : SameRun κ (terminating r reason) (terminating r' reason) := by
    refine sameRun_on hr rfl hstate ?_
    simp only [Run.on, List.nil_append, List.map_cons, List.map_nil, Event.seen, hid]
    rfl
  rw [terminateRun, terminateRun, ← hdefinition]
  refine (recordTokens_concurs .cancelled h hstart htokens).bind
    fun recorded recorded' v v' _ _ hrecorded halike => ?_
  refine (close_concurs halike hrecorded).bind fun closed closed' v v' _ _ hclosed halike =>
    .pure halike ?_
  rw [SameRun, seen_emit, seen_emit, hclosed, Event.seen, hid]
  rfl

theorem resumeRun_concurs (element : Option String) (h : w.Alike κ w')
    (hr : r.seen κ = r'.seen .same) :
    Outcomes κ (SameRun κ) w w' (resumeRun r element w) (resumeRun r' element w') := by
  obtain ⟨-, hid, -, htokens⟩ := of_registered_seen hr
  have hresumed : (r.current.tokens.filter fun t => t.suspended && isAt element t).map
      (Token.seen κ) =
      (r'.current.tokens.filter fun t => t.suspended && isAt element t).map (Token.seen .same) := by
    rw [map_seen_filter κ _ fun _ => rfl, map_seen_filter .same _ fun _ => rfl, htokens]
  have hnone := congrArg List.isEmpty hresumed
  rw [List.isEmpty_map, List.isEmpty_map] at hnone
  rw [resumeRun_eq, resumeRun_eq, hnone]
  split_ifs
  · refine .throw h ?_
    rw [EngineError.seen, hid]
    rfl
  · refine .pure h (sameRun_on hr ?_ rfl ?_)
    · have hchange : ∀ (κ : Renaming) (t : Token),
          (if t.suspended && isAt element t then { t with suspended := false } else t).seen κ =
            if (t.seen κ).suspended && isAt element (t.seen κ) then
              { t.seen κ with suspended := false } else t.seen κ := by
        intro κ t
        rw [apply_ite (Token.seen κ)]
        rfl
      rw [map_seen_change κ (hchange κ), map_seen_change .same (hchange .same), htokens]
    · simp only [Run.on, Run.emit, List.nil_append, List.map_append, List.map_cons, List.map_nil,
        Event.seen, hid, map_elementId_of_seen hresumed]
      rfl

end Registered

end Engine

end ProcessEngine

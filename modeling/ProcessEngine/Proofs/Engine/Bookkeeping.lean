import ProcessEngine.Proofs.Engine.CarriedForks
import ProcessEngine.Proofs.Engine.Failures
import ProcessEngine.Proofs.Gateway.Stacks

/-!
# Bookkeeping on forks and joins

The frames that tokens carry and that joins have collected agree with the stored fork states at
every stage, in the middle of a walk as well as between calls: each frame lists branches of its
fork, in order and at least one, no fork occurs twice in a stack, and the fork state that a frame
names is stored and says the same (`Books`, `bookkeeping`).  So gateways never look for a state that
is not there, nor count a branch that a join does not wait for, and no call fails that way.
-/

namespace ProcessEngine

/-! ## Clean stacks last -/

/-- All stacks in use are clean. -/
structure CleanStacks (pending : List Cursor) (i : Instance) (states : List GatewayState) :
    Prop where
  pending : ∀ c ∈ pending, Frame.Clean c.frames
  tokens : ∀ t ∈ i.tokens, Frame.Clean t.frames
  joins : CleanJoins states

namespace CleanStacks

variable {d : Definition} {c : Cursor} {rest next : List Cursor} {i j : Instance}
  {states states' : List GatewayState}

lemma first (h : CleanStacks (c :: rest) i states) : Frame.Clean c.frames :=
  h.pending c List.mem_cons_self

/-- The first token goes on. -/
lemma goOn (h : CleanStacks (c :: rest) i states) (hnext : ∀ x ∈ next, Frame.Clean x.frames)
    (htokens : j.tokens = i.tokens) (hjoins : CleanJoins states') :
    CleanStacks (next ++ rest) j states' where
  pending x hx := by
    rcases List.mem_append.1 hx with hx | hx
    · exact hnext x hx
    · exact h.pending x (List.mem_cons_of_mem c hx)
  tokens := by
    rw [htokens]
    exact h.tokens
  joins := hjoins

/-- The first token is parked. -/
lemma park {t : Token} (h : CleanStacks (c :: rest) i states) (ht : t.frames = c.frames)
    (htokens : j.tokens = i.tokens ++ [t]) (hjoins : CleanJoins states') :
    CleanStacks rest j states' where
  pending x hx := h.pending x (List.mem_cons_of_mem c hx)
  tokens o ho := by
    rw [htokens] at ho
    rcases List.mem_append.1 ho with ho | ho
    · exact h.tokens o ho
    · rw [List.mem_singleton.1 ho, ht]
      exact h.first
  joins := hjoins

end CleanStacks

variable {d : Definition}

/-- A visit keeps all stacks clean. -/
theorem Visited.cleanStacks {s t : Stage} (hsmall : d.flows.length < 4294967296) (hk : s.Kept d)
    (h : CleanStacks s.pending s.run.current s.states) (hv : Visited d s t) :
    CleanStacks t.pending t.run.current t.states := by
  have hleave : ∀ (x : String) {l : List Frame}, Frame.Clean l →
      ∀ c ∈ d.leave x l, Frame.Clean c.frames := by
    intro x l hl c hc
    obtain ⟨f, -, rfl⟩ := List.mem_map.1 hc
    exact hl
  have hfew : ∀ g : Gateway, (d.outgoing g.id).length < 4294967296 :=
    fun g => lt_of_le_of_lt (List.length_filter_le _ _) hsmall
  cases hv with
  | @complete c rest run issued states e now he hkind =>
    rw [Run.current_completed]
    exact h.goOn (hleave c.elementId h.first) rfl h.joins
  | userTask he => exact h.park rfl rfl h.joins
  | subProcess he => exact h.park rfl rfl h.joins
  | @goOn c rest run issued issued' states states' g decision now he heff hgo =>
    obtain ⟨hjoins, hnext⟩ := heff.clean (hk.states.mono (Nat.le_succ issued))
      (fun f hf => (hk.pending c List.mem_cons_self f hf).toSound) h.first h.joins (hfew g)
    exact h.goOn hnext rfl hjoins
  | @absorbed c rest run issued issued' states states' g decision now he heff hwait hjoin =>
    obtain ⟨hjoins, -⟩ := heff.clean (hk.states.mono (Nat.le_succ issued))
      (fun f hf => (hk.pending c List.mem_cons_self f hf).toSound) h.first h.joins (hfew g)
    have hnext : ∀ x ∈ ([] : List Cursor), Frame.Clean x.frames := nofun
    exact h.goOn hnext rfl hjoins
  | @offered c rest run issued issued' states states' g decision now he heff hwait hjoin =>
    obtain ⟨hjoins, -⟩ := heff.clean (hk.states.mono (Nat.le_succ issued))
      (fun f hf => (hk.pending c List.mem_cons_self f hf).toSound) h.first h.joins (hfew g)
    exact h.park rfl rfl hjoins

theorem lasting_cleanStacks (hsmall : d.flows.length < 4294967296) : Lasting d CleanStacks where
  start _ ht _ := by
    refine ⟨fun c hc => ?_, by simp [ht], nofun⟩
    rw [List.mem_singleton.1 hc]
    exact .nil
  visited hk h hv := hv.cleanStacks hsmall hk h
  taken {run _ task token element} now _ h hfind _ := by
    have htoken := h.tokens token (List.mem_of_find?_eq_some hfind)
    refine ⟨fun c hc => ?_, fun t ht => h.tokens t ?_, h.joins⟩
    · obtain ⟨f, -, rfl⟩ := List.mem_map.1 hc
      exact htoken
    · rw [Engine.taken, Run.current_completed] at ht
      exact List.mem_of_mem_eraseP ht
  unmoved hunmoved h := by
    refine ⟨h.pending, fun t ht => ?_, h.joins⟩
    obtain ⟨o, ho, hcore⟩ := hunmoved.exists_token ht
    have hframes : o.core.frames = t.core.frames := by rw [hcore]
    exact (show o.frames = t.frames from hframes) ▸ h.tokens o ho

/-! ## Books -/

/-- A stack of frames that agrees with the stored fork states of an instance. -/
structure Store.Records (s : Store) (p : String) (l : List Frame) : Prop where
  distinct : (l.map Frame.forkId).Nodup
  nonempty : ∀ f ∈ l, f.branches ≠ []
  ascending : ∀ f ∈ l, f.branches.Pairwise (· < ·)
  below : ∀ f ∈ l, ∀ n ∈ f.branches, n < f.branchCount
  fork : ∀ f ∈ l, ∃ state, s.get? f.forkId = some state ∧ state.kind = .fork ∧
    state.id = f.forkId ∧ state.instanceId = p ∧ state.gatewayId = f.gatewayId ∧
    state.generation = f.generation ∧ state.activeBranches = f.branchCount

/-- The books of an instance: the stacks of its tokens agree with its fork states, and so do those
that its active joins have collected. -/
structure Store.Books (s : Store) (p : String) (carried : List (List Frame)) : Prop where
  tokens : ∀ l ∈ carried, s.Records p l
  joins : ∀ j ∈ s.states p, j.kind = .join → j.isActive = true →
    ∃ l, j.arrivedFrames = some l ∧ s.Records p l

/-- A clean stack of sound frames agrees with the stored states. -/
lemma Workspace.Sound.records {w : Workspace} (hw : w.Sound) {p : String} {l : List Frame}
    (hclean : Frame.Clean l) (hl : ∀ f ∈ l, f.Sound (w.store.states p)) :
    w.store.Records p l where
  distinct := hclean.distinct
  nonempty f hf := (hl f hf).tidy.nonempty
  ascending f hf := (hl f hf).tidy.ascending
  below := hclean.below
  fork f hf := by
    obtain ⟨state, hs, hk, hframe⟩ := (hl f hf).fork
    obtain ⟨hmem, hp⟩ := Store.mem_states.1 hs
    have hid : state.id = f.forkId := congrArg Frame.forkId hframe
    refine ⟨state, hid ▸ hw.keyed.get?_of_mem hmem, hk, hid, hp, ?_, ?_, ?_⟩
    · exact congrArg Frame.gatewayId hframe
    · exact congrArg Frame.generation hframe
    · exact congrArg Frame.branchCount hframe

/-- At every stage the books are in order. -/
lemma Reaches.books {pending : List Cursor} {run : Run} {w : Workspace}
    (h : Reaches d pending run w) (hsmall : d.flows.length < 4294967296) :
    w.store.Books run.current.id
      (run.current.tokens.map Token.frames ++ pending.map Cursor.frames) := by
  obtain ⟨hsound, hkept⟩ := h.kept
  have hclean := (lasting_cleanStacks hsmall).reaches h
  constructor
  · intro l hl
    rcases List.mem_append.1 hl with hl | hl
    · obtain ⟨t, ht, rfl⟩ := List.mem_map.1 hl
      exact hsound.records (hclean.tokens t ht) fun f hf => (hkept.kept.frames t ht f hf).toSound
    · obtain ⟨c, hc, rfl⟩ := List.mem_map.1 hl
      exact hsound.records (hclean.pending c hc) fun f hf => (hkept.pending c hc f hf).toSound
  · intro j hj hk _
    obtain ⟨l, hl, hframes⟩ := (hsound.joins _ j hj hk).frames
    have hshared : j.shared = l := by rw [GatewayState.shared, hl]; rfl
    exact ⟨l, hl, hsound.records (hshared ▸ hclean.joins j hj hk) hframes⟩

/-- An ended instance has no tokens and no states left. -/
lemma Engine.Sound.books_ended {e : Engine} (h : e.Sound) {id : String} {r : Registered}
    (hr : e.registered? id = some r) (hended : r.current.isEnded = true) :
    e.workspace.store.Books id (r.current.tokens.map Token.frames) := by
  have hnone : e.workspace.store.states id = [] := by
    by_contra hne
    obtain ⟨r', hr', hlive⟩ := h.stored id hne
    rw [hr] at hr'
    cases hr'
    rw [hended] at hlive
    cases hlive
  constructor
  · rw [h.ended id r hr hended]
    nofun
  · rw [hnone]
    nofun

/-! ## Failures -/

/-- Errors that tell of books that are not in order, and errors of expressions. -/
def EngineError.isInternal : EngineError → Bool
  | .stateNotFound _ | .joinResolved _ | .branchCountExceeded .. | .missingInstanceId _
  | .expression _ => true
  | _ => false

lemma Refused.not_internal {run : Run} {c : Cursor} {err : EngineError} (h : Refused d run c err) :
    err.isInternal = false := by
  cases h with
  | unknown => rfl
  | gateway _ hcourse => cases Request.course_refuse hcourse <;> rfl

lemma Halts.not_internal {limit : Nat} {err : EngineError} (h : Halts d limit err) :
    err.isInternal = false := by
  cases h with
  | limit => rfl
  | refused _ hrefused => exact hrefused.not_internal

namespace Engine

/-- The books of every instance are in order between calls and at every stage of a walk, states are
stored for live instances only, and no start or continuation fails with an error that tells of the
contrary. -/
theorem bookkeeping {e : Engine} (h : e.Reachable) :
    (∀ id r, e.registered? id = some r → r.definition.flows.length < 4294967296 →
      e.workspace.store.Books id (r.current.tokens.map Token.frames)) ∧
    (∀ id, e.workspace.store.states id ≠ [] →
      ∃ r, e.registered? id = some r ∧ r.current.isEnded = false) ∧
    (∀ d pending run w, Reaches d pending run w → d.flows.length < 4294967296 →
      w.store.Books run.current.id
        (run.current.tokens.map Token.frames ++ pending.map Cursor.frames)) ∧
    (∀ d businessKey vars err, (e.start d businessKey vars).1 = .error err →
      err.isInternal = false) ∧
    ∀ id task updates err, (e.continueInstance id task updates).1 = .error err →
      err.isInternal = false := by
  refine ⟨?_, h.sound.stored, ?_, ?_, ?_⟩
  · intro id r hr hsmall
    cases hended : r.current.isEnded with
    | true => exact h.sound.books_ended hr hended
    | false =>
      have hbooks := (Reaches.idle h hr hended).books hsmall
      rw [List.map_nil, List.append_nil] at hbooks
      rw [← (h.sound.known id r hr).1]
      exact hbooks
  · intro d pending run w hreaches
    exact hreaches.books
  · intro d businessKey vars err hfail
    cases start_error h hfail with
    | noStart => rfl
    | halts hhalts => exact hhalts.not_internal
  · intro id task updates err hfail
    cases continueInstance_error h hfail with
    | halts _ hhalts => exact hhalts.not_internal
    | _ => rfl

/-! ## A fork that is half joined -/

/-- A fork of which one branch waits at the join and the other one for a task. -/
def pairing : Definition :=
  { Definition.empty "pairing" with
    startEvents := [.unnamed "start"]
    endEvents := [.unnamed "end"]
    userTasks := [.unnamed "t"]
    serviceTasks := [.unnamed "a"]
    gateways := [.unnamed "p" .parallel none, .unnamed "j" .parallel none]
    flows := [⟨"f1", "start", "p", none⟩, ⟨"f2", "p", "a", none⟩, ⟨"f3", "p", "t", none⟩,
      ⟨"f4", "a", "j", none⟩, ⟨"f5", "t", "j", none⟩, ⟨"f6", "j", "end", none⟩] }

/-- One of two tokens has come to the join. -/
def halfPaired : Engine := (small.call (.start pairing "key" none)).2

lemma reachable_halfPaired : halfPaired.Reachable := reachable_small.call _

lemma halfPaired_registered : (halfPaired.registered? firstId).any (fun r =>
    decide (r.definition.flows.length < 4294967296) && !r.current.isEnded &&
      r.current.tokens.any (fun t => !t.frames.isEmpty) &&
      (halfPaired.workspace.store.states firstId).any (fun j =>
        j.kind == .join && j.isActive && !j.shared.isEmpty)) = true := by
  decide +kernel

/-- The books of a half joined fork, and two calls that fail. -/
theorem bookkeeping_pairing :
    ∃ r, halfPaired.registered? firstId = some r ∧ (∃ t ∈ r.current.tokens, t.frames ≠ []) ∧
      (∃ j ∈ halfPaired.workspace.store.states firstId,
        j.kind = .join ∧ j.isActive = true ∧ j.shared ≠ []) ∧
      halfPaired.workspace.store.Books firstId (r.current.tokens.map Token.frames) ∧
      (∃ r, halfPaired.registered? firstId = some r ∧ r.current.isEnded = false) ∧
      halfPaired.workspace.store.Books r.current.id
        (r.current.tokens.map Token.frames ++ ([] : List Cursor).map Cursor.frames) ∧
      (∃ err, (halfPaired.start (.empty "none") "key" none).1 = .error err ∧
        err.isInternal = false) ∧
      ∃ err, (halfPaired.continueInstance firstId (some "a") none).1 = .error err ∧
        err.isInternal = false := by
  obtain ⟨hbetween, hstored, hstages, hstart, hproceed⟩ := bookkeeping reachable_halfPaired
  obtain ⟨r, hr, hbody⟩ := (Option.any_eq_true _ _).1 halfPaired_registered
  simp only [Bool.and_eq_true, decide_eq_true_eq, Bool.not_eq_true', List.any_eq_true,
    beq_iff_eq] at hbody
  obtain ⟨⟨⟨hsmall, hlive⟩, t, ht, hframes⟩, j, hj, ⟨hjoin, hactive⟩, hshared⟩ := hbody
  have hstarted : (halfPaired.start (.empty "none") "key" none).1 =
      .error (.noStartEvent "none") := rfl
  have hproceeded : (halfPaired.continueInstance firstId (some "a") none).1 =
      .error (.taskNotActive firstId "a") := error_of_failure? (by decide +kernel)
  exact ⟨r, hr, ⟨t, ht, by simpa using hframes⟩, ⟨j, hj, hjoin, hactive, by simpa using hshared⟩,
    hbetween firstId r hr hsmall, hstored firstId (List.ne_nil_of_mem hj),
    hstages r.definition [] (.on r.current) _ (.idle reachable_halfPaired hr hlive) hsmall,
    ⟨_, hstarted, hstart _ _ _ _ hstarted⟩, _, hproceeded, hproceed _ _ _ _ hproceeded⟩

end Engine

end ProcessEngine

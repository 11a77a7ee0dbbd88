import ProcessEngine.Proofs.Engine.Ending
import ProcessEngine.Proofs.Engine.Stages

/-!
# The forks around a token

Every frame of a token names a fork of its instance, and says of the fork what its state says.  The
fork is active as long as no released join closes it (`carried_fork`).  A join closes a fork when
every branch index of the fork is among the frames merged there, and it does so although a branch
may have been forked again and only a part of that has come in: then the fork is closed, and its
frame dropped, while a token of it is still parked elsewhere (`closed_around_token`).
-/

namespace ProcessEngine

/-- At every stage a frame of a parked token or of one in flight names a fork state of the instance.
The fork is inactive if and only if a released join closes it. -/
theorem carried_fork {d : Definition} {pending : List Cursor} {run : Run} {w : Workspace}
    {f : Frame} (h : Reaches d pending run w)
    (hf : (∃ t ∈ run.current.tokens, f ∈ t.frames) ∨ ∃ c ∈ pending, f ∈ c.frames) :
    ∃ s ∈ w.store.states run.current.id, s.kind = .fork ∧ s.frame = f.bare ∧
      (s.isActive = false ↔ ∃ j ∈ w.store.states run.current.id, d.Closes j f.forkId) := by
  obtain ⟨-, hkept⟩ := h.kept
  have hcarried : f.Carried (w.store.states run.current.id) := by
    rcases hf with ⟨t, ht, hft⟩ | ⟨c, hc, hfc⟩
    · exact hkept.kept.frames t ht f hft
    · exact hkept.pending c hc f hfc
  obtain ⟨s, hs, hsk, hsf⟩ := hcarried.fork
  have hid : s.id = f.forkId := congrArg Frame.forkId hsf
  refine ⟨s, hs, hsk, hsf, ?_⟩
  rw [← hid]
  exact hkept.kept.forks s hs hsk

namespace Engine

/-! ## A fork that is closed too early -/

/-- A fork inside a fork, of which a join takes one branch each. -/
def nestedForks : Definition :=
  { Definition.empty "nested" with
    startEvents := [.unnamed "start"]
    endEvents := [.unnamed "end"]
    userTasks := [.unnamed "y", .unnamed "z"]
    serviceTasks := [.unnamed "u", .unnamed "x"]
    gateways := [.unnamed "p1" .parallel none, .unnamed "p2" .parallel none,
      .unnamed "j" .parallel none]
    flows := [⟨"s0", "start", "p1", none⟩, ⟨"s1", "p1", "u", none⟩, ⟨"s2", "p1", "p2", none⟩,
      ⟨"s3", "p2", "x", none⟩, ⟨"s4", "p2", "y", none⟩, ⟨"uj", "u", "j", none⟩,
      ⟨"xj", "x", "j", none⟩, ⟨"jz", "j", "z", none⟩, ⟨"ze", "z", "end", none⟩,
      ⟨"ye", "y", "end", none⟩] }

/-- The first instance of an engine whose clock stands still. -/
def firstId : String := Supply.instanceIdText (.ofSeconds 0) 1

/-- The inner fork has one branch left when the join is released. -/
def halfJoined : Engine := (small.call (.start nestedForks "key" none)).2

lemma reachable_halfJoined : halfJoined.Reachable := reachable_small.call _

/-- Whether some parked token of a live instance carries the frame of an inactive fork. -/
def carriesClosed (e : Engine) (id : String) : Bool :=
  (e.registered? id).any fun r => !r.current.isEnded && r.current.tokens.any fun t =>
    t.frames.any fun f => (e.workspace.store.states id).any fun s =>
      s.kind == .fork && s.id == f.forkId && !s.isActive

lemma exists_of_carriesClosed {e : Engine} {id : String} (h : e.carriesClosed id = true) :
    ∃ r, e.registered? id = some r ∧ r.current.isEnded = false ∧ ∃ t ∈ r.current.tokens,
      ∃ f ∈ t.frames, ∃ s ∈ e.workspace.store.states id, s.kind = .fork ∧ s.id = f.forkId ∧
        s.isActive = false := by
  obtain ⟨r, hr, hbody⟩ := (Option.any_eq_true _ _).1 h
  obtain ⟨hlive, hany⟩ := (Bool.and_eq_true _ _).mp hbody
  obtain ⟨t, ht, hframes⟩ := List.any_eq_true.1 hany
  obtain ⟨f, hf, hstates⟩ := List.any_eq_true.1 hframes
  obtain ⟨s, hs, hand⟩ := List.any_eq_true.1 hstates
  simp only [Bool.and_eq_true, beq_iff_eq, Bool.not_eq_true'] at hand hlive
  exact ⟨r, hr, hlive, t, ht, f, hf, s, hs, hand.1.1, hand.1.2, hand.2⟩

lemma carriesClosed_halfJoined : halfJoined.carriesClosed firstId = true := by decide +kernel

lemma exists_carriesClosed : ∃ e : Engine, e.Reachable ∧ e.carriesClosed firstId = true :=
  ⟨halfJoined, reachable_halfJoined, carriesClosed_halfJoined⟩

/-- A frame that a token carries although its fork is closed. -/
theorem carried_fork_nested :
    ∃ (w : Workspace) (run : Run) (f : Frame), (∃ t ∈ run.current.tokens, f ∈ t.frames) ∧
      ∃ d : Definition, ∃ s ∈ w.store.states run.current.id, s.kind = .fork ∧ s.frame = f.bare ∧
        (s.isActive = false ↔ ∃ j ∈ w.store.states run.current.id, d.Closes j f.forkId) := by
  obtain ⟨e, he, hcloses⟩ := exists_carriesClosed
  obtain ⟨r, hr, hlive, t, ht, f, hf, -⟩ := exists_of_carriesClosed hcloses
  exact ⟨e.workspace, .on r.current, f, ⟨t, ht, hf⟩, r.definition,
    carried_fork (.idle he hr hlive) (.inl ⟨t, ht, hf⟩)⟩

/-- It is not so that the forks around the parked tokens of a live instance are all active. -/
theorem closed_around_token :
    ¬∀ (e : Engine) (id : String) (r : Registered) (t : Token) (f : Frame) (s : GatewayState),
      e.Reachable → e.registered? id = some r → r.current.isEnded = false → t ∈ r.current.tokens →
      f ∈ t.frames → s ∈ e.workspace.store.states id → s.kind = .fork → s.id = f.forkId →
      s.isActive = true := by
  intro hclaim
  obtain ⟨e, he, hcloses⟩ := exists_carriesClosed
  obtain ⟨r, hr, hlive, t, ht, f, hf, s, hs, hsk, hid, hclosed⟩ := exists_of_carriesClosed hcloses
  have hactive := hclaim e firstId r t f s he hr hlive ht hf hs hsk hid
  rw [hclosed] at hactive
  cases hactive

end Engine

end ProcessEngine

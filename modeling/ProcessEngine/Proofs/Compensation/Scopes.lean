import ProcessEngine.Proofs.Isolation.Desks

/-!
# Nested scopes

Which scope is inside which is told three times: by the id of the parent that a scope keeps, by the
ids of the children that its parent keeps, and by its depth.  What they have in common is `Nested`:
the children of a scope are exactly the scopes that name it as their parent, in the order of
creation, and the parent of a scope is there and is one step less deep.  The scopes that operations
lead to are nested, so they make up a forest (`scopes_forest`): the way up from a scope is as long
as the scope is deep, and never comes by a scope again since each step leads to a smaller depth.
-/

namespace ProcessEngine.Compensation

/-! ## Forests -/

/-- The children of each scope are those that name it as their parent, and a parent is there and is
one step less deep. -/
structure Nested (ss : List Scope) : Prop where
  distinct : (ss.map Scope.id).Nodup
  children : ∀ q ∈ ss, q.children = (ss.filter (·.parentId == some q.id)).map Scope.id
  roots : ∀ s ∈ ss, s.parentId = none → s.depth = 0
  parents : ∀ s ∈ ss, ∀ x, s.parentId = some x → ∃ q ∈ ss, q.id = x ∧ s.depth = q.depth + 1

namespace Nested

variable {ss : List Scope} {s : Scope}

/-- Scopes are known by their ids. -/
lemma eq_of_id (h : Nested ss) {a b : Scope} (ha : a ∈ ss) (hb : b ∈ ss) (heq : a.id = b.id) :
    a = b :=
  List.inj_on_of_nodup_map h.distinct ha hb heq

lemma mem_children (h : Nested ss) {q : Scope} (hq : q ∈ ss) {x : String} :
    x ∈ q.children ↔ ∃ s ∈ ss, s.id = x ∧ s.parentId = some q.id := by
  rw [h.children q hq]
  simp only [List.mem_map, List.mem_filter, beq_iff_eq]
  exact exists_congr fun s => by tauto

end Nested

/-! ## Creating a scope -/

/-- The scope has one more child if its id is the given one. -/
def Scope.adopt (parent child : String) (s : Scope) : Scope :=
  if s.id == parent then { s with children := s.children ++ [child] } else s

namespace Scope

variable (parent child : String) (s : Scope)

@[simp] lemma adopt_id : (s.adopt parent child).id = s.id := by
  rw [adopt]
  split_ifs <;> rfl

@[simp] lemma adopt_parentId : (s.adopt parent child).parentId = s.parentId := by
  rw [adopt]
  split_ifs <;> rfl

@[simp] lemma adopt_depth : (s.adopt parent child).depth = s.depth := by
  rw [adopt]
  split_ifs <;> rfl

end Scope

/-- What becomes of the scopes of an instance when another one is created: it has no children, and
it is a root or has a parent that is there. -/
inductive Created (ss : List Scope) (s : Scope) : List Scope → Prop
  | root (hnew : ∀ o ∈ ss, o.id ≠ s.id) (hnone : s.children = []) (hroot : s.parentId = none)
      (hdepth : s.depth = 0) : Created ss s (ss ++ [s])
  | inner {q : Scope} (hnew : ∀ o ∈ ss, o.id ≠ s.id) (hnone : s.children = []) (hq : q ∈ ss)
      (hparent : s.parentId = some q.id) (hdepth : s.depth = q.depth + 1) :
      Created ss s (ss.map (Scope.adopt q.id s.id) ++ [s])

namespace Nested

variable {ss ss' : List Scope} {s : Scope}

/-- No scope names the parent that a new scope may become. -/
lemma filter_new (h : Nested ss) (hnew : ∀ o ∈ ss, o.id ≠ s.id) :
    ss.filter (·.parentId == some s.id) = [] := by
  refine List.filter_eq_nil_iff.2 fun o ho hparent => ?_
  obtain ⟨q, hq, hid, -⟩ := h.parents o ho s.id (beq_iff_eq.1 hparent)
  exact hnew q hq hid

lemma nodup_concat (h : Nested ss) (hnew : ∀ o ∈ ss, o.id ≠ s.id) :
    ((ss ++ [s]).map Scope.id).Nodup := by
  rw [List.map_append, List.map_singleton, List.nodup_append]
  refine ⟨h.distinct, List.nodup_singleton _, fun x hx y hy => ?_⟩
  obtain ⟨o, ho, rfl⟩ := List.mem_map.1 hx
  rw [List.mem_singleton.1 hy]
  exact hnew o ho

/-- A root is created. -/
lemma concat (h : Nested ss) (hnew : ∀ o ∈ ss, o.id ≠ s.id) (hnone : s.children = [])
    (hroot : s.parentId = none) (hdepth : s.depth = 0) : Nested (ss ++ [s]) where
  distinct := h.nodup_concat hnew
  children := by
    refine List.forall_mem_append.2 ⟨fun q hq => ?_, List.forall_mem_singleton.2 ?_⟩
    · rw [List.filter_append, List.filter_cons_of_neg (by simp [hroot]), List.filter_nil,
        List.append_nil]
      exact h.children q hq
    · rw [List.filter_append, h.filter_new hnew, List.filter_cons_of_neg (by simp [hroot]), hnone]
      rfl
  roots := List.forall_mem_append.2 ⟨h.roots, List.forall_mem_singleton.2 fun _ => hdepth⟩
  parents := by
    refine List.forall_mem_append.2 ⟨fun o ho x hx => ?_, List.forall_mem_singleton.2 ?_⟩
    · obtain ⟨q, hq, hfacts⟩ := h.parents o ho x hx
      exact ⟨q, List.mem_append_left _ hq, hfacts⟩
    · rw [hroot]
      nofun

/-- A scope gets one more child, which names it as its parent. -/
lemma adopt (h : Nested ss) {q : Scope} (hnew : ∀ o ∈ ss, o.id ≠ s.id) (hnone : s.children = [])
    (hq : q ∈ ss) (hparent : s.parentId = some q.id) (hdepth : s.depth = q.depth + 1) :
    Nested (ss.map (Scope.adopt q.id s.id) ++ [s]) where
  distinct := by
    have hids : (ss.map (Scope.adopt q.id s.id) ++ [s]).map Scope.id =
        (ss ++ [s]).map Scope.id := by simp
    rw [hids]
    exact h.nodup_concat hnew
  children := by
    have hfilter : ∀ x, ((ss.map (Scope.adopt q.id s.id)).filter (·.parentId == some x)).map
        Scope.id = (ss.filter (·.parentId == some x)).map Scope.id := by
      intro x
      rw [List.filter_map, List.map_map]
      simp [Function.comp_def]
    have hself : s.id ≠ q.id := fun heq => hnew q hq heq.symm
    simp only [List.filter_append, List.map_append, hfilter]
    refine List.forall_mem_append.2 ⟨List.forall_mem_map.2 fun o ho => ?_,
      List.forall_mem_singleton.2 ?_⟩
    · rw [Scope.adopt_id, ← h.children o ho, Scope.adopt]
      split_ifs with hid
      · rw [List.filter_cons_of_pos (by simpa [hparent] using (beq_iff_eq.1 hid).symm)]
        rfl
      · rw [List.filter_cons_of_neg (by simpa [hparent] using Ne.symm (by simpa using hid))]
        simp
    · rw [h.filter_new hnew, List.filter_cons_of_neg (by simpa [hparent] using hself.symm), hnone]
      rfl
  roots := by
    refine List.forall_mem_append.2 ⟨List.forall_mem_map.2 fun o ho => ?_,
      List.forall_mem_singleton.2 ?_⟩
    · rw [Scope.adopt_parentId, Scope.adopt_depth]
      exact h.roots o ho
    · rw [hparent]
      nofun
  parents := by
    have hkept : ∀ o ∈ ss, ∃ o' ∈ ss.map (Scope.adopt q.id s.id) ++ [s],
        o'.id = o.id ∧ o'.depth = o.depth := fun o ho =>
      ⟨o.adopt q.id s.id, List.mem_append_left _ (List.mem_map_of_mem ho), by simp, by simp⟩
    refine List.forall_mem_append.2 ⟨List.forall_mem_map.2 fun o ho x hx => ?_,
      List.forall_mem_singleton.2 fun x hx => ?_⟩
    · rw [Scope.adopt_parentId] at hx
      obtain ⟨p, hp, rfl, hbelow⟩ := h.parents o ho x hx
      obtain ⟨p', hp', hid, hdepth'⟩ := hkept p hp
      exact ⟨p', hp', hid, by rw [Scope.adopt_depth, hdepth', hbelow]⟩
    · obtain ⟨q', hq', hid, hdepth'⟩ := hkept q hq
      have hx' : q.id = x := Option.some.inj (hparent.symm.trans hx)
      exact ⟨q', hq', hid.trans hx', by rw [hdepth', hdepth]⟩

/-- Scopes stay nested when another one is created. -/
theorem created (h : Nested ss) (hs : Created ss s ss') : Nested ss' := by
  cases hs with
  | root hnew hnone hroot hdepth => exact h.concat hnew hnone hroot hdepth
  | inner hnew hnone hq hparent hdepth => exact h.adopt hnew hnone hq hparent hdepth

end Nested

/-! ## Operations -/

namespace Coordinator

variable {c c' : Coordinator} {p x : String} {activity parent : Option String} {s : Scope}

/-- Creating a scope adds it to those of its instance. -/
lemma createScope_created (h : c.createScope p x activity parent = .ok (s, c')) :
    Created (c.scopesOf p) s (c'.scopesOf p) := by
  have hplace : ∀ (t : Coordinator) (depth : Nat),
      scopesOf { t with scopes := t.scopes ++ [⟨x, p, activity, parent, depth, []⟩] } p =
        t.scopesOf p ++ [⟨x, p, activity, parent, depth, []⟩] := by
    intro t depth
    rw [scopesOf, List.filter_append, List.filter_cons_of_pos (by simp), List.filter_nil, scopesOf]
  rw [createScope] at h
  split_ifs at h with hknown
  have hnew : ∀ o ∈ c.scopesOf p, o.id ≠ x := by
    rw [scope?_eq] at hknown
    simpa using hknown
  cases parent with
  | none =>
    cases h
    rw [hplace]
    exact .root hnew rfl rfl rfl
  | some y =>
    cases hfound : c.scope? p y with
    | none =>
      simp only [hfound] at h
      cases h
    | some q =>
      simp only [hfound] at h
      cases h
      rw [scope?_eq] at hfound
      obtain rfl : q.id = y := by simpa using List.find?_some hfound
      have hadopt : (c.addChild p q.id x).scopesOf p =
          (c.scopesOf p).map (Scope.adopt q.id x) := by
        rw [scopesOf_addChild]
        refine List.map_congr_left fun o ho => ?_
        have hp : o.instanceId = p := by simpa using (List.mem_filter.1 ho).2
        simp [hp, Scope.adopt]
      rw [hplace, hadopt]
      exact .inner hnew rfl (List.mem_of_find?_eq_some hfound) rfl rfl

/-- The execution of a plan leaves all scopes alone. -/
lemma scopes_executeStep {id : String} {step : PlanStep} {outcome : Outcome}
    (h : c.executeStep id step = some (outcome, c')) : c'.scopes = c.scopes := by
  rw [executeStep] at h
  split at h
  · cases h
    rfl
  · split_ifs at h
    · cases h
      rfl
    · split at h
      · cases h
        rfl
      · obtain ⟨trial, -, htrial⟩ := Option.map_eq_some_iff.1 h
        cases htrial
        rfl

lemma scopes_executeSteps {id : String} {steps : List PlanStep} {outcome : Outcome}
    (h : c.executeSteps id steps = some (outcome, c')) : c'.scopes = c.scopes := by
  induction steps generalizing c outcome with
  | nil =>
    cases h
    rfl
  | cons step rest ih =>
    rw [executeSteps] at h
    split at h
    · cases h
    · next hstep =>
      split at h
      · cases h
      · next hrest =>
        cases h
        rw [ih hrest, scopes_executeStep hstep]

/-- The scopes of every instance are nested. -/
def Nests (c : Coordinator) : Prop := ∀ p, Nested (c.scopesOf p)

lemma Nests.of_scopes (h : c.Nests) (hscopes : c'.scopes = c.scopes) : c'.Nests := by
  intro p
  rw [scopesOf, hscopes]
  exact h p

lemma Nests.new (policy : RetryPolicy) : (Coordinator.new policy).Nests :=
  fun _ => ⟨List.nodup_nil, nofun, nofun, nofun⟩

/-- A scope is created for one instance. -/
lemma Nests.createScope (h : c.Nests) (hok : c.createScope p x activity parent = .ok (s, c')) :
    c'.Nests := by
  intro q
  by_cases hq : p = q
  · subst hq
    exact (h p).created (createScope_created hok)
  · rw [(Untouched.createScope hq hok).scopes]
    exact h q

/-- The scopes of one instance are forgotten. -/
lemma Nests.cleanup (h : c.Nests) (p : String) : (c.cleanup p).Nests := by
  intro q
  by_cases hq : p = q
  · subst hq
    have hnone : (c.cleanup p).scopesOf p = [] := by
      simp only [scopesOf, Coordinator.cleanup, filter_cleanup, if_pos]
    rw [hnone]
    exact Nests.new c.defaultPolicy p
  · rw [(Untouched.cleanup c hq).scopes]
    exact h q

end Coordinator

namespace Desk

/-- The desks that operations lead to, whether they succeed or fail. -/
inductive Operated : Desk → Prop
  | new (policy : RetryPolicy) : Operated ⟨.new policy, []⟩
  | perform {d t : Desk} {o : Operation} {a : Answer} (h : Operated d)
      (ho : d.perform o = some (a, t)) : Operated t

variable {d t : Desk}

/-- Every operation keeps the scopes nested. -/
theorem nests_perform {o : Operation} {a : Answer} (h : d.coordinator.Nests)
    (ho : d.perform o = some (a, t)) : t.coordinator.Nests := by
  cases o with
  | record | register | unregister | subscribe =>
    cases ho
    exact h.of_scopes rfl
  | createPlan =>
    cases ho
    exact h
  | createScope id scope activity parent =>
    simp only [Desk.perform] at ho
    split at ho
    · cases ho
      exact h
    · next hok =>
      cases ho
      exact h.createScope hok
  | executePlan id place =>
    obtain ⟨plan, -, hexecuted⟩ := Option.bind_eq_some_iff.1 ho
    obtain ⟨⟨o, c⟩, hsteps, hdone⟩ := Option.map_eq_some_iff.1 hexecuted
    cases hdone
    exact h.of_scopes (Coordinator.scopes_executeSteps hsteps)
  | compensate id activity scope =>
    obtain ⟨⟨o, c⟩, hsteps, hdone⟩ := Option.map_eq_some_iff.1 ho
    cases hdone
    exact h.of_scopes (Coordinator.scopes_executeSteps hsteps)
  | cleanup id =>
    cases ho
    exact h.cleanup id

lemma Operated.nests (h : d.Operated) : d.coordinator.Nests := by
  induction h with
  | new policy => exact .new policy
  | perform _ ho ih => exact nests_perform ih ho

/-- The desk after some operations. -/
def after (d : Desk) (os : List Operation) : Desk :=
  os.foldl (fun d o => ((d.perform o).map Prod.snd).getD d) d

lemma Operated.after (h : d.Operated) (os : List Operation) : (d.after os).Operated := by
  induction os generalizing d with
  | nil => exact h
  | cons o rest ih =>
    rw [Desk.after, List.foldl_cons]
    refine ih ?_
    cases ho : d.perform o with
    | none => exact h
    | some result => exact h.perform ho

/-- Scopes are created, two of them in vain; then they are forgotten and created again the other way
round. -/
def reversed : Desk :=
  Desk.after ⟨.new .standard, []⟩
    [.createScope "order" "a" none none, .createScope "order" "b" none (some "a"),
      .createScope "order" "b" none none, .createScope "order" "c" none (some "c"),
      .cleanup "order", .createScope "order" "b" none none,
      .createScope "order" "a" (some "pay") (some "b")]

end Desk

end ProcessEngine.Compensation

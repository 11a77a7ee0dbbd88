import ProcessEngine.Error
import ProcessEngine.Gateway.Activation
import ProcessEngine.Proofs.Action
import ProcessEngine.Proofs.Gateway.Places

/-!
# Routing by the list of flows

Which flows a gateway with guards is to take is said for the places of its list of flows
(`Request.Prescribes`): the flow that it falls back to is the declared default or else the first one
without a condition, and the other flows are tried in order.  What the gateway does take is seen by
letting the flows lead elsewhere, each place to an element of its own (`Request.Takes`).

The gateway tells flows apart by their ids, though, and ids of flows may be given twice.  A flow
that has the id of the default in another place is taken for the default, and is not tried
(`Request.Mistaken`).  So the prescribed flows are taken if and only if none of them is mistaken
(`prescribed_taken_iff`).  Where the ids are distinct, this is always so (`takes_iff_prescribes`),
but a definition that is accepted need not have distinct ids (`guard_passed_over`).
-/

namespace ProcessEngine

variable {f : Flow} {i k : Nat} {places : List Nat}

/-! ## What is prescribed -/

/-- The flow is a default: the declared one, or one without a condition if none is declared. -/
def Gateway.Defaults (g : Gateway) (f : Flow) : Prop :=
  g.defaultFlow = some f.id ∨ g.defaultFlow = none ∧ f.isConditional = false

instance (g : Gateway) : DecidablePred g.Defaults := fun _ => inferInstanceAs (Decidable (_ ∨ _))

namespace Request

variable {r : Request} {w : Workspace} {eligible : Nat → Prop}

/-- The gateway goes by the guards of its flows: it is exclusive, or inclusive and forks. -/
def IsGuarded (r : Request) : Prop :=
  r.gateway.kind = .exclusive ∨ r.gateway.kind = .inclusive ∧ r.forksInclusively = true

/-- An inclusive gateway has a default only if it is declared or some flow has a condition. -/
def HasDefault (r : Request) : Prop :=
  r.gateway.kind = .inclusive →
    r.gateway.defaultFlow ≠ none ∨ ∃ f ∈ r.outgoing, f.isConditional = true

instance (r : Request) : Decidable r.HasDefault := inferInstanceAs (Decidable (_ → _))

/-- The flow in a place is the one to fall back to: the first default. -/
def FallsBackTo (r : Request) (k : Nat) : Prop :=
  r.HasDefault ∧ IsLeast {i | ∃ f, r.outgoing[i]? = some f ∧ r.gateway.Defaults f} k

/-- The gateway lets a token pass along the flow: its condition holds, or it has none and the
gateway is inclusive. -/
def Admits (r : Request) (f : Flow) : Prop :=
  f.isConditional = true ∧ f.Holds r.vars ∨
    r.gateway.kind = .inclusive ∧ f.isConditional = false

/-- In the place stands a flow that the gateway admits, and not the one that it falls back to. -/
def Eligible (r : Request) (i : Nat) : Prop :=
  (∃ f, r.outgoing[i]? = some f ∧ r.Admits f) ∧ ¬r.FallsBackTo i

/-- The places of the flows to take, for the places that are eligible: the first of them if the
gateway is exclusive, all of them in order if it is inclusive, and the place of the default if there
is none. -/
inductive Routes (r : Request) (eligible : Nat → Prop) : List Nat → Prop
  | first {i : Nat} (hkind : r.gateway.kind = .exclusive) (hi : IsLeast {i | eligible i} i) :
      Routes r eligible [i]
  | every {places : List Nat} (hkind : r.gateway.kind = .inclusive) (hne : places ≠ [])
      (hsorted : places.SortedLT) (hplaces : ∀ i, i ∈ places ↔ eligible i) :
      Routes r eligible places
  | fallback {k : Nat} (hnone : ∀ i, ¬eligible i) (hk : r.FallsBackTo k) : Routes r eligible [k]

/-- The places of the flows that the gateway is to take. -/
abbrev Prescribes (r : Request) : List Nat → Prop := r.Routes r.Eligible

/-- The flow in a place has the id of the default, which stands in another place. -/
def Mistaken (r : Request) (i : Nat) : Prop :=
  ∃ k, r.FallsBackTo k ∧ i ≠ k ∧ r.outgoing[i]?.map Flow.id = r.outgoing[k]?.map Flow.id

/-! ## What is taken -/

/-- The request with the flows leading elsewhere. -/
def leadingTo (r : Request) (targets : Nat → String) : Request :=
  { r with outgoing := placed targets r.outgoing }

/-- Wherever the flows lead, the gateway decides for the targets of the flows in these places. -/
def Takes (r : Request) (places : List Nat) : Prop :=
  ∀ targets w, ∃ d w', (r.leadingTo targets).activate w = .ok d w' ∧ d.next = places.map targets

/-- Whether the gateway may fall back to a flow. -/
def defaults (r : Request) (f : Flow) : Bool := decide (r.HasDefault ∧ r.gateway.Defaults f)

/-- Whether the gateway takes a flow that it comes to. -/
def passes (r : Request) (f : Flow) : Bool :=
  (f.isConditional || decide (r.gateway.kind = .inclusive)) &&
    !isDefault (r.outgoing.find? r.defaults) f && f.isOpen r.vars

/-- The flows that the gateway takes. -/
def chosen (r : Request) : List Flow :=
  if r.gateway.kind = .exclusive then
    ((r.outgoing.find? r.passes).or (r.outgoing.find? r.defaults)).toList
  else if r.outgoing.filter r.passes = [] then (r.outgoing.find? r.defaults).toList
  else r.outgoing.filter r.passes

/-- The places of these flows. -/
def taken (r : Request) : List Nat :=
  let passing := placesOf r.passes r.outgoing
  let default? := (placesOf r.defaults r.outgoing).head?
  if r.gateway.kind = .exclusive then (passing.head?.or default?).toList
  else if passing = [] then default?.toList else passing

lemma defaultAmong_eq (g : Gateway) (outgoing : List Flow) :
    g.defaultAmong outgoing = outgoing.find? (decide <| g.Defaults ·) := by
  rw [Gateway.defaultAmong]
  split
  · next id h =>
    congr 1
    funext f
    rw [Bool.beq_eq_decide_eq, decide_eq_decide, Gateway.Defaults, h]
    simpa using eq_comm
  · next h =>
    congr 1
    funext f
    simp [Gateway.Defaults, h]

lemma find?_defaults (r : Request) : r.outgoing.find? r.defaults =
    if r.HasDefault then r.gateway.defaultAmong r.outgoing else none := by
  rw [defaultAmong_eq]
  split_ifs with h
  · congr 1
    funext f
    simp [defaults, h]
  · simp [defaults, h]

/-- An exclusive gateway takes one of its flows. -/
lemma exclusiveChoice_eq (hkind : r.gateway.kind = .exclusive) :
    (r.gateway.exclusiveChoice r.outgoing r.vars).toList = r.chosen := by
  have hdefault : r.outgoing.find? r.defaults = r.gateway.defaultAmong r.outgoing := by
    rw [find?_defaults, if_pos]
    simp [HasDefault, hkind]
  have hfind : (r.gateway.exclusiveCandidates r.outgoing).find? (·.isOpen r.vars) =
      r.outgoing.find? r.passes := by
    rw [Gateway.exclusiveCandidates, ← List.head?_filter, List.filter_filter, List.head?_filter,
      ← hdefault]
    congr 1
    funext f
    simp [passes, hkind, Bool.and_comm]
  rw [chosen, if_pos hkind, Gateway.exclusiveChoice, hfind, hdefault, Option.orElse_eq_orElse,
    Option.orElse_eq_or]

/-- An inclusive gateway takes any number of them. -/
lemma inclusiveChoice_eq (hkind : r.gateway.kind = .inclusive) :
    r.gateway.inclusiveChoice r.outgoing r.vars = r.chosen := by
  have hdefault : r.outgoing.find? r.defaults = r.gateway.inclusiveDefault r.outgoing := by
    rw [find?_defaults, Gateway.inclusiveDefault]
    congr 1
    simp [HasDefault, hkind, Option.isSome_iff_ne_none]
  have hfilter : (r.gateway.inclusiveCandidates r.outgoing).filter (·.isOpen r.vars) =
      r.outgoing.filter r.passes := by
    rw [Gateway.inclusiveCandidates, List.filter_filter, ← hdefault]
    congr 1
    funext f
    simp [passes, hkind, Bool.and_comm]
  rw [Gateway.inclusiveChoice, hfilter, ← hdefault, chosen, if_neg (by simp [hkind])]
  split
  · next h => rw [if_pos h]
  · next h => rw [if_neg h]

/-- The gateway decides for the targets of the flows that it takes, and fails if there is none. -/
lemma IsGuarded.activate_guarded (hr : r.IsGuarded) (w : Workspace) :
    (r.chosen ≠ [] ∧ ∃ d w', r.activate w = .ok d w' ∧ d.next = r.chosen.map Flow.target) ∨
      (r.chosen = [] ∧ ∃ w', r.activate w = .error (.noSatisfiedFlow r.gateway.id) w') := by
  rcases hr with hkind | ⟨hkind, hforks⟩
  · have hpublish := Action.publish_apply (r.gateway.exclusiveEvents r.outgoing r.vars) w
    have hchosen := exclusiveChoice_eq hkind
    rw [activate, hkind]
    simp only
    rw [exclusive, Action.bind_of_ok hpublish]
    cases hchoice : r.gateway.exclusiveChoice r.outgoing r.vars with
    | none =>
      rw [hchoice] at hchosen
      exact .inr ⟨hchosen.symm, _, rfl⟩
    | some f =>
      rw [hchoice] at hchosen
      exact .inl ⟨hchosen ▸ List.cons_ne_nil _ _, _, _, rfl, by rw [← hchosen]; rfl⟩
  · have hpublish := Action.publish_apply (r.gateway.inclusiveEvents r.outgoing r.vars) w
    rw [activate, hkind]
    simp only [if_pos hforks]
    rw [inclusiveFork, Action.bind_of_ok hpublish, inclusiveChoice_eq hkind]
    by_cases hnone : r.chosen = []
    · rw [hnone]
      exact .inr ⟨rfl, _, rfl⟩
    · have hsome : ¬(r.chosen.map Flow.target).isEmpty = true := by simpa using hnone
      simp only [if_neg hsome]
      refine .inl ⟨hnone, ?_⟩
      rw [recordFork]
      cases r.instanceId with
      | none => exact ⟨_, _, rfl, rfl⟩
      | some p => exact ⟨_, _, rfl, rfl⟩

/-! ## Chosen flows and their places -/

lemma hasDefault_leadingTo (r : Request) (targets : Nat → String) :
    (r.leadingTo targets).HasDefault ↔ r.HasDefault := by
  have hany : (∃ f ∈ placed targets r.outgoing, f.isConditional = true) ↔
      ∃ f ∈ r.outgoing, f.isConditional = true := by
    simp only [← List.any_eq_true]
    rw [placed_eq_map, List.any_map]
    conv_rhs => rw [← List.zipIdx_map_fst 0 r.outgoing, List.any_map]
    rfl
  exact imp_congr_right fun _ => or_congr_right hany

lemma defaults_leadingTo (r : Request) (targets : Nat → String) :
    (r.leadingTo targets).defaults = r.defaults := by
  funext f
  exact decide_eq_decide.2 (and_congr_left' (r.hasDefault_leadingTo targets))

lemma isDefault_eq (default : Option Flow) (f : Flow) :
    isDefault default f = (default.map Flow.id == some f.id) := by
  cases default <;> rfl

lemma passes_leadingTo (r : Request) (targets : Nat → String) :
    (r.leadingTo targets).passes = r.passes := by
  have hid : ((placed targets r.outgoing).find? r.defaults).map Flow.id =
      (r.outgoing.find? r.defaults).map Flow.id := map_id_find?_placed fun _ _ => rfl
  funext f
  rw [passes, passes, defaults_leadingTo, isDefault_eq, isDefault_eq]
  rw [← hid]
  rfl

/-- The flows that are chosen, wherever they lead, are those in the taken places. -/
lemma map_target_chosen (r : Request) (targets : Nat → String) :
    (r.leadingTo targets).chosen.map Flow.target = r.taken.map targets := by
  have hpasses : ∀ f t, r.passes { f with target := t } = r.passes f := fun _ _ => rfl
  have hdefaults : ∀ f t, r.defaults { f with target := t } = r.defaults f := fun _ _ => rfl
  have hfirst : ((placed targets r.outgoing).find? r.passes).map Flow.target =
      (placesOf r.passes r.outgoing).head?.map targets := map_target_find?_placed hpasses
  have hdefault : ((placed targets r.outgoing).find? r.defaults).map Flow.target =
      (placesOf r.defaults r.outgoing).head?.map targets := map_target_find?_placed hdefaults
  have hall : ((placed targets r.outgoing).filter r.passes).map Flow.target =
      (placesOf r.passes r.outgoing).map targets := map_target_filter_placed hpasses
  have hnone : (placed targets r.outgoing).filter r.passes = [] ↔
      placesOf r.passes r.outgoing = [] := by
    rw [← List.map_eq_nil_iff (f := Flow.target), hall, List.map_eq_nil_iff]
  rw [chosen, taken, passes_leadingTo, defaults_leadingTo]
  simp only [leadingTo, hnone]
  split_ifs with hkind h
  · rw [← Option.toList_map, Option.map_or, hfirst, hdefault, ← Option.map_or, Option.toList_map]
  · rw [← Option.toList_map, hdefault, Option.toList_map]
  · exact hall

lemma IsGuarded.leadingTo (hr : r.IsGuarded) (targets : Nat → String) :
    (r.leadingTo targets).IsGuarded := by
  refine hr.imp_right fun ⟨hkind, hforks⟩ => ⟨hkind, ?_⟩
  have hhead : ((placed targets r.outgoing).head?.any (·.isConditional)) =
      r.outgoing.head?.any (·.isConditional) := by
    cases r.outgoing <;> simp [placed, Flow.isConditional]
  rw [← hforks, forksInclusively, forksInclusively]
  simp only [Request.leadingTo, hhead]
  simp [placed]

/-- The taken places, if there are any, are the only ones that the gateway takes. -/
lemma takes_iff (hr : r.IsGuarded) : r.Takes places ↔ places = r.taken ∧ places ≠ [] := by
  constructor
  · intro h
    -- Elements with different ids tell the places apart.
    let targets : Nat → String := fun i => String.ofList (List.replicate i 'a')
    have htargets : Function.Injective targets := fun i j hij => by
      simpa [targets] using congrArg String.length hij
    let w : Workspace := ⟨default, default, .start default⟩
    obtain ⟨d, w', hok, hnext⟩ := h targets w
    rcases (hr.leadingTo targets).activate_guarded w with
      ⟨hne, d', v, hok', hnext'⟩ | ⟨-, v, herr⟩
    · rw [hok] at hok'
      cases hok'
      rw [hnext, map_target_chosen] at hnext'
      have htaken : places = r.taken := List.map_injective_iff.2 htargets hnext'
      refine ⟨htaken, fun hnil => hne ?_⟩
      rw [← List.map_eq_nil_iff (f := Flow.target), map_target_chosen, ← htaken, hnil, List.map_nil]
    · rw [hok] at herr
      cases herr
  · rintro ⟨rfl, hne⟩ targets w
    rcases (hr.leadingTo targets).activate_guarded w with ⟨-, d, w', hok, hnext⟩ | ⟨hnil, -⟩
    · exact ⟨d, w', hok, hnext.trans (r.map_target_chosen targets)⟩
    · have htargets := r.map_target_chosen targets
      rw [hnil, List.map_nil, eq_comm, List.map_eq_nil_iff] at htargets
      exact absurd htargets hne

/-! ## Prescribed places -/

lemma FallsBackTo.unique (h : r.FallsBackTo i) (h' : r.FallsBackTo k) : i = k := h.2.unique h'.2

lemma fallsBackTo_iff : r.FallsBackTo k ↔ (placesOf r.defaults r.outgoing).head? = some k := by
  rw [head?_eq_some_iff_isLeast (placesOf_sorted _ _), FallsBackTo]
  by_cases h : r.HasDefault
  · simp [mem_placesOf, defaults, h]
  · simp [mem_placesOf, defaults, h, IsLeast]

/-- A flow has the id of the default if it is the default or is mistaken for it. -/
lemma isDefault_iff (h : r.outgoing[i]? = some f) :
    isDefault (r.outgoing.find? r.defaults) f = true ↔ r.FallsBackTo i ∨ r.Mistaken i := by
  rw [isDefault_eq, find?_eq_bind, beq_iff_eq]
  constructor
  · intro hid
    obtain ⟨d, hd, hid⟩ := Option.map_eq_some_iff.1 hid
    obtain ⟨k, hk, hd⟩ := Option.bind_eq_some_iff.1 hd
    by_cases hik : i = k
    · exact .inl (fallsBackTo_iff.2 (hik ▸ hk))
    · refine .inr ⟨k, fallsBackTo_iff.2 hk, hik, ?_⟩
      rw [h, hd, Option.map_some, Option.map_some, hid]
  · rintro (hi | ⟨k, hk, -, hid⟩)
    · rw [fallsBackTo_iff.1 hi, Option.bind_some, h, Option.map_some]
    · rw [fallsBackTo_iff.1 hk, Option.bind_some, ← hid, h, Option.map_some]

lemma admits_iff : r.Admits f ↔
    ((f.isConditional || decide (r.gateway.kind = .inclusive)) && f.isOpen r.vars) = true := by
  rw [Admits, Bool.and_eq_true]
  cases hf : f.isConditional with
  | true => simp [Flow.isOpen_iff_holds hf]
  | false => simp [Flow.isOpen_of_not_isConditional hf]

/-- The gateway takes the flows in the eligible places, except for mistaken ones. -/
lemma mem_passing : i ∈ placesOf r.passes r.outgoing ↔ r.Eligible i ∧ ¬r.Mistaken i := by
  have hpasses : ∀ f, r.outgoing[i]? = some f →
      (r.passes f = true ↔ r.Admits f ∧ ¬r.FallsBackTo i ∧ ¬r.Mistaken i) := by
    intro f hf
    rw [← not_or, ← isDefault_iff hf, admits_iff, passes]
    simp only [Bool.and_eq_true, Bool.not_eq_true', Bool.not_eq_true]
    tauto
  rw [mem_placesOf, Eligible, and_assoc]
  constructor
  · rintro ⟨f, hf, hpass⟩
    obtain ⟨hadmits, hothers⟩ := (hpasses f hf).1 hpass
    exact ⟨⟨f, hf, hadmits⟩, hothers⟩
  · rintro ⟨⟨f, hf, hadmits⟩, hothers⟩
    exact ⟨f, hf, (hpasses f hf).2 ⟨hadmits, hothers⟩⟩

/-- If the gateway takes just the flows in eligible places, it takes the selected ones. -/
lemma routes_iff (hr : r.IsGuarded)
    (heligible : ∀ i, i ∈ placesOf r.passes r.outgoing ↔ eligible i) :
    r.Routes eligible places ↔ places = r.taken ∧ places ≠ [] := by
  have hsorted := placesOf_sorted r.passes r.outgoing
  obtain rfl : (· ∈ placesOf r.passes r.outgoing) = eligible :=
    funext fun i => propext (heligible i)
  have hdefault := fun k => fallsBackTo_iff (r := r) (k := k)
  rw [taken]
  generalize placesOf r.passes r.outgoing = passing at hsorted ⊢
  generalize (placesOf r.defaults r.outgoing).head? = default? at hdefault ⊢
  constructor
  · rintro (⟨hkind, hi⟩ | ⟨hkind, hne, hplaces, hmem⟩ | ⟨hnone, hk⟩)
    · rw [if_pos hkind, (head?_eq_some_iff_isLeast hsorted).2 hi]
      exact ⟨rfl, List.cons_ne_nil _ _⟩
    · obtain rfl := hplaces.eq_of_mem_iff hsorted hmem
      rw [if_neg (by simp [hkind]), if_neg hne]
      exact ⟨rfl, hne⟩
    · obtain rfl := List.eq_nil_iff_forall_not_mem.2 hnone
      rw [(hdefault _).1 hk]
      exact ⟨by simp, List.cons_ne_nil _ _⟩
  · rintro ⟨rfl, hne⟩
    have hfallback : passing = [] → default?.toList ≠ [] →
        r.Routes (· ∈ passing) default?.toList := by
      rintro rfl hsome
      obtain ⟨k, rfl⟩ := Option.ne_none_iff_exists'.1 (by simpa using hsome)
      exact .fallback (fun _ => List.not_mem_nil) ((hdefault k).2 rfl)
    by_cases hnil : passing = []
    · simp only [hnil, List.head?_nil, Option.none_or, if_true, ite_self] at hne ⊢
      exact hnil ▸ hfallback hnil hne
    · rcases hr with hkind | ⟨hkind, -⟩
      · obtain ⟨i, hi⟩ := Option.isSome_iff_exists.1 (List.isSome_head?.2 hnil)
        rw [if_pos hkind, hi]
        exact .first hkind ((head?_eq_some_iff_isLeast hsorted).1 hi)
      · rw [if_neg (by simp [hkind]), if_neg hnil]
        exact .every hkind hnil hsorted fun _ => Iff.rfl

/-! ## Main results -/

/-- What the gateway takes is what is selected when mistaken flows are not eligible. -/
lemma takes_iff_routes (hr : r.IsGuarded) :
    r.Takes places ↔ r.Routes (fun i => r.Eligible i ∧ ¬r.Mistaken i) places := by
  rw [takes_iff hr, routes_iff hr fun _ => mem_passing]

lemma not_mistaken_of_fallsBackTo (h : r.FallsBackTo k) : ¬r.Mistaken k := by
  rintro ⟨j, hj, hne, -⟩
  exact hne (h.unique hj)

/-- The prescribed places are taken if none of them is mistaken. -/
lemma Routes.takes (hr : r.IsGuarded) (h : r.Prescribes places)
    (hmistaken : ∀ i ∈ places, ¬r.Mistaken i) : r.Takes places := by
  rw [takes_iff_routes hr]
  cases h with
  | first hkind hi =>
    exact .first hkind ⟨⟨hi.1, hmistaken _ List.mem_cons_self⟩, fun j hj => hi.2 hj.1⟩
  | every hkind hne hsorted hplaces =>
    refine .every hkind hne hsorted fun i => ?_
    rw [hplaces i, iff_self_and]
    exact fun hi => hmistaken i ((hplaces i).2 hi)
  | fallback hnone hk => exact .fallback (fun i hi => hnone i hi.1) hk

/-- A mistaken place is not taken. -/
lemma Takes.not_mistaken (hr : r.IsGuarded) (h : r.Takes places) (hi : i ∈ places) :
    ¬r.Mistaken i := by
  rw [takes_iff_routes hr] at h
  cases h with
  | first hkind hleast => exact (List.mem_singleton.1 hi) ▸ hleast.1.2
  | every hkind hne hsorted hplaces => exact ((hplaces i).1 hi).2
  | fallback hnone hk => exact (List.mem_singleton.1 hi) ▸ not_mistaken_of_fallsBackTo hk

/-- Something is selected if there is an eligible place, or one to fall back to. -/
lemma exists_routes_iff (hr : r.IsGuarded) (hbound : ∀ i, eligible i → i < r.outgoing.length) :
    (∃ places, r.Routes eligible places) ↔ (∃ i, eligible i) ∨ ∃ k, r.FallsBackTo k := by
  classical
  constructor
  · rintro ⟨places, ⟨-, hi⟩ | ⟨-, hne, -, hplaces⟩ | ⟨-, hk⟩⟩
    · exact .inl ⟨_, hi.1⟩
    · obtain ⟨i, hi⟩ := List.exists_mem_of_ne_nil _ hne
      exact .inl ⟨i, (hplaces i).1 hi⟩
    · exact .inr ⟨_, hk⟩
  · intro h
    by_cases hsome : ∃ i, eligible i
    · rcases hr with hkind | ⟨hkind, -⟩
      · exact ⟨_, .first hkind ⟨Nat.find_spec hsome, fun i hi => Nat.find_min' hsome hi⟩⟩
      · have hmem : ∀ i, i ∈ (List.range r.outgoing.length).filter (eligible ·) ↔ eligible i := by
          intro i
          simpa using hbound i
        obtain ⟨i, hi⟩ := hsome
        refine ⟨_, .every hkind (List.ne_nil_of_mem ((hmem i).2 hi)) ?_ hmem⟩
        exact (List.pairwise_lt_range.sublist List.filter_sublist).sortedLT
    · obtain ⟨k, hk⟩ := h.resolve_left hsome
      exact ⟨_, .fallback (not_exists.1 hsome) hk⟩

lemma exists_takes_iff (hr : r.IsGuarded) :
    (∃ places, r.Takes places) ↔ ∃ places, r.Prescribes places := by
  have hbound : ∀ i, r.Eligible i → i < r.outgoing.length := fun i ⟨⟨f, hf, _⟩, _⟩ =>
    (List.getElem?_eq_some_iff.1 hf).1
  simp only [takes_iff_routes hr]
  rw [exists_routes_iff hr hbound, exists_routes_iff hr fun i hi => hbound i hi.1]
  constructor
  · exact Or.imp_left fun ⟨i, hi, _⟩ => ⟨i, hi⟩
  · rintro (⟨i, hi⟩ | hk)
    · by_cases hmistaken : r.Mistaken i
      · obtain ⟨k, hk, -⟩ := hmistaken
        exact .inr ⟨k, hk⟩
      · exact .inl ⟨i, hi, hmistaken⟩
    · exact .inr hk

/-- Where the flow in a place leads. -/
def targetAt (r : Request) (i : Nat) : String := (r.outgoing[i]?.map Flow.target).getD ""

lemma leadingTo_targetAt (r : Request) : r.leadingTo r.targetAt = r := by
  have hplaced : placed r.targetAt r.outgoing = r.outgoing := by
    refine List.ext_getElem (by simp [placed]) fun i h _ => ?_
    have hi : i < r.outgoing.length := by simpa [placed] using h
    simp [placed, targetAt, hi]
  rw [leadingTo, hplaced]

/-- The gateway decides for the targets of the places that it takes. -/
lemma Takes.activate (h : r.Takes places) (w : Workspace) :
    ∃ d w', r.activate w = .ok d w' ∧ d.next = places.map r.targetAt := by
  have hown := h r.targetAt w
  rwa [leadingTo_targetAt] at hown

/-- The gateway fails if it takes no places. -/
lemma activate_fails_iff (hr : r.IsGuarded) :
    (∀ w, ∃ w', r.activate w = .error (.noSatisfiedFlow r.gateway.id) w') ↔
      ∀ places, ¬r.Takes places := by
  have hchosen := r.map_target_chosen r.targetAt
  rw [leadingTo_targetAt] at hchosen
  constructor
  · intro h places htakes
    obtain ⟨w', herr⟩ := h ⟨default, default, .start default⟩
    obtain ⟨d, v, hok, -⟩ := htakes.activate ⟨default, default, .start default⟩
    rw [herr] at hok
    cases hok
  · intro h w
    rcases hr.activate_guarded w with ⟨hne, -⟩ | ⟨-, herr⟩
    · refine absurd ((takes_iff hr).2 ⟨rfl, fun hnil => hne ?_⟩) (h _)
      rwa [hnil, List.map_nil, List.map_eq_nil_iff] at hchosen
    · exact herr

/-- **Guarded routing.** The prescribed flows are taken, whatever the variables and wherever they
lead, if and only if none of them is mistaken for the default, and the gateway fails if and only if
no flow is prescribed. -/
theorem prescribed_taken_iff (hr : r.IsGuarded) :
    (∀ places, r.Prescribes places →
      ((r.Takes places ∧ ∀ w, ∃ d w', r.activate w = .ok d w' ∧ d.next = places.map r.targetAt) ↔
        ∀ i ∈ places, ¬r.Mistaken i)) ∧
    ((∀ places, ¬r.Prescribes places) ↔
      ∀ w, ∃ w', r.activate w = .error (.noSatisfiedFlow r.gateway.id) w') := by
  refine ⟨fun places hplaces => ⟨fun h i hi => h.1.not_mistaken hr hi, fun h => ?_⟩, ?_⟩
  · have htakes := hplaces.takes hr h
    exact ⟨htakes, htakes.activate⟩
  · rw [activate_fails_iff hr, ← not_exists, ← not_exists, exists_takes_iff hr]

/-- The second of three guards is the first that holds: the first one cannot be evaluated. -/
def banded : Request :=
  { gateway := .unnamed "band" .exclusive (some "f3")
    outgoing := [⟨"f1", "band", "named", some "name - 1 > 0"⟩,
      ⟨"f2", "band", "high", some "total > 10"⟩, ⟨"f3", "band", "low", some "total > 0"⟩,
      ⟨"f4", "band", "some", some "total > 1"⟩]
    vars := [("name", .string "ann"), ("total", .ofNat 12)]
    incoming := some 1
    instanceId := some "p"
    executionId := none
    frames := [] }

theorem prescribed_taken_iff_banded : banded.IsGuarded ∧ banded.Prescribes [1] ∧
    ((banded.Takes [1] ∧
      ∀ w, ∃ d w', banded.activate w = .ok d w' ∧ d.next = [1].map banded.targetAt) ↔
        ∀ i ∈ [1], ¬banded.Mistaken i) ∧
    ((∀ places, ¬banded.Prescribes places) ↔
      ∀ w, ∃ w', banded.activate w = .error (.noSatisfiedFlow "band") w') := by
  have hguarded : banded.IsGuarded := .inl rfl
  have hdefault : banded.FallsBackTo 2 := fallsBackTo_iff.2 (by decide)
  have hsecond : banded.Eligible 1 :=
    ⟨⟨_, rfl, admits_iff.2 (by decide +kernel)⟩,
      fun h => absurd (h.unique hdefault) (by decide)⟩
  have hfirst : ¬banded.Eligible 0 := by
    rintro ⟨⟨f, hf, h⟩, -⟩
    obtain rfl := Option.some.inj hf
    rw [admits_iff] at h
    exact absurd h (by decide +kernel)
  have hplaces : banded.Prescribes [1] := by
    refine .first rfl ⟨hsecond, fun i hi => Nat.one_le_iff_ne_zero.2 ?_⟩
    rintro rfl
    exact hfirst hi
  have hrouting := prescribed_taken_iff hguarded
  exact ⟨hguarded, hplaces, hrouting.1 [1] hplaces, hrouting.2⟩

/-! ## Flows with one id -/

/-- Where the flows have distinct ids, none is mistaken. -/
lemma not_mistaken_of_distinct (h : (r.outgoing.map Flow.id).Nodup) (i : Nat) : ¬r.Mistaken i := by
  rintro ⟨k, ⟨-, ⟨d, hd, -⟩, -⟩, hne, hid⟩
  have hk : k < (r.outgoing.map Flow.id).length := by
    rw [List.length_map]
    exact (List.getElem?_eq_some_iff.1 hd).1
  rw [← List.getElem?_map, ← List.getElem?_map] at hid
  exact hne ((List.getElem?_inj hk h).1 hid.symm).symm

/-- **Routing with distinct ids.** If the flows of a definition have distinct ids, a gateway takes
just what is prescribed. -/
theorem takes_iff_prescribes {d : Definition} (hids : (d.flows.map Flow.id).Nodup)
    (hr : r.IsGuarded) (hout : r.outgoing = d.outgoing r.gateway.id) :
    r.Takes places ↔ r.Prescribes places := by
  have hnone := not_mistaken_of_distinct (r := r) (by
    rw [hout, Definition.outgoing]
    exact hids.sublist (List.filter_sublist.map Flow.id))
  rw [takes_iff_routes hr]
  simp only [hnone, not_false_eq_true, and_true]

/-- A gateway with two flows of one id, the first without a condition. -/
def twins : Definition :=
  { Definition.empty "twins" with
    startEvents := [.unnamed "start"]
    endEvents := [.unnamed "end"]
    userTasks := [.unnamed "a", .unnamed "b"]
    gateways := [.unnamed "choose" .exclusive none]
    flows := [⟨"f1", "start", "choose", none⟩, ⟨"f2", "choose", "a", none⟩,
      ⟨"f2", "choose", "b", some "amount > 100"⟩, ⟨"f3", "a", "end", none⟩,
      ⟨"f4", "b", "end", none⟩] }

/-- A token comes to it. -/
def divided : Request :=
  { gateway := .unnamed "choose" .exclusive none
    outgoing := twins.outgoing "choose"
    vars := [("amount", .ofNat 250)]
    incoming := some 1
    instanceId := some "p"
    executionId := none
    frames := [] }

/-- It is not so that the gateways of accepted definitions take the prescribed flows: here the guard
of the second flow holds, but it is passed over for the default. -/
theorem guard_passed_over :
    twins.ensureValid = .ok () ∧ twins.element? "choose" = some (.gateway divided.gateway) ∧
      divided.IsGuarded ∧ divided.Prescribes [1] ∧ ¬divided.Takes [1] ∧
      [1].map divided.targetAt = ["b"] ∧ ∀ w, ∃ w', divided.activate w = .ok (.to ["a"]) w' := by
  have hguarded : divided.IsGuarded := .inl rfl
  have hdefault : divided.FallsBackTo 0 := fallsBackTo_iff.2 (by decide)
  have hsecond : divided.Eligible 1 :=
    ⟨⟨_, rfl, admits_iff.2 (by decide +kernel)⟩,
      fun h => absurd (h.unique hdefault) (by decide)⟩
  have hplaces : divided.Prescribes [1] := by
    refine .first rfl ⟨hsecond, fun i hi => Nat.one_le_iff_ne_zero.2 ?_⟩
    rintro rfl
    exact hi.2 hdefault
  refine ⟨by decide +kernel, by decide, hguarded, hplaces, fun h => ?_, rfl, fun w => ⟨_, rfl⟩⟩
  exact h.not_mistaken hguarded List.mem_cons_self ⟨0, hdefault, by decide, rfl⟩

end Request

end ProcessEngine

import Mathlib.Logic.Equiv.Basic
import ProcessEngine.Proofs.Gateway.Course

/-!
# Frames and states seen through a renaming

Two engines that are told the same hand out different identifiers when one of them has handed out
more of them before.  A `Renaming` says which identifiers of the one stand for which of the other.
Seen through it, a frame or a gateway state has its identifiers renamed, and what else two runs may
differ in is left out: generations, and the identifiers of executions, which nothing reads.

What is done to frames and states looks only at what can be seen: each operation is the same before
and after the renaming.
-/

namespace ProcessEngine

/-- Which instances and which identifiers of one engine stand for which of another one. -/
structure Renaming where
  names : Equiv.Perm String
  uid : Uid → Uid
  uid_injective : Function.Injective uid

namespace Renaming

/-- Nothing is renamed. -/
def same : Renaming := ⟨Equiv.refl String, id, Function.injective_id⟩

variable (κ : Renaming)

lemma uid_inj {u v : Uid} : κ.uid u = κ.uid v ↔ u = v := κ.uid_injective.eq_iff

lemma map_uid_inj {u v : Option Uid} : u.map κ.uid = v.map κ.uid ↔ u = v :=
  (Option.map_injective κ.uid_injective).eq_iff

lemma names_inj {p q : String} : κ.names p = κ.names q ↔ p = q := κ.names.injective.eq_iff

end Renaming

/-! ## Frames -/

namespace Frame

variable (κ : Renaming)

/-- A frame as it is seen. -/
def seen (f : Frame) : Frame := { f with forkId := κ.uid f.forkId, generation := 0 }

@[simp] lemma forkId_seen (f : Frame) : (f.seen κ).forkId = κ.uid f.forkId := rfl

lemma seen_forBranch (f : Frame) (n : Nat) : (f.forBranch n).seen κ = (f.seen κ).forBranch n := rfl

lemma seen_absorb (f g : Frame) : (f.absorb g).seen κ = (f.seen κ).absorb (g.seen κ) := rfl

lemma map_seen_merge (as bs : List Frame) :
    (merge as bs).map (seen κ) = merge (as.map (seen κ)) (bs.map (seen κ)) := by
  induction as generalizing bs with
  | nil => simp [merge]
  | cons a as ih =>
    cases bs with
    | nil => simp [merge]
    | cons b bs =>
      simp only [List.map_cons, merge, forkId_seen, κ.uid_inj]
      split_ifs with heq
      · rw [List.map_cons, ih, seen_absorb]
      · rfl

lemma map_seen_open (fs : List Frame) :
    (fs.filter (!·.isClosed)).map (seen κ) = (fs.map (seen κ)).filter (!·.isClosed) := by
  rw [List.filter_map]
  rfl

end Frame

/-! ## Gateway states -/

namespace GatewayState

variable (κ : Renaming)

/-- A gateway state as it is seen. -/
def seen (s : GatewayState) : GatewayState :=
  { s with
    id := κ.uid s.id
    instanceId := κ.names s.instanceId
    executionId := none
    correlationId := s.correlationId.map κ.uid
    arrivedFrames := s.arrivedFrames.map (List.map (Frame.seen κ))
    generation := 0 }

@[simp] lemma id_seen (s : GatewayState) : (s.seen κ).id = κ.uid s.id := rfl

@[simp] lemma isFull_seen (s : GatewayState) : (s.seen κ).isFull = s.isFull := rfl

lemma seen_arrived (s : GatewayState) (frames : List Frame) :
    (s.arrived frames).seen κ = (s.seen κ).arrived (frames.map (Frame.seen κ)) := by
  cases hframes : s.arrivedFrames with
  | none => simp [arrived, fold, countBranch, seen, hframes]
  | some shared => simp [arrived, fold, countBranch, seen, hframes, Frame.map_seen_merge]

lemma shared_seen (s : GatewayState) : (s.seen κ).shared = s.shared.map (Frame.seen κ) := by
  cases hframes : s.arrivedFrames <;> simp [shared, seen, hframes]

lemma handedOn_seen (s : GatewayState) : (s.seen κ).handedOn = s.handedOn.map (Frame.seen κ) := by
  rw [handedOn, handedOn, shared_seen, Frame.map_seen_open]

lemma closing_seen (s : GatewayState) (sizedBy : Option Uid) :
    (s.seen κ).closing (sizedBy.map κ.uid) = (s.closing sizedBy).map κ.uid := by
  have hclosed : ((s.seen κ).shared.filter (·.isClosed)).map Frame.forkId =
      ((s.shared.filter (·.isClosed)).map Frame.forkId).map κ.uid := by
    rw [shared_seen, List.filter_map, List.map_map, List.map_map]
    rfl
  rw [closing, closing, hclosed, List.map_append]
  cases sizedBy <;> rfl

lemma seen_ofJoin (new : NewJoin) (id : Uid) (generation : Nat) :
    (ofJoin new id generation).seen κ =
      ofJoin { new with
        instanceId := κ.names new.instanceId
        executionId := none
        correlationId := new.correlationId.map κ.uid } (κ.uid id) 0 := rfl

lemma isJoinOf_seen (p gateway : String) (key : Option Uid) (s : GatewayState) :
    Store.isJoinOf (κ.names p) gateway (key.map κ.uid) (s.seen κ) =
      Store.isJoinOf p gateway key s := by
  rw [Bool.eq_iff_iff]
  simp only [Store.isJoinOf, seen, Bool.and_eq_true, beq_iff_eq, κ.names_inj, κ.map_uid_inj]

end GatewayState

/-! ## Lists of states -/

section Lists

variable (κ : Renaming) (states : List GatewayState)

lemma map_seen_exchanged (j : GatewayState) :
    (exchanged j states).map (GatewayState.seen κ) =
      exchanged (j.seen κ) (states.map (GatewayState.seen κ)) := by
  simp only [exchanged, List.map_map, List.map_inj_left, Function.comp_apply, GatewayState.id_seen,
    κ.uid_inj]
  intro s _
  split_ifs <;> rfl

lemma map_seen_retired (ids : List Uid) :
    (retired ids states).map (GatewayState.seen κ) =
      retired (ids.map κ.uid) (states.map (GatewayState.seen κ)) := by
  simp only [retired, List.map_map, List.map_inj_left, Function.comp_apply, GatewayState.id_seen,
    List.mem_map_of_injective κ.uid_injective]
  intro s _
  split_ifs <;> rfl

/-- The active join of a key is found at the same place. -/
lemma find?_isJoinOf_seen (p gateway : String) (key : Option Uid) :
    (states.map (GatewayState.seen κ)).find?
        (Store.isJoinOf (κ.names p) gateway (key.map κ.uid)) =
      (states.find? (Store.isJoinOf p gateway key)).map (GatewayState.seen κ) := by
  rw [List.find?_map]
  congr 2
  funext s
  exact GatewayState.isJoinOf_seen κ p gateway key s

end Lists

/-! ## Requests -/

namespace Request

variable (κ : Renaming)

/-- A request as it is seen. -/
def seen (r : Request) : Request :=
  { r with
    instanceId := r.instanceId.map κ.names
    executionId := none
    frames := r.frames.map (Frame.seen κ) }

lemma course_seen (r : Request) : (r.seen κ).course = r.course := course_congr rfl rfl rfl rfl

/-- Joins are told apart and sized by what is seen. -/
lemma keyAmong_seen (r : Request) (states : List GatewayState) (flows : Option Nat) :
    (r.seen κ).keyAmong (states.map (GatewayState.seen κ)) flows =
      { r.keyAmong states flows with
        correlationId := (r.keyAmong states flows).correlationId.map κ.uid
        closes := (r.keyAmong states flows).closes.map κ.uid } := by
  cases flows with
  | some n =>
    simp only [keyAmong, seen, List.head?_map, Option.map_map, Option.map_none]
    rfl
  | none =>
    simp only [keyAmong, seen, List.getLast?_map]
    cases hlast : r.frames.getLast? with
    | some f => rfl
    | none =>
      have hfind : (((states.map (GatewayState.seen κ)).filter (·.isActive)).reverse).find?
          (·.kind == .fork) =
          (((states.filter (·.isActive)).reverse).find? (·.kind == .fork)).map
            (GatewayState.seen κ) := by
        rw [List.filter_map, ← List.map_reverse, List.find?_map]
        rfl
      simp only [Option.map_none, hfind]
      cases ((states.filter (·.isActive)).reverse).find? (·.kind == .fork) <;> rfl

/-- An arrival is the same as it is seen. -/
lemma arrival_seen (r : Request) (p : String) (flows : Option Nat) (states : List GatewayState)
    (id : Uid) (generation : Nat) :
    (r.seen κ).arrival (κ.names p) flows (states.map (GatewayState.seen κ)) (κ.uid id) 0 =
      ((r.arrival p flows states id generation).1.seen κ,
        (r.arrival p flows states id generation).2.map (GatewayState.seen κ)) := by
  simp only [arrival, arrivalAmong, keyAmong_seen]
  rw [show (r.seen κ).gateway = r.gateway from rfl,
    find?_isJoinOf_seen κ states p r.gateway.id (r.keyAmong states flows).correlationId]
  cases states.find? (Store.isJoinOf p r.gateway.id (r.keyAmong states flows).correlationId) with
  | some o =>
    simp only [Option.map_some, map_seen_exchanged, GatewayState.seen_arrived]
    rfl
  | none =>
    simp only [Option.map_none, List.map_append, List.map_cons, List.map_nil,
      GatewayState.seen_arrived, GatewayState.seen_ofJoin]
    rfl

lemma arrivalStates_seen (r : Request) (p : String) (flows : Option Nat)
    (states : List GatewayState) (id : Uid) (generation : Nat) :
    (r.seen κ).arrivalStates (κ.names p) flows (states.map (GatewayState.seen κ)) (κ.uid id) 0 =
      (r.arrivalStates p flows states id generation).map (GatewayState.seen κ) := by
  simp only [arrivalStates, r.arrival_seen κ p flows states id generation, keyAmong_seen,
    GatewayState.isFull_seen, GatewayState.closing_seen]
  split_ifs
  · rw [map_seen_retired]
  · rfl

end Request

end ProcessEngine

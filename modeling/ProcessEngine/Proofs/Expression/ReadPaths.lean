import Mathlib.Data.List.Basic
import ProcessEngine.Expression.Source
import ProcessEngine.Proofs.Expression.References

/-!
# The paths that evaluation reads

Evaluation looks at the variables in one place only, at the paths of the expression, so two
assignments that agree there give the same value or the same error (`evaluate_congr`).  The listed
paths are dotted texts, and each is listed once.  The segments of a path hold no point, so that the
text of a path splits into its segments again (`split_join`), and to agree on the listed paths is
enough (`evaluate_eq_of_paths`): no variable that is not listed has any influence.
-/

namespace ProcessEngine

/-! ## Splitting what was joined -/

namespace Text

variable {sep : Char}

lemma splitChars_eq_splitOn (cs : List Char) : splitChars sep cs = cs.splitOn sep := by
  induction cs with
  | nil => rfl
  | cons c cs ih =>
    rw [splitChars, ih, List.splitOn, List.splitOn, List.splitOnP_cons_eq_if_modifyHead]
    by_cases hc : c = sep
    · simp [hc]
    · rw [if_neg hc, if_neg (by simpa using hc)]
      cases hparts : cs.splitOnP (· == sep) with
      | nil => exact absurd hparts (List.splitOnP_ne_nil _ _)
      | cons part more => rfl

lemma joinChars_eq_intercalate (parts : List (List Char)) :
    joinChars sep parts = [sep].intercalate parts := by
  induction parts with
  | nil => rfl
  | cons part more ih =>
    cases more with
    | nil => simp [joinChars, List.intercalate]
    | cons next more =>
      rw [joinChars, ih]
      · simp [List.intercalate]
      · nofun

/-- Parts without a separator are found again. -/
lemma split_join {parts : List String} (hne : parts ≠ []) (hsep : ∀ s ∈ parts, sep ∉ s.toList) :
    split sep (join sep parts) = parts := by
  have hchars : ∀ part ∈ parts.map String.toList, sep ∉ part := by
    rintro part hpart
    obtain ⟨s, hs, rfl⟩ := List.mem_map.1 hpart
    exact hsep s hs
  have hparts : (splitChars sep (joinChars sep (parts.map String.toList))) =
      parts.map String.toList := by
    rw [splitChars_eq_splitOn, joinChars_eq_intercalate,
      List.splitOn_intercalate sep hchars (by simpa using hne)]
  rw [split, join, String.toList_ofList, hparts, List.map_map]
  simp

end Text

namespace Expression

variable {e : Expr} {ps : List Piece} {source : String} {vars vars' : Variables}

/-! ## Listed paths -/

lemma Composed.ne_nil (h : Composed e ps) : ∀ p ∈ e.allPaths, p ≠ [] := by
  induction h with
  | number | string | constant => nofun
  | path => exact List.forall_mem_singleton.2 (List.cons_ne_nil _ _)
  | reference _ _ _ ih | parentheses _ ih | unary _ _ ih | behind _ _ ih | before _ _ ih => exact ih
  | binary _ _ _ ihleft ihright => exact List.forall_mem_append.2 ⟨ihleft, ihright⟩

lemma Composed.split_join (h : Composed e ps) {p : List String} (hp : p ∈ e.allPaths) :
    Text.split '.' (Text.join '.' p) = p := by
  refine Text.split_join (h.ne_nil p hp) fun s hs hpoint => ?_
  exact absurd (h.words p hp s hs '.' hpoint) (by decide)

lemma mem_paths {t : String} : t ∈ e.paths ↔ ∃ p ∈ e.allPaths, Text.join '.' p = t := by
  rw [Expr.paths, Expr.collectPaths, mem_foldl_addNew, List.mem_map]
  simp

/-- The paths of an expression that was read are the listed texts, split at the points. -/
lemma mem_allPaths_of_parse (h : parse source = some e) {p : List String} :
    p ∈ e.allPaths ↔ ∃ t ∈ e.paths, Text.split '.' t = p := by
  obtain ⟨ps, hps, -⟩ := exists_composed h
  constructor
  · exact fun hp => ⟨_, mem_paths.2 ⟨p, hp, rfl⟩, hps.split_join hp⟩
  · rintro ⟨t, ht, rfl⟩
    obtain ⟨p, hp, rfl⟩ := mem_paths.1 ht
    rwa [hps.split_join hp]

/-! ## Evaluation -/

/-- Evaluation depends on the variables only through the values at the paths of the expression. -/
lemma evaluate_congr (h : ∀ p ∈ e.allPaths, Variables.lookup vars p = Variables.lookup vars' p) :
    evaluate vars e = evaluate vars' e := by
  induction e with
  | literal v => rfl
  | path segments => exact congrArg Except.ok (h segments List.mem_cons_self)
  | unary op arg ih => rw [evaluate, evaluate, ih h]
  | binary op left right ihleft ihright =>
    obtain ⟨hleft, hright⟩ := List.forall_mem_append.1 h
    have hl := ihleft hleft
    have hr := ihright hright
    -- `and` and `or` have equations of their own
    cases op <;> simp only [evaluate, hl, hr]

/-- **Evaluation reads only the listed paths.** Two assignments that give the same value, or none,
at every listed path of an expression that was read give it the same value or the same error. -/
theorem evaluate_eq_of_paths (h : parse source = some e)
    (hsame : ∀ t ∈ e.paths, Variables.resolve vars t = Variables.resolve vars' t) :
    evaluate vars e = evaluate vars' e := by
  refine evaluate_congr fun p hp => ?_
  obtain ⟨t, ht, rfl⟩ := (mem_allPaths_of_parse h).1 hp
  exact hsame t ht

/-- A guard that mentions one path twice: what else the order, the tags and the variables hold does
not matter. -/
theorem evaluate_eq_of_paths_order :
    ∃ e, parse "order.total > limit && tags.0 == 'vip' || order.total < floor" = some e ∧
      e.paths = ["order.total", "limit", "tags.0", "floor"] ∧
      evaluate [("order", .object [("id", .string "A"), ("total", .ofNat 150)]),
        ("limit", .ofNat 100), ("tags", .array [.string "new"])] e =
      evaluate [("note", .null), ("order", .object [("total", .ofNat 150)]),
        ("limit", .ofNat 100), ("tags", .array [.string "new", .string "vip"])] e := by
  have hparse : parse "order.total > limit && tags.0 == 'vip' || order.total < floor" = some
      (.binary .or
        (.binary .and (.binary .gt (.path ["order", "total"]) (.path ["limit"]))
          (.binary .eq (.path ["tags", "0"]) (.literal (.string "vip"))))
        (.binary .lt (.path ["order", "total"]) (.path ["floor"]))) := by cbv
  refine ⟨_, hparse, by decide, evaluate_eq_of_paths hparse fun t ht => ?_⟩
  have ht : t ∈ ["order.total", "limit", "tags.0", "floor"] := ht
  simp only [List.mem_cons, List.not_mem_nil, or_false] at ht
  rcases ht with rfl | rfl | rfl | rfl <;> cbv

end Expression

end ProcessEngine

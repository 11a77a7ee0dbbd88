import ProcessEngine.Proofs.Expression.TokenTails

/-!
# What stands behind an expression

Where a closing brace or white space follows an expression, it is read just as it is read alone, with
what follows it added to the rest; only a string or a bracket that the text leaves open may be closed
by what follows.  So what is read up to a closing brace is an expression in its own right
(`parse_of_tower`), and an expression may be put between braces (`tower_of_parse`).
-/

namespace ProcessEngine.Expression

open ProcessEngine.Text ProcessEngine.Json

variable {α : Type} {cs rest t x : List Char} {e left : Expr} {n m L : Nat} {f g : Step Expr}
  {level : List (Spelling × BinaryOp)}

/-! ## Expressions with a tail -/

/-- One reader of expressions takes the texts of some length with a tail as another one takes them
alone. -/
def Agree (t : List Char) (L : Nat) (f g : Step Expr) : Prop :=
  ∀ x : List Char, x.length < L → (f x).Extends t (g (x ++ t))

lemma chainFrom_ne_miss : chainFrom level f n left cs ≠ .miss := by
  induction n generalizing left cs with
  | zero => simp [chainFrom]
  | succ n ih =>
    rw [chainFrom]
    split
    · simp
    · split
      · exact ih
      · simp

/-- A chain that goes on from the tail stays there. -/
lemma extends_chainFrom (hg : Regular g) (h : cs.length < (skipSpaces t).length) :
    Outcome.Extends t .fault (chainFrom level g m left cs) :=
  Outcome.extends_of_fault chainFrom_ne_miss fun _ _ hdone =>
    (hg.chainFrom_suffix hdone).length_le.trans_lt h

lemma Agree.chainFrom (hagree : Agree t L f g) (hg : Regular g) (hf : Regular f) (ht : Closed t)
    (hlevel : WellSpelled level) (hx : x.length < L) (hn : x.length ≤ n) (hm : cs.length ≤ m)
    (hcs : skipSpaces cs = skipSpaces (x ++ t)) :
    (chainFrom level f n left x).Extends t (chainFrom level g m left cs) := by
  -- The induction is on the length of the text; an operator always takes some of it.
  induction hlength : x.length using Nat.strong_induction_on generalizing x cs left n m with
  | _ length ih =>
  have hoperator : operator level cs =
      (operator level x).map fun found => (found.1, skipSpaces (found.2 ++ t)) := by
    rw [← operator_skipSpaces, hcs, operator_skipSpaces, operator_closed ht hlevel]
  cases hop : operator level x with
  | none =>
    rw [hop] at hoperator
    rw [chainFrom_calm hop, chainFrom_calm hoperator]
    exact .done hcs
  | some found =>
    obtain ⟨op, more⟩ := found
    replace hoperator : operator level cs = some (op, skipSpaces (more ++ t)) := by
      rw [hoperator, hop, Option.map_some]
    have hmore := length_lt_of_operator hlevel hop
    have hmore' := length_lt_of_operator hlevel hoperator
    obtain ⟨n, rfl⟩ : ∃ l, n = l + 1 := Nat.exists_eq_succ_of_ne_zero (by omega)
    obtain ⟨m, rfl⟩ : ∃ l, m = l + 1 := Nat.exists_eq_succ_of_ne_zero (by omega)
    have hright := hagree more (hmore.trans hx)
    simp only [Expression.chainFrom, hop, hoperator, hg.skips]
    generalize hleft : f more = o at hright ⊢
    generalize hfull : g (more ++ t) = o' at hright ⊢
    cases hright with
    | @done right rest rest' h =>
      have hrest := (hf.suffix hleft).length_le
      rw [← hg.skips] at hfull
      have hrest' := (hg.suffix hfull).length_le
      exact ih rest.length (by omega) (by omega) (by omega) (by omega) h rfl
    | miss | fault => exact .fault
    | mended h => exact extends_chainFrom hg h

lemma Agree.chain (hagree : Agree t L f g) (hg : Regular g) (hf : Regular f) (ht : Closed t)
    (hlevel : WellSpelled level) : Agree t L (chain level f) (chain level g) := by
  intro x hx
  have hleft := hagree x hx
  rw [Expression.chain, Expression.chain]
  generalize hread : f x = o at hleft ⊢
  generalize g (x ++ t) = o' at hleft ⊢
  cases hleft with
  | @done left rest rest' h =>
    have hrest := (hf.suffix hread).length_le
    exact hagree.chainFrom hg hf ht hlevel (by omega) le_rfl le_rfl h
  | miss => exact .miss
  | fault => exact .fault
  | mended h => exact extends_chainFrom hg h

lemma Agree.foldr_chain (hagree : Agree t L f g) (hg : Regular g) (hf : Regular f) (ht : Closed t)
    {ls : List (List (Spelling × BinaryOp))} (hls : ∀ level ∈ ls, WellSpelled level) :
    Agree t L (ls.foldr Expression.chain f) (ls.foldr Expression.chain g) := by
  induction ls with
  | nil => exact hagree
  | cons level ls ih =>
    obtain ⟨hlevel, hls⟩ := List.forall_mem_cons.1 hls
    exact (ih hls).chain (hg.foldr_chain ls) (hf.foldr_chain ls) ht hlevel

lemma Agree.tower (hagree : Agree t L f g) (hg : Regular g) (hf : Regular f) (ht : Closed t) :
    Agree t L (tower f) (tower g) :=
  hagree.foldr_chain hg hf ht wellSpelled_levels

lemma Agree.enclosed (hagree : Agree t L f g) (hg : Regular g) (hf : Regular f) (hx : x.length < L)
    (closing : Char) : (enclosed f closing x).Extends t (enclosed g closing (x ++ t)) := by
  have hinner := hagree x hx
  rw [Expression.enclosed, Expression.enclosed, hf.skips, hg.skips]
  generalize f x = o at hinner ⊢
  generalize g (x ++ t) = o' at hinner ⊢
  cases hinner with
  | @done e rest rest' h =>
    simp only [h]
    rcases skipSpaces_append_cases rest t with ⟨hrest, htext⟩ | ⟨hrest, htext⟩
    · rw [htext, hrest]
      cases hskip : skipSpaces t with
      | nil => exact .fault
      | cons c tail =>
        dsimp only
        split_ifs
        · refine .mended ?_
          rw [hskip]
          exact Nat.lt_succ_self _
        · exact .fault
    · obtain ⟨c, tail, hc⟩ := List.exists_cons_of_ne_nil hrest
      rw [htext, hc, List.cons_append]
      dsimp only
      split_ifs
      · exact .done rfl
      · exact .fault
  | miss | fault => exact .fault
  | @mended e rest hrest =>
    dsimp only
    have hskip := length_skipSpaces_le rest
    cases hc : skipSpaces rest with
    | nil => exact .fault
    | cons c tail =>
      dsimp only
      split_ifs
      · rw [hc, List.length_cons] at hskip
        exact .mended (by omega)
      · exact .fault

/-- White space is dropped from the rest. -/
def Outcome.skipped : Outcome α → Outcome α
  | .done a rest => .done a (skipSpaces rest)
  | o => o

lemma Outcome.skipped_of_ne {o : Outcome α} (h : ∀ a rest, o ≠ .done a rest) : o.skipped = o := by
  cases o with
  | done a rest => exact absurd rfl (h a rest)
  | miss | fault => rfl

lemma Outcome.Extends.skipped {o o' : Outcome α} (h : o.Extends t o') :
    o.skipped.Extends t o'.skipped := by
  cases h with
  | @done a rest rest' h =>
    refine .done ?_
    rw [skipSpaces_skipSpaces, skipSpaces_skipSpaces_append, h]
  | miss => exact .miss
  | fault => exact .fault
  | @mended a rest h => exact .mended ((length_skipSpaces_le rest).trans_lt h)

/-- An expression in brackets, or else a path. -/
def bracketed (inner : Step Expr) (cs : List Char) : Outcome Expr :=
  match cs with
  | '$' :: '\x7b' :: rest => enclosed inner '\x7d' rest
  | '(' :: rest => enclosed inner ')' rest
  | _ => path cs

/-- What stands behind the operators in front of an operand, without the white space around it. -/
def primaryToken (inner : Step Expr) (cs : List Char) : Outcome Expr :=
  ((number cs).map fun n => Expr.literal (.number n)).orElse fun _ =>
  ((stringLiteral cs).map fun s => Expr.literal (.string s)).orElse fun _ =>
  (constant cs).orElse fun _ => bracketed inner cs

lemma primary_eq (inner : Step Expr) (cs : List Char) :
    primary inner cs = (primaryToken inner (skipSpaces cs)).skipped := by
  rw [primary]
  split
  · next e rest hdone =>
    have hfound : primaryToken inner (skipSpaces cs) = .done e rest := hdone
    rw [hfound, Outcome.skipped]
  · next hother =>
    have hfound : ∀ e rest, primaryToken inner (skipSpaces cs) ≠ .done e rest := hother
    exact (Outcome.skipped_of_ne hfound).symm

/-- What starts a text with a tail starts the text. -/
lemma prefix_closed (ht : Closed t) {p : List Char} (hp : ∀ c ∈ p, endsToken c = false)
    (h : p <+: x ++ t) : p <+: x := by
  induction p generalizing x with
  | nil => exact List.nil_prefix
  | cons d p ih =>
    obtain ⟨hd, hp⟩ := List.forall_mem_cons.1 hp
    cases x with
    | nil =>
      obtain ⟨tail, rfl⟩ := h
      exact absurd rfl (ht.head_ne hd d rfl)
    | cons c x =>
      rw [List.cons_append, List.cons_prefix_cons] at h
      exact List.cons_prefix_cons.2 ⟨h.1, ih hp h.2⟩

lemma bracketed_of_ne {inner : Step Expr} (hbrace : ¬['$', '\x7b'] <+: cs) (hparen : ¬['('] <+: cs) :
    bracketed inner cs = path cs := by
  rw [bracketed.eq_def]
  split
  · exact absurd ⟨_, rfl⟩ hbrace
  · exact absurd ⟨_, rfl⟩ hparen
  · rfl

lemma Agree.bracketed (hagree : Agree t L f g) (hg : Regular g) (hf : Regular f) (ht : Closed t)
    (hx : x.length ≤ L) : (bracketed f x).Extends t (bracketed g (x ++ t)) := by
  by_cases hbrace : ['$', '\x7b'] <+: x
  · obtain ⟨tail, rfl⟩ := hbrace
    exact hagree.enclosed (x := tail) hg hf (by simp at hx; omega) '\x7d'
  by_cases hparen : ['('] <+: x
  · obtain ⟨tail, rfl⟩ := hparen
    exact hagree.enclosed (x := tail) hg hf (by simp at hx; omega) ')'
  rw [bracketed_of_ne hbrace hparen, bracketed_of_ne (mt (prefix_closed ht (by decide)) hbrace)
    (mt (prefix_closed ht (by decide)) hparen), path_closed ht]
  exact Outcome.extends_behind t _

lemma Agree.primaryToken (hagree : Agree t L f g) (hg : Regular g) (hf : Regular f)
    (ht : Closed t) (hx : x.length ≤ L) :
    (primaryToken f x).Extends t (primaryToken g (x ++ t)) := by
  rw [Expression.primaryToken, Expression.primaryToken, number_closed ht, constant_closed ht]
  exact ((Outcome.extends_behind t _).map _).orElse <| ((stringLiteral_closed ht x).map _).orElse <|
    (Outcome.extends_behind t _).orElse <| hagree.bracketed hg hf ht hx

lemma agree_zero (t : List Char) (f g : Step Expr) : Agree t 0 f g := nofun

lemma Outcome.Extends.eq_miss {o : Outcome α} (h : Outcome.Extends t .miss o) : o = .miss := by
  cases h
  rfl

lemma Agree.primary (hagree : Agree t L f g) (hg : Regular g) (hf : Regular f) (ht : Closed t)
    (hx : x.length ≤ L) : (primary f x).Extends t (primary g (x ++ t)) := by
  rw [primary_eq, primary_eq]
  refine Outcome.Extends.skipped ?_
  rcases skipSpaces_append_cases x t with ⟨hblank, htext⟩ | ⟨-, htext⟩
  · have hnone := (agree_zero (skipSpaces t) f g).primaryToken hg hf ht.skip (x := []) le_rfl
    rw [List.nil_append] at hnone
    rw [htext, hblank, Outcome.Extends.eq_miss hnone]
    exact .miss
  · rw [htext]
    exact hagree.primaryToken hg hf ht ((length_skipSpaces_le x).trans hx)

/-- The operators in front of an operand, and the operand. -/
def prefixed (n : Nat) (cs : List Char) : Outcome Expr :=
  (match negation? cs with
    | some rest => (operand n rest).map (Expr.unary .not)
    | none => .miss).orElse fun _ =>
  (match cs with
    | '-' :: rest => (operand n rest).map (Expr.unary .neg)
    | _ => .miss).orElse fun _ =>
  primary (tower (operand n)) cs

lemma operand_succ (n : Nat) (cs : List Char) :
    operand (n + 1) cs = prefixed n (skipSpaces cs) := rfl

lemma length_lt_of_negation (h : negation? cs = some rest) : rest.length < cs.length := by
  obtain ⟨s, hs, rfl⟩ := negation?_taken h
  have hall : ∀ s ∈ UnaryOp.not.spellings, 0 < s.toList.length := by decide
  have := hall s hs
  rw [List.length_append]
  omega

lemma Agree.prefixed (hagree : Agree t L (operand n) (operand m)) (ht : Closed t)
    (hx : x.length ≤ L) : (prefixed n x).Extends t (prefixed m (x ++ t)) := by
  rw [Expression.prefixed.eq_def, Expression.prefixed.eq_def, negation?_closed ht]
  refine .orElse ?_ (.orElse ?_ ?_)
  · cases hnegation : negation? x with
    | none => exact .miss
    | some rest =>
      exact (hagree rest ((length_lt_of_negation hnegation).trans_le hx)).map _
  · cases x with
    | nil =>
      cases t with
      | nil => exact .miss
      | cons c tail => simpa [ht.head_ne (d := '-') (by decide) c rfl] using .miss
    | cons c x =>
      by_cases hc : c = '-'
      · subst hc
        exact (hagree x hx).map _
      · simpa [hc] using .miss
  · exact (hagree.tower (regular_operand m) (regular_operand n) ht).primary
      (regular_operand m).tower (regular_operand n).tower ht hx

lemma operand_agree (ht : Closed t) (hn : L ≤ n) (hm : L ≤ m) :
    Agree t L (operand n) (operand m) := by
  induction n generalizing L m with
  | zero =>
    obtain rfl := Nat.le_zero.1 hn
    exact agree_zero t _ _
  | succ n ih =>
    intro x hx
    obtain ⟨m, rfl⟩ : ∃ l, m = l + 1 := Nat.exists_eq_succ_of_ne_zero (by omega)
    rw [operand_succ, operand_succ]
    rcases skipSpaces_append_cases x t with ⟨hblank, htext⟩ | ⟨-, htext⟩
    · have hnone := (agree_zero (skipSpaces t) (operand n) (operand m)).prefixed ht.skip (x := [])
        le_rfl
      rw [List.nil_append] at hnone
      rw [htext, hblank, Outcome.Extends.eq_miss hnone]
      exact .miss
    · rw [htext]
      have hshorter : Agree t x.length (operand n) (operand m) := ih (by omega) (by omega)
      exact hshorter.prefixed ht (length_skipSpaces_le x)

/-! ## Texts with a tail -/

lemma tower_extends (ht : Closed t) (hn : x.length < n) (hm : x.length < m) :
    (tower (operand n) x).Extends t (tower (operand m) (x ++ t)) :=
  (operand_agree ht hn hm).tower (regular_operand m) (regular_operand n) ht x (Nat.lt_succ_self _)

/-- A text is an expression if the reader comes to its end, however many brackets it may open. -/
lemma parse_eq_some (hn : x.length < n) : parse (String.ofList x) = some e ↔
    ∃ rest, tower (operand n) x = .done e rest ∧ skipSpaces rest = [] := by
  have hlength := length_skipSpaces_le x
  have hfuel := tower_extends closed_nil (Nat.lt_succ_self (skipSpaces x).length)
    (hlength.trans_lt hn)
  rw [List.append_nil, (regular_operand n).tower.skips] at hfuel
  simp only [parse, String.toList_ofList]
  generalize tower (operand ((skipSpaces x).length + 1)) (skipSpaces x) = o at hfuel ⊢
  generalize tower (operand n) x = o' at hfuel ⊢
  cases hfuel with
  | @done e' rest rest' h =>
    rw [List.append_nil] at h
    simp [← h, and_comm]
  | miss | fault => simp
  | mended h => exact absurd h (Nat.not_lt_zero _)

/-- What is read up to the tail is an expression. -/
lemma parse_of_tower (ht : Closed t) (hn : x.length < n)
    (h : tower (operand n) (x ++ t) = .done e rest) (hrest : skipSpaces rest = skipSpaces t) :
    parse (String.ofList x) = some e := by
  have hextends := tower_extends ht hn hn
  rw [h] at hextends
  refine (parse_eq_some hn).2 ?_
  generalize tower (operand n) x = o at hextends ⊢
  cases hextends with
  | @done e rest' _ h' =>
    refine ⟨rest', rfl, ?_⟩
    rw [hrest] at h'
    rcases skipSpaces_append_cases rest' t with ⟨hblank, -⟩ | ⟨hne, htext⟩
    · exact hblank
    · -- What is left over before the tail would make the rest too long.
      have hlength := congrArg List.length (h'.trans htext)
      have hskip := length_skipSpaces_le t
      have hpos := List.length_pos_of_ne_nil hne
      rw [List.length_append] at hlength
      omega
  | mended hlt =>
    have hskip := length_skipSpaces_le rest
    rw [hrest] at hskip
    omega

/-- An expression with a tail is read up to the tail. -/
lemma tower_of_parse (ht : Closed t) (hn : x.length < n) (h : parse (String.ofList x) = some e) :
    ∃ rest, tower (operand n) (x ++ t) = .done e rest ∧ skipSpaces rest = skipSpaces t := by
  obtain ⟨rest, hread, hblank⟩ := (parse_eq_some hn).1 h
  have hextends := tower_extends ht hn hn
  rw [hread] at hextends
  generalize tower (operand n) (x ++ t) = o at hextends ⊢
  cases hextends with
  | @done e _ rest' h' =>
    refine ⟨rest', rfl, ?_⟩
    rcases skipSpaces_append_cases rest t with ⟨-, htext⟩ | ⟨hne, -⟩
    · rw [h', htext]
    · exact absurd hblank hne

end ProcessEngine.Expression

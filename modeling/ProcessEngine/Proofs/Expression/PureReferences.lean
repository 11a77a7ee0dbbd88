import ProcessEngine.Expression.Source
import ProcessEngine.Proofs.Expression.Pieces

/-!
# Pure references

A text that is a reference and nothing else is looked up without the grammar.  The grammar reads such
a text, if it accepts it, as the path between the braces, or as a constant if a word that stands for
one is all there is (`expr_of_pureReference`).  So the two agree where there is a constant only if a
variable of that name happens to hold it (`shortcut_exact_iff`).
-/

namespace ProcessEngine.Expression

open ProcessEngine.Text ProcessEngine.Json

variable {c : Char} {cs rest body x y t u : List Char} {e : Expr} {n : Nat} {f : Step Expr}
  {head : String} {more more' p : List String} {source : String}

/-! ## Pure references as texts -/

/-- A path of a pure reference: its segments are made of letters, digits and underscores, and the
first one starts with no digit. -/
def IsDotted (head : String) (more : List String) : Prop :=
  IsIdentifier head ∧ ∀ s ∈ more, s.toList ≠ [] ∧ ∀ c ∈ s.toList, isWordChar c = true

lemma referenceSegments_taken (h : referenceSegments n cs = some (more, rest)) :
    (∀ s ∈ more, s.toList ≠ [] ∧ ∀ c ∈ s.toList, isWordChar c = true) ∧
      cs = pointed more ++ rest := by
  induction n generalizing cs more with
  | zero =>
    cases h
    exact ⟨nofun, rfl⟩
  | succ n ih =>
    rw [referenceSegments.eq_def] at h
    split at h
    · next m tail hm =>
      obtain rfl := Nat.succ.inj hm
      split at h
      · cases h
      · next s hne =>
        obtain ⟨⟨more, rest⟩, hmore, hpair⟩ := Option.map_eq_some_iff.1 h
        cases hpair
        obtain ⟨hwords, htail⟩ := ih hmore
        refine ⟨List.forall_mem_cons.2 ⟨?_, hwords⟩, ?_⟩
        · rw [String.toList_ofList]
          exact ⟨hne, fun c hc => List.mem_takeWhile_imp hc⟩
        · have hsplit := List.takeWhile_append_dropWhile (p := isWordChar) (l := tail)
          rw [htail] at hsplit
          conv_lhs => rw [← hsplit]
          simp [pointed]
    · cases h
      exact ⟨nofun, rfl⟩

lemma dropBlank_taken (cs : List Char) :
    ∃ gap, (∀ c ∈ gap, isBlank c = true) ∧ cs = gap ++ cs.dropWhile isBlank :=
  ⟨cs.takeWhile isBlank, fun _ hc => List.mem_takeWhile_imp hc,
    List.takeWhile_append_dropWhile.symm⟩

/-- A pure reference is a dotted path between braces, with white space inside and outside. -/
lemma pureReference?_eq_some (h : pureReference? source = some p) :
    ∃ head more front gap gap' back, p = head :: more ∧ IsDotted head more ∧
      (∀ c ∈ front, isBlank c = true) ∧ (∀ c ∈ gap, isBlank c = true) ∧
      (∀ c ∈ gap', isBlank c = true) ∧ (∀ c ∈ back, isBlank c = true) ∧
      source.toList =
        front ++ '$' :: '\x7b' :: (gap ++ (pathToken head more ++ gap') ++ '\x7d' :: back) := by
  rw [pureReference?] at h
  obtain ⟨front, hfront, hsource⟩ := dropBlank_taken source.toList
  split at h
  · next inside hopen =>
    obtain ⟨gap, hgap, hinside⟩ := dropBlank_taken inside
    split at h
    · next head tail hhead =>
      obtain ⟨hid, htoken⟩ := identifier_taken hhead
      split at h
      · next more behind hmore =>
        obtain ⟨hwords, rfl⟩ := referenceSegments_taken hmore
        obtain ⟨gap', hgap', hbehind⟩ := dropBlank_taken behind
        split at h
        · next back hclose =>
          split_ifs at h with hback
          cases h
          refine ⟨head, more, front, gap, gap', back, rfl, ⟨hid, hwords⟩, hfront, hgap, hgap',
            by simpa using hback, ?_⟩
          rw [hsource, hopen, hinside, htoken, hbehind, hclose]
          simp [pathToken, pointed]
        · cases h
      · cases h
    · cases h
  · cases h

/-! ## Expressions of a single operand -/

/-- Behind what was read there is no operator, or no operand behind it. -/
def Stuck (f : Step Expr) (rest : List Char) : Prop :=
  ∀ level ∈ levels, ∀ op more, operator level rest = some (op, more) → f more = .miss

lemma foldr_chain_eq (h : ∀ a rest, f cs ≠ .done a rest)
    (ls : List (List (Spelling × BinaryOp))) : ls.foldr chain f cs = f cs := by
  induction ls with
  | nil => rfl
  | cons level ls ih =>
    rw [List.foldr_cons, chain, ih]
    split
    · next a rest hread => exact absurd hread (h a rest)
    · rfl

/-- Where the reader is stuck behind an operand, it reads this operand and no more. -/
lemma tower_of_stuck (hread : f cs = .done e rest) (hstuck : Stuck f rest) :
    tower f cs = .done e rest ∨ tower f cs = .fault := by
  rw [tower]
  unfold Stuck at hstuck
  generalize levels = ls at hstuck ⊢
  induction ls with
  | nil => exact .inl hread
  | cons level ls ih =>
    obtain ⟨hlevel, hls⟩ := List.forall_mem_cons.1 hstuck
    rw [List.foldr_cons, chain]
    rcases ih hls with hrest | hrest
    · rw [hrest]
      dsimp only
      generalize rest.length = m
      cases hoperator : operator level rest with
      | none => exact .inl (chainFrom_calm hoperator _ _ _)
      | some found =>
        obtain ⟨op, more⟩ := found
        have hoperand := hlevel op more hoperator
        have hmiss : ls.foldr chain f more = f more := foldr_chain_eq (by simp [hoperand]) ls
        rw [hoperand] at hmiss
        cases m with
        | zero => exact .inl rfl
        | succ m =>
          right
          simp only [chainFrom, hoperator, hmiss]
    · rw [hrest]
      exact .inr rfl

/-- An expression that starts with an operand behind which the reader is stuck is this operand. -/
lemma eq_of_stuck (h : parse (String.ofList cs) = some e) (hn : cs.length < n) {a : Expr}
    (hread : operand n cs = .done a rest) (hstuck : Stuck (operand n) rest) :
    e = a ∧ skipSpaces rest = [] := by
  obtain ⟨rest', hparse, hrest'⟩ := (parse_eq_some hn).1 h
  rcases tower_of_stuck hread hstuck with htower | htower <;> rw [htower] at hparse
  · cases hparse
    exact ⟨rfl, hrest'⟩
  · cases hparse

/-- A text that is read as an expression starts with an operand. -/
lemma exists_operand_of_parse (h : parse (String.ofList cs) = some e) (hn : cs.length < n) :
    ∃ a rest, operand n cs = .done a rest := by
  obtain ⟨rest', hparse, -⟩ := (parse_eq_some hn).1 h
  by_contra hnone
  have hread : ∀ a rest, operand n cs ≠ .done a rest := fun a rest hread => hnone ⟨a, rest, hread⟩
  rw [tower, foldr_chain_eq hread] at hparse
  exact hread e rest' hparse

/-! ## References to expressions -/

/-- There is no operator where a text has ended. -/
lemma stuck_of_closed (ht : Closed t) (f : Step Expr) : Stuck f t := by
  intro level hlevel op more hoperator
  have hnone := operator_closed ht (wellSpelled_levels level hlevel) []
  rw [List.nil_append, hoperator, operator_eq] at hnone
  have hempty : spelled level (skipSpaces []) = none := spelled_nil (wellSpelled_levels level hlevel)
  rw [hempty] at hnone
  cases hnone

/-- White space in front of an expression may be dropped. -/
lemma parse_drop_front (hx : ∀ c ∈ x, isBlank c = true) (hhead : ∀ c ∈ cs.head?, isBlank c = false)
    (hne : cs ≠ []) (h : parse (String.ofList (x ++ cs)) = some e) :
    parse (String.ofList cs) = some e := by
  have hskip : skipSpaces (x ++ cs) = cs := by
    rw [← (skipSpaces_of_parse h).2, dropWhile_firm hx hne hhead]
  obtain ⟨rest, hread, hrest⟩ := (parse_eq_some (Nat.lt_succ_self _)).1 h
  rw [← (regular_operand _).tower.skips, hskip] at hread
  refine (parse_eq_some ?_).2 ⟨rest, hread, hrest⟩
  rw [List.length_append]
  omega

/-- What starts like a reference is read as one. -/
lemma enclosed_of_operand (h : operand (n + 1) ('$' :: '\x7b' :: cs) = .done e rest) :
    ∃ after, rest = skipSpaces after ∧ enclosed (tower (operand n)) '\x7d' cs = .done e after := by
  rw [operand_sign (by decide)] at h
  obtain ⟨after, rfl, halternative⟩ := primary_cases h
  have hskip : skipSpaces ('$' :: '\x7b' :: cs) = '$' :: '\x7b' :: cs := skipSpaces_cons (by decide)
  obtain ⟨hnumber, hstring, hconstant⟩ := @miss_of_bracket '$' ('\x7b' :: cs) (.inr rfl)
  rw [hskip] at halternative
  cases halternative with
  | number hm =>
    rw [hnumber] at hm
    cases hm
  | string hs =>
    rw [hstring] at hs
    cases hs
  | constant hc =>
    rw [hconstant] at hc
    cases hc
  | parentheses hcs => exact absurd (List.cons.inj hcs).1 (by decide)
  | path hpath =>
    obtain ⟨head, more, -, ⟨c, tail, hs, hc, -⟩, -, hcs⟩ := path_taken hpath
    rw [pathToken, hs] at hcs
    obtain ⟨rfl, -⟩ := List.cons.inj hcs
    exact absurd hc (by decide)
  | @reference _ tail _ hcs henclosed =>
    obtain rfl : cs = tail := by simpa using hcs
    exact ⟨after, rfl, henclosed⟩

/-- A text with one closing brace, and a reference at the front, is read as what stands between the
braces. -/
lemma parse_between_braces (hx : ∀ c ∈ x, isBlank c = true) (hy : ∀ c ∈ y, isBlank c = true)
    (hbody : '\x7d' ∉ body)
    (h : parse (String.ofList (x ++ '$' :: '\x7b' :: (body ++ '\x7d' :: y))) = some e) :
    parse (String.ofList body) = some e := by
  have hhead : ∀ c ∈ ('$' :: '\x7b' :: (body ++ '\x7d' :: y)).head?, isBlank c = false := by
    rintro c hc
    obtain rfl : '$' = c := by simpa using hc
    decide
  replace h := parse_drop_front hx hhead (List.cons_ne_nil _ _) h
  obtain ⟨a, rest, hread⟩ := exists_operand_of_parse h (Nat.lt_succ_self _)
  obtain ⟨after, rfl, henclosed⟩ := enclosed_of_operand hread
  obtain ⟨behind, hbehind, hbrace⟩ := enclosed_cases henclosed
  have htower := (regular_operand ('$' :: '\x7b' :: (body ++ '\x7d' :: y)).length).tower
  rw [htower.skips] at hbehind
  -- The brace that the reader came to is the only one.
  obtain ⟨z, hz⟩ := (hbrace ▸ skipSpaces_suffix behind).trans (htower.suffix hbehind)
  have hafter : after = y := by
    have hbraces : '\x7d' ∉ y := fun hmem => absurd (hy _ hmem) (by decide)
    exact ((List.append_cons_inj_of_notMem hbody hbraces).1 hz.symm).2.2.symm
  subst hafter
  have hclosed := closed_of_blank hy
  obtain ⟨rfl, -⟩ := eq_of_stuck h (Nat.lt_succ_self _) hread (stuck_of_closed hclosed.skip _)
  refine parse_of_tower (closed_brace after) ?_ hbehind ?_
  · simp only [List.length_cons, List.length_append]
    omega
  · rw [hbrace, skipSpaces_cons (by decide)]

/-! ## Dotted texts -/

lemma skipSpaces_of_isWordy (hcs : isWordy cs = true) : skipSpaces cs = cs := by
  cases cs with
  | nil => rfl
  | cons c cs =>
    rw [isWordy, List.all_cons, Bool.and_eq_true] at hcs
    rcases (Bool.or_eq_true _ _).mp hcs.1 with hword | hpoint
    · exact skipSpaces_cons (not_isSpace_of_isWordChar hword)
    · obtain rfl := beq_iff_eq.1 hpoint
      exact skipSpaces_cons (by decide)

/-- No operand starts with a point. -/
lemma operand_point (n : Nat) (cs : List Char) : operand n ('.' :: cs) = .miss := by
  cases n with
  | zero => rfl
  | succ n =>
    have hskip : skipSpaces ('.' :: cs) = '.' :: cs := skipSpaces_cons (by decide)
    have hnegation : negation? ('.' :: cs) = none := by
      rw [negation?_of_ne (head_ne_of_ne (by decide))]
      exact drop?_cons_of_ne (by decide)
    have hnumber : number ('.' :: cs) = .miss := number_miss (by decide)
    have hstring : stringLiteral ('.' :: cs) = .miss := stringLiteral_miss (by decide) (by decide)
    have hconstant : constant ('.' :: cs) = .miss := by
      simp [constant, constants, Spelling.word, Spelling.drop?, dropText]
    have hpath : path ('.' :: cs) = .miss := by
      have hstart : isWordStart '.' = false := by decide
      simp [path, identifier, hstart]
    simp [operand, primary, hskip, hnegation, hnumber, hstring, hconstant, hpath, Outcome.map,
      Outcome.orElse]

/-- No operand is left where a word has ended in a dotted text. -/
lemma operand_of_isWordy (hcs : isWordy cs = true) (hstops : ∀ c ∈ cs.head?, isWordChar c = false)
    (n : Nat) : operand n cs = .miss := by
  cases cs with
  | nil =>
    cases n with
    | zero => rfl
    | succ n => rfl
  | cons c cs =>
    rw [isWordy, List.all_cons, hstops c rfl, Bool.false_or, Bool.and_eq_true, beq_iff_eq] at hcs
    obtain ⟨rfl, -⟩ := hcs
    exact operand_point n cs

lemma isWordy_append : isWordy (x ++ y) = (isWordy x && isWordy y) := List.all_append

/-- In a dotted text an operator can be only a word, and nothing follows that it could be applied
to. -/
lemma stuck_of_isWordy (hrest : isWordy rest = true) (n : Nat) : Stuck (operand n) rest := by
  intro level hlevel op more hoperator
  obtain ⟨w, tail, hw, hdrop, rfl⟩ := operator_taken hoperator
  rw [skipSpaces_of_isWordy hrest] at hdrop
  have hsplit := drop?_taken hdrop
  rw [hsplit, isWordy_append, Bool.and_eq_true] at hrest
  have hword : w.isWord = true := by
    have hall : ∀ level ∈ levels, ∀ w ∈ level, isWordy w.1.chars = true → w.1.isWord = true := by
      decide
    exact hall level hlevel _ hw hrest.1
  rw [skipSpaces_of_isWordy hrest.2]
  exact operand_of_isWordy hrest.2 (drop?_word_stops hword hdrop) n

lemma isWordy_pointed (hmore : ∀ s ∈ more, s.toList ≠ [] ∧ ∀ c ∈ s.toList, isWordChar c = true) :
    isWordy (pointed more) = true := by
  induction more with
  | nil => rfl
  | cons s more ih =>
    obtain ⟨⟨-, hs⟩, hmore⟩ := List.forall_mem_cons.1 hmore
    have htext : pointed (s :: more) = '.' :: (s.toList ++ pointed more) := by simp [pointed]
    have hword : isWordy s.toList = true := by
      rw [isWordy, List.all_eq_true]
      exact fun c hc => by simp [hs c hc]
    rw [htext, isWordy, List.all_cons, ← isWordy, isWordy_append, hword, ih hmore]
    rfl

lemma IsDotted.isWordy (h : IsDotted head more) : isWordy (pathToken head more) = true := by
  rw [pathToken, ← pointed, isWordy_append, isWordy_pointed h.2, Bool.and_true, Expression.isWordy,
    List.all_eq_true]
  exact fun c hc => by simp [h.1.isWordChar c hc]

lemma pointed_stops (more : List String) : ∀ c ∈ (pointed more).head?, isWordChar c = false := by
  have hstops : Stops [] := nofun
  have h := not_wordChar_pointed more hstops
  rwa [List.append_nil] at h

/-- No operator stands in front of a dotted text: the word that negates an operand has none here. -/
lemma operand_dotted (h : IsDotted head more) (n : Nat) :
    operand (n + 1) (pathToken head more) =
      primary (tower (operand n)) (pathToken head more) := by
  have hne : head.toList ≠ [] := h.1.ne_nil
  by_cases hnot : head.toList = "not".toList
  · have hnegation := negation?_word hne h.1.isWordChar (pointed_stops more)
    have hmiss := operand_of_isWordy (isWordy_pointed h.2) (pointed_stops more) n
    have hskip := skipSpaces_of_isWordy h.isWordy
    rw [if_pos hnot] at hnegation
    rw [pathToken, ← pointed] at hskip ⊢
    rw [hnot] at hnegation hskip ⊢
    rw [operand_succ, hskip, prefixed.eq_def, hnegation]
    simp only [hmiss]
    rfl
  · rw [pathToken, ← pointed]
    exact operand_word hne h.1.isWordChar (pointed_stops more) hnot n

/-- A word ends where no word goes on. -/
lemma word_unique (hx : ∀ c ∈ x, isWordChar c = true) (hy : ∀ c ∈ y, isWordChar c = true)
    (ht : ∀ c ∈ t.head?, isWordChar c = false) (hu : ∀ c ∈ u.head?, isWordChar c = false)
    (h : x ++ t = y ++ u) : x = y ∧ t = u := by
  obtain ⟨htake, hdrop⟩ := span_append hx ht
  obtain ⟨htake', hdrop'⟩ := span_append hy hu
  rw [h] at htake hdrop
  exact ⟨htake.symm.trans htake', hdrop.symm.trans hdrop'⟩

lemma pointed_injective (hmore : ∀ s ∈ more, ∀ c ∈ s.toList, isWordChar c = true)
    (hmore' : ∀ s ∈ more', ∀ c ∈ s.toList, isWordChar c = true)
    (h : pointed more = pointed more') : more = more' := by
  induction more generalizing more' with
  | nil =>
    cases more' with
    | nil => rfl
    | cons s more' => simp [pointed] at h
  | cons s more ih =>
    cases more' with
    | nil => simp [pointed] at h
    | cons s' more' =>
      obtain ⟨hs, hmore⟩ := List.forall_mem_cons.1 hmore
      obtain ⟨hs', hmore'⟩ := List.forall_mem_cons.1 hmore'
      have htext : s.toList ++ pointed more = s'.toList ++ pointed more' := by
        simpa [pointed] using h
      obtain ⟨hword, hrest⟩ := word_unique hs hs' (pointed_stops more) (pointed_stops more') htext
      rw [String.toList_injective hword, ih hmore hmore' hrest]

/-! ## What a pure reference stands for -/

/-- The constant that is written like a path. -/
def constantOf? (p : List String) : Option Value :=
  if p = ["true"] then some (.bool true)
  else if p = ["false"] then some (.bool false)
  else if p = ["null"] then some .null
  else none

/-- The expression that a path is read as, where there is nothing else. -/
def exprOf (p : List String) : Expr :=
  match constantOf? p with
  | some v => .literal v
  | none => .path p

lemma constantOf?_cons_cons (s t : String) (more : List String) :
    constantOf? (s :: t :: more) = none := by simp [constantOf?]

/-- Only the first word of a dotted text could be a constant. -/
lemma constant_dotted (h : IsDotted head more) : constant (pathToken head more) =
    match constantOf? [head] with
    | some v => .done (.literal v) (pointed more)
    | none => .miss := by
  rw [pathToken, ← pointed, constant_word h.1.isWordChar (pointed_stops more)]
  simp only [constantOf?, List.cons.injEq, and_true, String.toList_inj]
  split_ifs <;> rfl

/-- A dotted text starts with a constant, or else with a path. -/
lemma operand_dotted_done (hd : IsDotted head more) (n : Nat)
    (h : constant (pathToken head more) = .done e rest ∨
      constant (pathToken head more) = .miss ∧ path (pathToken head more) = .done e rest) :
    operand (n + 1) (pathToken head more) = .done e (skipSpaces rest) := by
  obtain ⟨c, tail, hs, hc, -⟩ := id hd.1
  have htext : pathToken head more = c :: (tail ++ pointed more) := by
    rw [pathToken, ← pointed, hs, List.cons_append]
  rw [operand_dotted hd]
  rw [htext] at h ⊢
  exact primary_word _ hc h

/-- A dotted text that is read as an expression is read as its path, or as a constant. -/
lemma expr_of_dotted (hd : IsDotted head more)
    (h : parse (String.ofList (pathToken head more)) = some e) : e = exprOf (head :: more) := by
  have hwordy := isWordy_pointed hd.2
  have hconstant := constant_dotted hd
  cases hv : constantOf? [head] with
  | some v =>
    rw [hv] at hconstant
    have hread := operand_dotted_done hd (pathToken head more).length (.inl hconstant)
    rw [skipSpaces_of_isWordy hwordy] at hread
    obtain ⟨rfl, hend⟩ := eq_of_stuck h (Nat.lt_succ_self _) hread (stuck_of_isWordy hwordy _)
    rw [skipSpaces_of_isWordy hwordy] at hend
    obtain rfl : more = [] := pointed_injective (fun s hs => (hd.2 s hs).2) nofun hend
    rw [exprOf, hv]
  | none =>
    rw [hv] at hconstant
    obtain ⟨more', rest, hsegments⟩ : ∃ more' rest,
        segments (pointed more).length (pointed more) = (more', rest) := ⟨_, _, rfl⟩
    have hpath : path (pathToken head more) = .done (.path (head :: more')) rest := by
      rw [pathToken, ← pointed, path, identifier_append hd.1 (pointed_stops more)]
      simp only [hsegments]
    have hread := operand_dotted_done hd (pathToken head more).length (.inr ⟨hconstant, hpath⟩)
    obtain ⟨hmore', hsplit⟩ := segments_taken hsegments
    have hrest : isWordy rest = true := by
      rw [hsplit, isWordy_append, Bool.and_eq_true] at hwordy
      exact hwordy.2
    rw [skipSpaces_of_isWordy hrest] at hread
    obtain ⟨rfl, hend⟩ := eq_of_stuck h (Nat.lt_succ_self _) hread (stuck_of_isWordy hrest _)
    rw [skipSpaces_of_isWordy hrest] at hend
    rw [hend, List.append_nil] at hsplit
    obtain rfl := pointed_injective (fun s hs => (hd.2 s hs).2)
      (fun s hs => isSegment_chars (hmore' s hs)) hsplit
    have hnone : constantOf? (head :: more) = none := by
      cases more with
      | nil => exact hv
      | cons s more => exact constantOf?_cons_cons head s more
    rw [exprOf, hnone]

/-- A pure reference that the grammar accepts is read as its path, or as a constant. -/
lemma expr_of_pureReference (hpure : pureReference? source = some p)
    (hparse : parse source = some e) : e = exprOf p := by
  obtain ⟨head, more, front, gap, gap', back, rfl, hd, hfront, hgap, hgap', hback, htext⟩ :=
    pureReference?_eq_some hpure
  have hbrace : ∀ {gap : List Char}, (∀ c ∈ gap, isBlank c = true) → '\x7d' ∉ gap :=
    fun hgap hmem => absurd (hgap _ hmem) (by decide)
  have hwordy := hd.isWordy
  have hbody : '\x7d' ∉ gap ++ (pathToken head more ++ gap') := by
    rw [isWordy, List.all_eq_true] at hwordy
    simp only [List.mem_append, not_or]
    exact ⟨hbrace hgap, fun hmem => absurd (hwordy _ hmem) (by decide), hbrace hgap'⟩
  rw [← String.ofList_toList (s := source), htext] at hparse
  have hinside := parse_between_braces hfront hback hbody hparse
  have hfirm : Firm (pathToken head more) := firm_of_isWordy (pathToken_ne_nil hd.1 more) hwordy
  have htrimmed := (parse_trimChars hinside).2
  rw [trimChars_framed hgap hgap' hfirm] at htrimmed
  exact expr_of_dotted hd htrimmed

/-- **Pure references.** A pure reference that the grammar accepts is evaluated as the expression that
it is read as, just if its path is no word for a constant, or the variable of that name holds this
constant. -/
theorem shortcut_exact_iff (hpure : pureReference? source = some p)
    (hparse : parse source = some e) (vars : Variables) :
    evaluateSource source vars = evaluate vars e ↔
      ∀ v, constantOf? p = some v → Variables.lookup vars p = some v := by
  obtain rfl := expr_of_pureReference hpure hparse
  rw [evaluateSource, hpure, exprOf]
  cases hv : constantOf? p with
  | none => simp [evaluate]
  | some v => simp [evaluate]

/-- A path with white space around it is looked up, and evaluated, alike. -/
theorem shortcut_exact_iff_total :
    pureReference? " $\x7b order.total\x7d " = some ["order", "total"] ∧
    parse " $\x7b order.total\x7d " = some (.path ["order", "total"]) ∧
    ∀ vars, evaluateSource " $\x7b order.total\x7d " vars =
      evaluate vars (.path ["order", "total"]) := by
  have hpure : pureReference? " $\x7b order.total\x7d " = some ["order", "total"] := by
    decide +kernel
  have hparse : parse " $\x7b order.total\x7d " = some (.path ["order", "total"]) := by cbv
  have hnone : constantOf? ["order", "total"] = none := rfl
  refine ⟨hpure, hparse, fun vars => (shortcut_exact_iff hpure hparse vars).2 fun v hv => ?_⟩
  rw [hnone] at hv
  cases hv

/-- The word for a constant is looked up as a variable, and there is none of this name; the grammar
reads the constant. -/
theorem constant_looked_up : pureReference? "$\x7btrue\x7d" = some ["true"] ∧
    ∃ e, parse "$\x7btrue\x7d" = some e ∧
      evaluateSource "$\x7btrue\x7d" [] = .ok none ∧ evaluate [] e = .ok (some (.bool true)) :=
  ⟨by decide +kernel, .literal (.bool true), by cbv, by cbv, by cbv⟩

end ProcessEngine.Expression

import ProcessEngine.Proofs.Expression.Operands
import ProcessEngine.Proofs.Expression.Spacing

/-!
# Reading expressions back

The reader takes any rendering of an expression back to the expression (`parse_renders`).  The proof
is by induction on how the expression is written.  At a level of the grammar a written expression is
read up to where it ends, if no operator of this level or of a tighter one comes next (`Reads`).
Since the reader goes along the operators of one level from left to right, a left operand is not read
apart from what follows it; what is shown of it is that the reader comes to go on from it as the
operand on the left (`Chains`).
-/

namespace ProcessEngine.Expression

open ProcessEngine.Text ProcessEngine.Json

variable {e left right : Expr} {k : Nat} {t : Token} {ts us : List Token}

/-! ## Written expressions -/

/-- Where an expression is written in a text, and no operator of a level or of a tighter one comes
next, it is read up to where it ends, with the white space behind it. -/
def Reads (k : Nat) (e : Expr) (ts : List Token) : Prop :=
  ∀ ⦃n wordy text rest⦄, Spaced wordy ts text → text.length < n →
    (endsWordy wordy ts = true → Stops rest) → Calm k rest →
    readAt k n (text ++ rest) = .done e (skipSpaces rest)

/-- Where an expression is written in a text, and no operator that binds more tightly comes next, the
reader goes on from there with the expression as the left operand.  The number of operators that it
may still read is large enough for what follows. -/
def Chains (k : Nat) (e : Expr) (ts : List Token) : Prop :=
  ∀ ⦃n wordy text rest⦄, Spaced wordy ts text → text.length < n →
    (endsWordy wordy ts = true → Stops rest) → Calm (k + 1) rest →
    ∃ m, (skipSpaces rest).length ≤ m ∧ readAt k n (text ++ rest) =
      chainFrom (levelAt k) (readAt (k + 1) n) m e (skipSpaces rest)

lemma Chains.reads (h : Chains k e ts) : Reads k e ts := by
  intro n wordy text rest hspaced hn hstops hcalm
  obtain ⟨m, -, hread⟩ := h hspaced hn hstops (hcalm.mono (Nat.le_succ k))
  have hnone : operator (levelAt k) (skipSpaces rest) = none := by
    rw [operator_skipSpaces]
    exact hcalm k le_rfl
  rw [hread, chainFrom_calm hnone]

/-- An expression is the first operand of a chain. -/
lemma Reads.chains (h : Reads (k + 1) e ts) (hk : k < 6) : Chains k e ts := by
  intro n wordy text rest hspaced hn hstops hcalm
  refine ⟨_, le_rfl, ?_⟩
  simp only [readAt_of_lt hk, chain, h hspaced hn hstops hcalm]

/-- A chain goes on with an operator and its right operand. -/
lemma Chains.binary {op : BinaryOp} {s : String} (hs : s ∈ op.spellings)
    (hleft : Chains op.level left ts) (hright : Reads (op.level + 1) right us)
    (hus : Writes (op.level + 1) right us) :
    Chains op.level (.binary op left right) (ts ++ s.toList :: us) := by
  intro n wordy text rest hspaced hn hstops hcalm
  obtain ⟨x, y, rfl, hx, hy⟩ := hspaced.append
  rw [endsWordy_append] at hstops
  have hs' := isToken_binary op s hs
  obtain ⟨htokens, t, vs, rfl, hequals⟩ := hus.tokens
  have ht : IsToken t := htokens t List.mem_cons_self
  have hbehind : endsWordy wordy ts = true → Stops (y ++ rest) := hy.stops hs'
  cases hy with
  | @cons _ gap _ _ z hgap _ hz =>
    have hy : gap ++ s.toList ++ z ++ rest = gap ++ (s.toList ++ (z ++ rest)) := by simp
    rw [hy] at hbehind
    rw [List.length_append, List.length_append, List.length_append] at hn
    obtain ⟨m, hm, hread⟩ := hleft (n := n) hx (by omega) hbehind (calm_operator hs hgap)
    -- The reader stands at the operator now, and may read one more.
    rw [skipSpaces_token hs' hgap] at hm hread
    have hlength : (skipSpaces rest).length < m := by
      have hspelled := List.length_pos_of_ne_nil hs'.1
      have := length_skipSpaces_le rest
      rw [List.length_append, List.length_append] at hm
      omega
    obtain ⟨m, rfl⟩ : ∃ l, m = l + 1 := Nat.exists_eq_succ_of_ne_zero (by omega)
    have hoperator : operator (levelAt op.level) (s.toList ++ (z ++ rest)) =
        some (op, skipSpaces (z ++ rest)) :=
      operator_spelling hs (hz.head_ne ht hequals) fun hwordy => (hz.stops ht hwordy).not_wordChar
    have hoperand : readAt (op.level + 1) n (skipSpaces (z ++ rest)) =
        .done right (skipSpaces rest) := by
      rw [readAt_skipSpaces]
      exact hright hz (by omega) hstops hcalm
    refine ⟨m, Nat.le_of_lt_succ hlength, ?_⟩
    rw [List.append_assoc, hy, hread, chainFrom_operator hoperator hoperand]

/-! ### Operands -/

/-- White space and operators do not come into how the first token of an operand is read. -/
lemma reads_of_operand (h : ∀ ⦃n text rest⦄, Spaced (isWordy t) ts text → text.length < n →
      (endsWordy (isWordy t) ts = true → Stops rest) →
      operand (n + 1) (t ++ (text ++ rest)) = .done e (skipSpaces rest)) (ht : t ≠ []) :
    Reads 6 e (t :: ts) := by
  intro n wordy text rest hspaced hn hstops _
  cases hspaced with
  | @cons _ gap _ _ later hgap hapart hlater =>
    have hlength := List.length_pos_of_ne_nil ht
    rw [List.length_append, List.length_append] at hn
    obtain ⟨n, rfl⟩ : ∃ m, n = m + 1 := Nat.exists_eq_succ_of_ne_zero (by omega)
    rw [List.append_assoc, List.append_assoc, readAt_append hgap, readAt_of_ge le_rfl]
    exact h hlater (by omega) hstops

/-- An expression of one token is read if the token is. -/
lemma reads_token (h : ∀ ⦃n rest⦄, (isWordy t = true → Stops rest) →
      operand (n + 1) (t ++ rest) = .done e (skipSpaces rest)) (ht : t ≠ []) : Reads 6 e [t] := by
  refine reads_of_operand (fun n text rest hspaced _ hstops => ?_) ht
  cases hspaced
  exact h hstops

lemma reads_number {ds : List Char} (hds : IsNumeral ds) (hfits : decimalValue ds < 9223372036854775808) :
    Reads 6 (.literal (.number (.int (decimalValue ds)))) [ds] := by
  have hword : ∀ c ∈ ds, isWordChar c = true := fun c hc => isWordChar_of_isDigit (hds.2 c hc)
  have hnot : ds ≠ "not".toList := by
    rintro rfl
    exact absurd (hds.2 'n' (by decide)) (by decide)
  refine reads_token (fun n rest hstops => ?_) hds.1
  have hrest := hstops (isWordy_numeral hds)
  rw [operand_word hds.1 hword hrest.not_wordChar hnot, primary_number _ hds hfits hrest]

lemma reads_string {quote : Char} (hquote : quote = '"' ∨ quote = '\'') (s : String) :
    Reads 6 (.literal (.string s)) [quotedToken quote s] := by
  refine reads_token (fun n rest _ => ?_) (List.cons_ne_nil _ _)
  have hread : operand (n + 1) (quotedToken quote s ++ rest) =
      primary (tower (operand n)) (quotedToken quote s ++ rest) := operand_sign (by tauto) n
  rw [hread, primary_string _ hquote]

/-- A word for a constant is read as the constant. -/
lemma reads_constant {word : Token} {v : Value} (hc : word.head?.any isWordStart = true)
    (hword : ∀ c ∈ word, isWordChar c = true) (hnot : word ≠ "not".toList)
    (h : ∀ rest, (∀ c ∈ rest.head?, isWordChar c = false) →
      constant (word ++ rest) = .done (.literal v) rest) : Reads 6 (.literal v) [word] := by
  cases word with
  | nil => cases hc
  | cons c tail =>
    have hwordy : isWordy (c :: tail) = true := by
      rw [isWordy, List.all_eq_true]
      exact fun d hd => by simp [hword d hd]
    refine reads_token (fun n rest hstops => ?_) (List.cons_ne_nil _ _)
    have hrest := (hstops hwordy).not_wordChar
    rw [operand_word (List.cons_ne_nil _ _) hword hrest hnot]
    exact primary_word _ hc (.inl (h rest hrest))

lemma reads_path {head : String} {more : List String} (hhead : IsIdentifier head)
    (hfree : head ∉ reserved) (hmore : ∀ s ∈ more, IsIdentifier s ∨ IsNumeral s.toList) :
    Reads 6 (.path (head :: more)) [pathToken head more] := by
  obtain ⟨c, tail, hs, hc, -⟩ := id hhead
  have hne : head.toList ≠ [] := by
    rw [hs]
    exact List.cons_ne_nil _ _
  have hother : ∀ w ∈ reserved, head.toList ≠ w.toList := by
    intro w hw heq
    rw [String.toList_injective heq] at hfree
    exact hfree hw
  refine reads_token (fun n rest hstops => ?_) (List.append_ne_nil_of_left_ne_nil hne _)
  have hrest := hstops (isWordy_pathToken hhead hmore)
  have hbehind := not_wordChar_pointed more hrest
  have hread := path_append hhead hmore hrest
  have hconstant := constant_word hhead.isWordChar hbehind
  rw [if_neg (hother _ (by decide)), if_neg (hother _ (by decide)),
    if_neg (hother _ (by decide))] at hconstant
  rw [pathToken, ← pointed, List.append_assoc] at hread ⊢
  rw [operand_word hne hhead.isWordChar hbehind (hother _ (by decide))]
  rw [hs, List.cons_append] at hread hconstant ⊢
  exact primary_word _ hc (.inr ⟨hconstant, hread⟩)

lemma reads_unary {op : UnaryOp} {s : String} (hs : s ∈ op.spellings) (h : Reads 6 e ts)
    (hts : Writes 6 e ts) : Reads 6 (.unary op e) (s.toList :: ts) := by
  obtain ⟨htokens, t, us, rfl, hequals⟩ := hts.tokens
  have ht : IsToken t := htokens t List.mem_cons_self
  refine reads_of_operand (fun n text rest hspaced hn hstops => ?_)
    (isToken_unary op s hs).1.1
  have hread := h hspaced hn hstops (calm_operand rest)
  rw [readAt_of_ge le_rfl] at hread
  cases op with
  | not =>
    rcases List.mem_pair.1 hs with rfl | rfl
    · exact operand_not (hspaced.head_ne ht hequals) hread
    · exact operand_notWord (hspaced.stops ht rfl) hread
  | neg =>
    obtain rfl := List.mem_singleton.1 hs
    exact operand_neg hread

lemma reads_brackets {opening : Token} {closing : Char} (hpair : IsBracketPair opening closing)
    (h : Reads 0 e ts) : Reads 6 e (opening :: ts ++ [[closing]]) := by
  have hopening : opening ≠ [] ∧ isWordy opening = false := by
    rcases hpair with ⟨rfl, -⟩ | ⟨rfl, -⟩ <;> decide
  have hclosing : closing = ')' ∨ closing = '\x7d' := by
    rcases hpair with ⟨-, rfl⟩ | ⟨-, rfl⟩
    · exact .inl rfl
    · exact .inr rfl
  rw [List.cons_append]
  refine reads_of_operand (fun n text rest hspaced hn _ => ?_) hopening.1
  rw [hopening.2] at hspaced
  obtain ⟨x, y, rfl, hx, hy⟩ := hspaced.append
  cases hy with
  | @cons _ gap _ _ later hgap _ hlater =>
    cases hlater
    have hstops : Stops (gap ++ closing :: rest) := by
      refine .append hgap ?_
      rcases hclosing with rfl | rfl <;> exact .cons (by decide) (by decide)
    have hspace : isSpace closing = false := by rcases hclosing with rfl | rfl <;> decide
    have hread := h hx (n := n) (by rw [List.length_append] at hn; omega) (fun _ => hstops)
      (calm_closing hgap hclosing)
    have htext : x ++ (gap ++ [closing] ++ []) ++ rest = x ++ (gap ++ closing :: rest) := by simp
    rw [htext]
    exact operand_enclosed hpair hspace hgap hread

/-! ### Expressions -/

/-- Every written expression is read, by induction on how it is written. -/
lemma Writes.reads (h : Writes k e ts) : Reads k e ts ∧ (k < 6 → Chains k e ts) := by
  have hsix : ∀ {e : Expr} {ts : List Token}, Reads 6 e ts →
      Reads 6 e ts ∧ (6 < 6 → Chains 6 e ts) := fun h => ⟨h, fun hlt => absurd hlt (lt_irrefl 6)⟩
  induction h with
  | number hds hfits => exact hsix (reads_number hds hfits)
  | string s hquote => exact hsix (reads_string hquote s)
  | true | false | null =>
    refine hsix (reads_constant (by decide) (by decide) (by decide) fun rest hrest => ?_)
    rw [constant_word (by decide) hrest]
    rfl
  | path hhead hfree hmore => exact hsix (reads_path hhead hfree hmore)
  | unary hs harg ih => exact hsix (reads_unary hs ih.1 harg)
  | @binary op s left right ts us hs hleft hright ihleft ihright =>
    have hchains := (ihleft.2 op.level_lt).binary hs ihright.1 hright
    exact ⟨hchains.reads, fun _ => hchains⟩
  | parentheses _ ih => exact hsix (reads_brackets (.inl ⟨rfl, rfl⟩) ih.1)
  | braces _ ih => exact hsix (reads_brackets (.inr ⟨rfl, rfl⟩) ih.1)
  | @tighter k e ts _ ih =>
    rcases Nat.lt_or_ge k 6 with hk | hk
    · have hchains := ih.1.chains hk
      exact ⟨hchains.reads, fun _ => hchains⟩
    · refine ⟨?_, fun hlt => absurd hlt (by omega)⟩
      intro n wordy text rest hspaced hn hstops hcalm
      rw [readAt_of_ge hk, ← readAt_of_ge (Nat.le_succ_of_le hk)]
      exact ih.1 hspaced hn hstops (hcalm.mono (Nat.le_succ k))

/-- **Reading back.** Every plain expression can be rendered, and each of its renderings, with any
spellings, brackets and white space, is read as this expression. -/
theorem parse_renders (h : Plain e) :
    (∃ source, Renders e source) ∧ ∀ source, Renders e source → parse source = some e := by
  refine ⟨plain_iff_renders.1 h, ?_⟩
  rintro source ⟨ts, text, gap, hts, hspaced, hgap, hsource⟩
  obtain ⟨htokens, t, us, rfl, -⟩ := hts.tokens
  cases hspaced with
  | @cons _ front _ _ later hfront _ hlater =>
    have hskip : skipSpaces source.toList = (t ++ later) ++ gap := by
      rw [hsource, List.append_assoc, List.append_assoc,
        skipSpaces_token (htokens t List.mem_cons_self) hfront, List.append_assoc]
    have hstops : Stops (gap ++ []) := .append hgap nofun
    rw [List.append_nil] at hstops
    have hblank : skipSpaces gap = [] := List.dropWhile_eq_nil_iff.2 hgap
    have hread := hts.reads.1 (hlater.tight (.inl rfl))
      (n := ((t ++ later) ++ gap).length + 1)
      (Nat.lt_succ_of_le (by simp)) (fun _ => hstops) (calm_blank hgap)
    rw [readAt, List.drop_zero, ← tower] at hread
    unfold parse
    extract_lets cs
    have hcs : cs = (t ++ later) ++ gap := hskip
    rw [hcs, hread]
    simp only [hblank]
    rfl

/-- A chain goes on to the left, and neither a negation nor a bracket takes more than its operand. -/
theorem parse_renders_chain :
    Renders (.binary .le (.binary .sub (.binary .sub (.unary .not (.path ["a", "0"]))
      (.literal (.number (.int 1)))) (.literal (.number (.int 2)))) (.literal (.string "b")))
      "not a.0-1 -2<=$\x7b 'b'\x7d" ∧
    parse "not a.0-1 -2<=$\x7b 'b'\x7d" =
      some (.binary .le (.binary .sub (.binary .sub (.unary .not (.path ["a", "0"]))
        (.literal (.number (.int 1)))) (.literal (.number (.int 2)))) (.literal (.string "b"))) := by
  have ha : Writes 6 (.path ["a", "0"]) ["a.0".toList] :=
    .path ⟨'a', [], by decide, by decide, nofun⟩ (by decide)
      (List.forall_mem_singleton.2 (.inr ⟨by decide, by decide⟩))
  have hone : Writes 5 (.literal (.number (.int 1))) [['1']] :=
    .tighter (@Writes.number ['1'] ⟨by decide, by decide⟩ (by decide))
  have htwo : Writes 5 (.literal (.number (.int 2))) [['2']] :=
    .tighter (@Writes.number ['2'] ⟨by decide, by decide⟩ (by decide))
  have hb : Writes 6 (.literal (.string "b")) [['\'', 'b', '\'']] := .string "b" (.inr rfl)
  have hnot : Writes 4 (.unary .not (.path ["a", "0"])) ["not".toList, "a.0".toList] :=
    .tighter (.tighter (.unary (by decide) ha))
  have hfirst : Writes 4 (.binary .sub (.unary .not (.path ["a", "0"]))
      (.literal (.number (.int 1)))) ["not".toList, "a.0".toList, ['-'], ['1']] :=
    @Writes.binary .sub "-" _ _ _ _ (by decide) hnot hone
  have hchain : Writes 4 (.binary .sub (.binary .sub (.unary .not (.path ["a", "0"]))
      (.literal (.number (.int 1)))) (.literal (.number (.int 2))))
      ["not".toList, "a.0".toList, ['-'], ['1'], ['-'], ['2']] :=
    @Writes.binary .sub "-" _ _ _ _ (by decide) hfirst htwo
  have hbraces : Writes 4 (.literal (.string "b")) [['$', '\x7b'], ['\'', 'b', '\''], ['\x7d']] :=
    .mono (.braces (hb.mono (by decide))) (by decide)
  have hwritten := (@Writes.binary .le "<=" _ _ _ _ (by decide) (.tighter hchain) hbraces).mono
    (Nat.zero_le _)
  have hspaced : Spaced false ["not".toList, "a.0".toList, ['-'], ['1'], ['-'], ['2'], "<=".toList,
      ['$', '\x7b'], ['\'', 'b', '\''], ['\x7d']] _ :=
    .tight (by decide) <| .apart <| .tight (by decide) <| .tight (by decide) <| .apart <|
    .tight (by decide) <| .tight (by decide) <| .tight (by decide) <| .apart <|
    .tight (by decide) <| .nil _
  have hrenders : Renders _ "not a.0-1 -2<=$\x7b 'b'\x7d" :=
    ⟨_, _, [], hwritten, hspaced, nofun, by decide⟩
  exact ⟨hrenders, (parse_renders hwritten.plain).2 _ hrenders⟩

end ProcessEngine.Expression

import ProcessEngine.Proofs.Expression.Tokens

/-!
# Tokens in a row

How the tokens of an expression follow one another: a text of tokens is split where the tokens are,
a wordy token is followed by no character that would go on with it, and no expression starts with the
sign of equality, so that no operator is taken for a longer one.
-/

namespace ProcessEngine.Expression

open ProcessEngine.Text ProcessEngine.Json

variable {c : Char} {cs rest text : List Char} {e : Expr} {k : Nat} {t : Token}
  {ts us : List Token} {wordy : Bool}

/-! ## Spaced tokens -/

/-- Whether the last of some tokens is wordy, behind a token that is wordy or not. -/
def endsWordy (wordy : Bool) (ts : List Token) : Bool := ts.foldl (fun _ t => isWordy t) wordy

lemma endsWordy_append (wordy : Bool) (ts us : List Token) :
    endsWordy wordy (ts ++ us) = endsWordy (endsWordy wordy ts) us := List.foldl_append

lemma Spaced.append (h : Spaced wordy (ts ++ us) text) :
    ∃ x y, text = x ++ y ∧ Spaced wordy ts x ∧ Spaced (endsWordy wordy ts) us y := by
  induction ts generalizing wordy text with
  | nil => exact ⟨[], text, rfl, .nil wordy, h⟩
  | cons t ts ih =>
    cases h with
    | @cons _ gap _ _ later hgap hapart hlater =>
      obtain ⟨x, y, rfl, hx, hy⟩ := ih hlater
      exact ⟨gap ++ t ++ x, y, by simp, .cons hgap hapart hx, hy⟩

/-- No word goes on in a text of tokens behind a wordy one. -/
lemma Spaced.stops (h : Spaced wordy (t :: ts) text) (ht : IsToken t) (hbehind : wordy = true) :
    Stops (text ++ rest) := by
  obtain ⟨hne, hhead⟩ := ht
  obtain ⟨c, tail, rfl⟩ := List.exists_cons_of_ne_nil hne
  cases h with
  | @cons _ gap _ _ later hgap hapart =>
    cases gap with
    | cons d gap => exact .of_isSpace (hgap d List.mem_cons_self)
    | nil =>
      have hwordy : isWordy (c :: tail) = false := by
        by_contra hwordy
        exact hapart hbehind (by simpa using hwordy) rfl
      obtain ⟨hc, hpoint⟩ := (hhead c rfl).2 hwordy
      exact .cons hc hpoint

/-- The text of an expression does not start with the sign of equality. -/
lemma Spaced.head_ne (h : Spaced wordy (t :: ts) text) (ht : IsToken t)
    (hequals : ∀ c ∈ t.head?, c ≠ '=') : ∀ c ∈ (text ++ rest).head?, c ≠ '=' := by
  obtain ⟨c, tail, rfl⟩ := List.exists_cons_of_ne_nil ht.1
  cases h with
  | @cons _ gap _ _ later hgap hapart =>
    intro d hd
    cases gap with
    | cons b gap =>
      obtain rfl : b = d := by simpa using hd
      rintro rfl
      exact absurd (hgap '=' List.mem_cons_self) (by decide)
    | nil =>
      obtain rfl : c = d := by simpa using hd
      exact hequals c rfl

/-! ## Tokens of expressions -/

lemma isToken_unary (op : UnaryOp) :
    ∀ s ∈ op.spellings, IsToken s.toList ∧ ∀ c ∈ s.toList.head?, c ≠ '=' := by
  cases op <;> decide

/-- A token of characters of words and points that starts with one of words. -/
lemma isToken_of_wordy (hc : isWordChar c = true) (h : isWordy (c :: cs) = true) :
    IsToken (c :: cs) ∧ ∀ d ∈ (c :: cs).head?, d ≠ '=' := by
  refine ⟨⟨List.cons_ne_nil _ _, ?_⟩, ?_⟩ <;> rintro d hd <;>
    obtain rfl : c = d := by simpa using hd
  · exact ⟨not_isSpace_of_isWordChar hc, fun hsigns => absurd h (by simp [hsigns])⟩
  · rintro rfl
    exact absurd hc (by decide)

lemma isWordy_numeral {ds : List Char} (h : IsNumeral ds) : isWordy ds = true := by
  rw [isWordy, List.all_eq_true]
  exact fun c hc => by simp [isWordChar_of_isDigit (h.2 c hc)]

lemma isWordy_pathToken {head : String} {more : List String} (hhead : IsIdentifier head)
    (hmore : ∀ s ∈ more, IsIdentifier s ∨ IsNumeral s.toList) :
    isWordy (pathToken head more) = true := by
  rw [isWordy, List.all_eq_true]
  intro c hc
  rcases List.mem_append.1 hc with hc | hc
  · simp [hhead.isWordChar c hc]
  · obtain ⟨s, hs, hc⟩ := List.mem_flatMap.1 hc
    rcases List.mem_cons.1 hc with rfl | hc
    · simp
    · rcases hmore s hs with hid | hnum
      · simp [hid.isWordChar c hc]
      · simp [isWordChar_of_isDigit (hnum.2 c hc)]

/-- What an expression is written with are tokens, the first of which does not start with the sign
of equality. -/
lemma Writes.tokens (h : Writes k e ts) : (∀ t ∈ ts, IsToken t) ∧
    ∃ t us, ts = t :: us ∧ ∀ c ∈ t.head?, c ≠ '=' := by
  have hone : ∀ {t : Token}, (IsToken t ∧ ∀ c ∈ t.head?, c ≠ '=') → (∀ o ∈ [t], IsToken o) ∧
      ∃ o us, [t] = o :: us ∧ ∀ c ∈ o.head?, c ≠ '=' :=
    fun ht => ⟨List.forall_mem_singleton.2 ht.1, _, _, rfl, ht.2⟩
  induction h with
  | @number ds hds hfits =>
    obtain ⟨c, tail, rfl⟩ := List.exists_cons_of_ne_nil hds.1
    exact hone (isToken_of_wordy (isWordChar_of_isDigit (hds.2 c List.mem_cons_self))
      (isWordy_numeral hds))
  | string s hquote =>
    refine hone ⟨⟨List.cons_ne_nil _ _, ?_⟩, ?_⟩ <;> rintro c hc <;>
      obtain rfl : _ = c := by simpa [quotedToken] using hc
    · rcases hquote with rfl | rfl <;> exact ⟨by decide, fun _ => by decide⟩
    · rcases hquote with rfl | rfl <;> decide
  | true | false | null => exact hone (by decide)
  | @path head more hhead hfree hmore =>
    have hwordy := isWordy_pathToken hhead hmore
    obtain ⟨c, tail, hs, hc, -⟩ := hhead
    rw [pathToken, hs, List.cons_append] at hwordy ⊢
    exact hone (isToken_of_wordy (isWordChar_of_isWordStart hc) hwordy)
  | @unary op s arg ts hs _ ih =>
    obtain ⟨htoken, hequals⟩ := isToken_unary op s hs
    exact ⟨List.forall_mem_cons.2 ⟨htoken, ih.1⟩, _, _, rfl, hequals⟩
  | @binary op s left right ts us hs _ _ ihleft ihright =>
    obtain ⟨hts, t, more, rfl, hequals⟩ := ihleft
    exact ⟨List.forall_mem_append.2
      ⟨hts, List.forall_mem_cons.2 ⟨isToken_binary op s hs, ihright.1⟩⟩, t, _, rfl,
      hequals⟩
  | parentheses _ ih | braces _ ih =>
    refine ⟨List.forall_mem_append.2 ⟨List.forall_mem_cons.2 ⟨by decide, ih.1⟩,
      List.forall_mem_singleton.2 (by decide)⟩, _, _, rfl, by decide⟩
  | tighter _ ih => exact ih

end ProcessEngine.Expression

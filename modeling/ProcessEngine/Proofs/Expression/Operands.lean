import ProcessEngine.Proofs.Expression.Tokens

/-!
# Reading operands

The reader at each level of the grammar (`readAt`), and what it does where an operand begins: which
of the alternatives for an operand is taken is settled by its first character, or by its first word.
-/

namespace ProcessEngine.Expression

open ProcessEngine.Text ProcessEngine.Json

variable {c : Char} {cs rest gap : List Char} {e right : Expr} {k n : Nat}

/-! ## Levels -/

/-- The reader of expressions at a level of the grammar. -/
def readAt (k n : Nat) : Step Expr := (levels.drop k).foldr chain (operand n)

lemma operand_skipSpaces (n : Nat) (cs : List Char) : operand n (skipSpaces cs) = operand n cs := by
  cases n with
  | zero => rfl
  | succ n => simp only [operand, skipSpaces_skipSpaces]

/-- White space in front of an expression does not matter. -/
lemma readAt_skipSpaces (k n : Nat) (cs : List Char) : readAt k n (skipSpaces cs) = readAt k n cs := by
  rw [readAt]
  generalize levels.drop k = ls
  induction ls with
  | nil => exact operand_skipSpaces n cs
  | cons level ls ih => rw [List.foldr_cons, chain, chain, ih]

lemma readAt_append (hgap : ∀ c ∈ gap, isSpace c = true) :
    readAt k n (gap ++ cs) = readAt k n cs := by
  rw [← readAt_skipSpaces, skipSpaces_append hgap, readAt_skipSpaces]

lemma readAt_of_lt (hk : k < 6) (n : Nat) :
    readAt k n = chain (levelAt k) (readAt (k + 1) n) := by
  rw [readAt, drop_levels hk]
  rfl

lemma readAt_of_ge (hk : 6 ≤ k) (n : Nat) : readAt k n = operand n := by
  rw [readAt, List.drop_eq_nil_of_le hk]
  rfl

lemma chainFrom_calm {level : List (Spelling × BinaryOp)} (h : operator level cs = none)
    (f : Step Expr) (m : Nat) (e : Expr) : chainFrom level f m e cs = .done e cs := by
  cases m with
  | zero => rfl
  | succ m => rw [chainFrom, h]

lemma chainFrom_operator {level : List (Spelling × BinaryOp)} {f : Step Expr} {op : BinaryOp}
    {more : List Char} (h : operator level cs = some (op, more)) (hright : f more = .done right rest)
    (m : Nat) (left : Expr) :
    chainFrom level f (m + 1) left cs = chainFrom level f m (.binary op left right) rest := by
  rw [chainFrom, h]
  simp only [hright]

/-! ## Operands -/

lemma operand_word {word : List Char} (hne : word ≠ [])
    (hword : ∀ c ∈ word, isWordChar c = true) (hrest : ∀ c ∈ rest.head?, isWordChar c = false)
    (hnot : word ≠ "not".toList) (n : Nat) :
    operand (n + 1) (word ++ rest) = primary (tower (operand n)) (word ++ rest) := by
  have hnegation := negation?_word hne hword hrest
  rw [if_neg hnot] at hnegation
  obtain ⟨c, tail, rfl⟩ := List.exists_cons_of_ne_nil hne
  have hc : isWordChar c = true := hword c List.mem_cons_self
  have hminus : c ≠ '-' := by
    rintro rfl
    exact absurd hc (by decide)
  rw [List.cons_append] at hnegation ⊢
  rw [operand, skipSpaces_cons (not_isSpace_of_isWordChar hc), hnegation]
  simp [Outcome.orElse, hminus]

/-- An operand that starts with a quote or a bracket has no operator in front of it. -/
lemma operand_sign (hc : c = '"' ∨ c = '\'' ∨ c = '(' ∨ c = '$') (n : Nat) :
    operand (n + 1) (c :: cs) = primary (tower (operand n)) (c :: cs) := by
  rcases hc with rfl | rfl | rfl | rfl <;>
    simp [operand, skipSpaces, isSpace, negation?, Spelling.word, Spelling.drop?, dropText,
      Outcome.orElse]

/-- An operand behind a negation is negated, however the negation is written. -/
lemma operand_of_negation {after : List Char} (hspace : skipSpaces cs = cs)
    (hnegation : negation? cs = some after) (h : operand n after = .done e rest) :
    operand (n + 1) cs = .done (.unary .not e) rest := by
  simp only [operand, hspace, hnegation, h, Outcome.map, Outcome.orElse]

lemma operand_not (hequals : ∀ c ∈ cs.head?, c ≠ '=') (h : operand n cs = .done e rest) :
    operand (n + 1) ('!' :: cs) = .done (.unary .not e) rest := by
  refine operand_of_negation (skipSpaces_cons (by decide)) ?_ h
  cases cs with
  | nil => rfl
  | cons c cs =>
    have hc : c ≠ '=' := hequals c rfl
    simp [negation?, hc]

lemma operand_notWord (hstops : Stops cs) (h : operand n cs = .done e rest) :
    operand (n + 1) ("not".toList ++ cs) = .done (.unary .not e) rest := by
  refine operand_of_negation (skipSpaces_cons (by decide)) ?_ h
  have hnegation := @negation?_word cs "not".toList (by decide) (by decide) hstops.not_wordChar
  rwa [if_pos rfl] at hnegation

lemma operand_neg (h : operand n cs = .done e rest) :
    operand (n + 1) ('-' :: cs) = .done (.unary .neg e) rest := by
  have hnegation : negation? ('-' :: cs) = none := by
    simp [negation?, Spelling.word, Spelling.drop?, dropText]
  have hspace : skipSpaces ('-' :: cs) = '-' :: cs := skipSpaces_cons (by decide)
  simp only [operand, hspace, hnegation, h, Outcome.map, Outcome.orElse]

lemma number_miss (hc : isDigit c = false) : number (c :: cs) = .miss := by
  simp [number, digits, hc]

lemma stringLiteral_miss (hc : c ≠ '"') (hc' : c ≠ '\'') : stringLiteral (c :: cs) = .miss := by
  simp [stringLiteral, hc, hc']

lemma primary_number (inner : Step Expr) {ds : List Char} (h : IsNumeral ds)
    (hfits : decimalValue ds < 9223372036854775808) (hrest : Stops rest) : primary inner (ds ++ rest) =
      .done (.literal (.number (.int (decimalValue ds)))) (skipSpaces rest) := by
  have hnumber := number_append h hfits hrest
  obtain ⟨c, tail, rfl⟩ := List.exists_cons_of_ne_nil h.1
  have hc := not_isSpace_of_isWordChar (isWordChar_of_isDigit (h.2 c List.mem_cons_self))
  rw [List.cons_append] at hnumber ⊢
  simp only [primary, skipSpaces_cons hc, hnumber, Outcome.map, Outcome.orElse]

lemma primary_string (inner : Step Expr) {quote : Char} (hquote : quote = '"' ∨ quote = '\'')
    (s : String) : primary inner (quotedToken quote s ++ rest) =
      .done (.literal (.string s)) (skipSpaces rest) := by
  have hstring := @stringLiteral_append rest quote hquote s
  rw [quotedToken, List.cons_append, List.cons_append] at hstring ⊢
  have hspace : isSpace quote = false := by rcases hquote with rfl | rfl <;> decide
  have hdigit : isDigit quote = false := by rcases hquote with rfl | rfl <;> decide
  simp only [primary, skipSpaces_cons hspace, number_miss hdigit, hstring, Outcome.map,
    Outcome.orElse]

/-- What starts like a word is a constant, or else a path. -/
lemma primary_word (inner : Step Expr) (hc : isWordStart c = true) {after : List Char}
    (h : constant (c :: cs) = .done e after ∨
      constant (c :: cs) = .miss ∧ path (c :: cs) = .done e after) :
    primary inner (c :: cs) = .done e (skipSpaces after) := by
  have hspace := not_isSpace_of_isWordChar (isWordChar_of_isWordStart hc)
  have hdigit : isDigit c = false := by
    by_contra hdigit
    rw [not_isWordStart_of_isDigit (by simpa using hdigit)] at hc
    cases hc
  have hother : c ≠ '"' ∧ c ≠ '\'' ∧ c ≠ '$' ∧ c ≠ '(' := by
    refine ⟨?_, ?_, ?_, ?_⟩ <;> rintro rfl <;> exact absurd hc (by decide)
  obtain ⟨hdouble, hsingle, hdollar, hopening⟩ := hother
  rcases h with hconstant | ⟨hconstant, hpath⟩
  · simp only [primary, skipSpaces_cons hspace, number_miss hdigit,
      stringLiteral_miss hdouble hsingle, hconstant, Outcome.map, Outcome.orElse]
  · simp [primary, skipSpaces_cons hspace, number_miss hdigit,
      stringLiteral_miss hdouble hsingle, hconstant, hpath, Outcome.map, Outcome.orElse, hdollar,
      hopening]

/-- The brackets that an expression may stand between. -/
def IsBracketPair (opening : Token) (closing : Char) : Prop :=
  opening = ['('] ∧ closing = ')' ∨ opening = ['$', '\x7b'] ∧ closing = '\x7d'

/-- What starts with a bracket is no number, no string and no constant. -/
lemma miss_of_bracket (hc : c = '(' ∨ c = '$') :
    number (c :: cs) = .miss ∧ stringLiteral (c :: cs) = .miss ∧ constant (c :: cs) = .miss := by
  refine ⟨number_miss ?_, stringLiteral_miss ?_ ?_, ?_⟩ <;> rcases hc with rfl | rfl
  case refine_4.inl | refine_4.inr =>
    simp [constant, constants, Spelling.word, Spelling.drop?, dropText]
  all_goals decide

lemma primary_enclosed {inner : Step Expr} {opening : Token} {closing : Char}
    (hpair : IsBracketPair opening closing) {after : List Char}
    (h : enclosed inner closing cs = .done e after) :
    primary inner (opening ++ cs) = .done e (skipSpaces after) := by
  rcases hpair with ⟨rfl, rfl⟩ | ⟨rfl, rfl⟩
  · have hspace : skipSpaces ('(' :: cs) = '(' :: cs := skipSpaces_cons (by decide)
    obtain ⟨hnumber, hstring, hconstant⟩ := @miss_of_bracket '(' cs (.inl rfl)
    rw [List.cons_append, List.nil_append]
    simp only [primary, hspace, hnumber, hstring, hconstant, h, Outcome.map, Outcome.orElse]
  · have hspace : skipSpaces ('$' :: '\x7b' :: cs) = '$' :: '\x7b' :: cs :=
      skipSpaces_cons (by decide)
    obtain ⟨hnumber, hstring, hconstant⟩ := @miss_of_bracket '$' ('\x7b' :: cs) (.inr rfl)
    rw [List.cons_append, List.cons_append, List.nil_append]
    simp only [primary, hspace, hnumber, hstring, hconstant, h, Outcome.map, Outcome.orElse]

/-- An expression between brackets, if it is read up to the closing one. -/
lemma operand_enclosed {opening : Token} {closing : Char} (hpair : IsBracketPair opening closing)
    (hclosing : isSpace closing = false) (hgap : ∀ c ∈ gap, isSpace c = true)
    (h : readAt 0 n (cs ++ (gap ++ closing :: rest)) =
      .done e (skipSpaces (gap ++ closing :: rest))) :
    operand (n + 1) (opening ++ (cs ++ (gap ++ closing :: rest))) = .done e (skipSpaces rest) := by
  have henclosed : enclosed (tower (operand n)) closing (cs ++ (gap ++ closing :: rest)) =
      .done e rest := by
    have hinner : tower (operand n) (skipSpaces (cs ++ (gap ++ closing :: rest))) =
        .done e (skipSpaces (gap ++ closing :: rest)) := (readAt_skipSpaces 0 n _).trans h
    simp only [enclosed, hinner, skipSpaces_append hgap, skipSpaces_cons hclosing, if_true]
  rw [← primary_enclosed hpair henclosed]
  rcases hpair with ⟨rfl, -⟩ | ⟨rfl, -⟩ <;> exact operand_sign (by decide) n

end ProcessEngine.Expression

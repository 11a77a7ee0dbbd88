import ProcessEngine.Proofs.Expression.Operands

/-!
# What is taken off a text

A step of the reader that succeeds takes its token off the front of the text and leaves the rest as
it is.  For each kind of token it is said what the token is made of; of an operand, and of a chain of
operands, that the rest is a suffix of the text (`Regular`).
-/

namespace ProcessEngine.Expression

open ProcessEngine.Text ProcessEngine.Json

variable {α : Type} {c quote : Char} {cs rest chars : List Char} {s : String} {e left : Expr}
  {n : Nat}

/-! ## Words and paths -/

lemma IsIdentifier.ne_nil (h : IsIdentifier s) : s.toList ≠ [] := by
  obtain ⟨c, tail, hs, -, -⟩ := h
  rw [hs]
  exact List.cons_ne_nil c tail

lemma pathToken_ne_nil {head : String} (h : IsIdentifier head) (more : List String) :
    pathToken head more ≠ [] :=
  List.append_ne_nil_of_left_ne_nil h.ne_nil _

lemma identifier_taken (h : identifier cs = .done s rest) :
    IsIdentifier s ∧ cs = s.toList ++ rest := by
  cases cs with
  | nil => cases h
  | cons c tail =>
    rw [identifier] at h
    split_ifs at h with hc
    cases h
    refine ⟨⟨c, _, String.toList_ofList, hc, fun x hx => List.mem_takeWhile_imp hx⟩, ?_⟩
    rw [String.toList_ofList, List.cons_append, List.takeWhile_append_dropWhile]

lemma digits_taken {ds : List Char} (h : digits cs = (ds, rest)) :
    (∀ c ∈ ds, isDigit c = true) ∧ cs = ds ++ rest := by
  cases h
  exact ⟨fun c hc => List.mem_takeWhile_imp hc, List.takeWhile_append_dropWhile.symm⟩

/-- A segment of a path, behind its point. -/
abbrev IsSegment (s : String) : Prop := IsIdentifier s ∨ IsNumeral s.toList

lemma segment_taken (h : segment cs = some (s, rest)) : IsSegment s ∧ cs = s.toList ++ rest := by
  rw [segment] at h
  split at h
  · next hid =>
    cases h
    exact (identifier_taken hid).imp_left .inl
  · split at h
    · cases h
    · next ds tail hne hdigits =>
      cases h
      obtain ⟨hds, hcs⟩ := digits_taken hdigits
      rw [IsSegment, String.toList_ofList]
      exact ⟨.inr ⟨hne, hds⟩, hcs⟩

lemma segments_taken {more : List String} (h : segments n cs = (more, rest)) :
    (∀ s ∈ more, IsSegment s) ∧ cs = pointed more ++ rest := by
  induction n generalizing cs more with
  | zero =>
    cases h
    exact ⟨nofun, rfl⟩
  | succ n ih =>
    rw [segments.eq_def] at h
    split at h
    · next m tail hm =>
      obtain rfl := Nat.succ.inj hm
      split at h
      · next s tail' hsegment =>
        cases h
        obtain ⟨hs, rfl⟩ := segment_taken hsegment
        obtain ⟨hmore, htail⟩ := ih rfl
        refine ⟨List.forall_mem_cons.2 ⟨hs, hmore⟩, ?_⟩
        conv_lhs => rw [htail]
        simp [pointed]
      · cases h
        exact ⟨nofun, rfl⟩
    · cases h
      exact ⟨nofun, rfl⟩

lemma path_taken (h : path cs = .done e rest) :
    ∃ head more, e = .path (head :: more) ∧ IsIdentifier head ∧ (∀ s ∈ more, IsSegment s) ∧
      cs = pathToken head more ++ rest := by
  rw [path] at h
  split at h
  · next head tail hid =>
    cases h
    obtain ⟨hhead, rfl⟩ := identifier_taken hid
    obtain ⟨hmore, htail⟩ :=
      segments_taken (show segments tail.length tail = (_, _) from rfl)
    refine ⟨_, _, rfl, hhead, hmore, ?_⟩
    rw [pathToken, ← pointed, List.append_assoc, ← htail]
  · cases h

/-! ## Spellings -/

lemma dropText_taken : dropText chars cs = some rest ↔ cs = chars ++ rest := by
  induction chars generalizing cs with
  | nil => simp [dropText]
  | cons p ps ih =>
    cases cs with
    | nil => simp [dropText]
    | cons c cs =>
      rw [dropText]
      split_ifs with hc
      · simp [ih, hc]
      · simp [Ne.symm hc]

lemma drop?_taken {w : Spelling} (h : w.drop? cs = some rest) : cs = w.chars ++ rest := by
  rw [Spelling.drop?] at h
  split at h
  · next hdrop =>
    split_ifs at h
    cases h
    exact dropText_taken.1 hdrop
  · exact dropText_taken.1 h

/-- Behind a word no word goes on. -/
lemma drop?_word_stops {w : Spelling} (hw : w.isWord = true) (h : w.drop? cs = some rest) :
    ∀ c ∈ rest.head?, isWordChar c = false := by
  rw [Spelling.drop?] at h
  split at h
  · next c tail _ =>
    split_ifs at h with hc
    cases h
    rintro d hd
    obtain rfl : c = d := by simpa using hd
    simpa [hw] using hc
  · next other hother =>
    cases rest with
    | nil => simp
    | cons c tail => exact absurd h (hother c tail)

lemma constant_taken (h : constant cs = .done e rest) :
    ∃ w v, (w, v) ∈ constants ∧ e = .literal v ∧ cs = w.chars ++ rest := by
  rw [constant] at h
  split at h
  · next v tail hfound =>
    cases h
    obtain ⟨⟨w, v⟩, hmem, hdrop⟩ := List.exists_of_findSome?_eq_some hfound
    obtain ⟨tail, hdrop, hpair⟩ := Option.map_eq_some_iff.1 hdrop
    cases hpair
    exact ⟨w, v, hmem, rfl, drop?_taken hdrop⟩
  · cases h

lemma negation?_taken (h : negation? cs = some rest) :
    ∃ s ∈ UnaryOp.not.spellings, cs = s.toList ++ rest := by
  rw [negation?.eq_def] at h
  split at h
  · cases h
  · cases h
    exact ⟨"!", by decide, rfl⟩
  · exact ⟨"not", by decide, drop?_taken h⟩

/-- White space is taken off the front of a text. -/
lemma skipSpaces_taken (cs : List Char) :
    ∃ gap, (∀ c ∈ gap, isSpace c = true) ∧ cs = gap ++ skipSpaces cs :=
  ⟨cs.takeWhile isSpace, fun _ hc => List.mem_takeWhile_imp hc,
    List.takeWhile_append_dropWhile.symm⟩

lemma skipSpaces_suffix (cs : List Char) : skipSpaces cs <:+ cs := List.dropWhile_suffix _

/-- An operator is taken off the text together with the white space around it. -/
lemma operator_taken {level : List (Spelling × BinaryOp)} {op : BinaryOp}
    (h : operator level cs = some (op, rest)) :
    ∃ w tail, (w, op) ∈ level ∧ w.drop? (skipSpaces cs) = some tail ∧ rest = skipSpaces tail := by
  obtain ⟨⟨w, op⟩, hmem, hfound⟩ := List.exists_of_findSome?_eq_some h
  obtain ⟨tail, hdrop, hpair⟩ := Option.map_eq_some_iff.1 hfound
  cases hpair
  exact ⟨w, tail, hmem, hdrop, rfl⟩

/-! ## Numbers -/

/-- The characters of numbers. -/
def isNumeric (c : Char) : Bool := isWordChar c || c == '.' || c == '+' || c == '-'

lemma isNumeric_of_isDigit (h : isDigit c = true) : isNumeric c = true := by
  simp [isNumeric, isWordChar_of_isDigit h]

lemma fractionDigits_taken {ds : List Char} (h : fractionDigits cs = (ds, rest)) :
    ∃ taken, cs = taken ++ rest ∧ ∀ c ∈ taken, isNumeric c = true := by
  rw [fractionDigits.eq_def] at h
  split at h
  · split at h
    · cases h
      exact ⟨[], rfl, nofun⟩
    · obtain ⟨hds, rfl⟩ := digits_taken h
      exact ⟨'.' :: ds, rfl, List.forall_mem_cons.2
        ⟨by decide, fun c hc => isNumeric_of_isDigit (hds c hc)⟩⟩
  · cases h
    exact ⟨[], rfl, nofun⟩

/-- The sign in front of the digits of an exponent: whether it is a minus, and what follows it. -/
def exponentSign : List Char → Bool × List Char
  | '-' :: tail => (true, tail)
  | '+' :: tail => (false, tail)
  | tail => (false, tail)

lemma exponentSign_taken (cs : List Char) :
    ∃ sign, cs = sign ++ (exponentSign cs).2 ∧ ∀ c ∈ sign, isNumeric c = true := by
  rw [exponentSign.eq_def]
  split
  · exact ⟨['-'], rfl, by decide⟩
  · exact ⟨['+'], rfl, by decide⟩
  · exact ⟨[], rfl, nofun⟩

lemma exponentPart_cons : exponentPart (c :: cs) =
    if c = 'e' || c = 'E' then
      match digits (exponentSign cs).2 with
      | ([], _) => (none, c :: cs)
      | (ds, tail) =>
        (some (if (exponentSign cs).1 then -(decimalValue ds : Int) else decimalValue ds), tail)
    else (none, c :: cs) := rfl

lemma exponentPart_taken {o : Option Int} (h : exponentPart cs = (o, rest)) :
    ∃ taken, cs = taken ++ rest ∧ ∀ c ∈ taken, isNumeric c = true := by
  cases cs with
  | nil =>
    cases h
    exact ⟨[], rfl, nofun⟩
  | cons c tail =>
    rw [exponentPart_cons] at h
    by_cases hc : c = 'e' ∨ c = 'E'
    · rw [if_pos (by simpa using hc)] at h
      have he : isNumeric c = true := by rcases hc with rfl | rfl <;> decide
      obtain ⟨sign, htail, hsign⟩ := exponentSign_taken tail
      split at h
      · cases h
        exact ⟨[], rfl, nofun⟩
      · next ds after _ hread =>
        cases h
        obtain ⟨hds, hcs⟩ := digits_taken hread
        rw [hcs] at htail
        refine ⟨c :: (sign ++ ds), by rw [htail]; simp, List.forall_mem_cons.2 ⟨he, ?_⟩⟩
        exact List.forall_mem_append.2 ⟨hsign, fun c hc => isNumeric_of_isDigit (hds c hc)⟩
    · rw [if_neg (by simpa using hc)] at h
      cases h
      exact ⟨[], rfl, nofun⟩

lemma number_taken {m : Number} (h : number cs = .done m rest) :
    ∃ taken, cs = taken ++ rest ∧ taken ≠ [] ∧ ∀ c ∈ taken, isNumeric c = true := by
  rw [number] at h
  split at h
  · cases h
  · next whole tail hne hwhole =>
    obtain ⟨hds, rfl⟩ := digits_taken hwhole
    rcases hfraction : fractionDigits tail with ⟨ds, mid⟩
    rcases hexponent : exponentPart mid with ⟨o, after⟩
    have hrest : after = rest := by
      simp only [hfraction, hexponent] at h
      split_ifs at h <;> cases h <;> rfl
    subst hrest
    obtain ⟨front, rfl, hfront⟩ := fractionDigits_taken hfraction
    obtain ⟨back, rfl, hback⟩ := exponentPart_taken hexponent
    refine ⟨whole ++ (front ++ back), ?_, ?_, ?_⟩
    · simp
    · exact fun hnil => hne (List.append_eq_nil_iff.1 hnil).1
    · exact List.forall_mem_append.2 ⟨fun c hc => isNumeric_of_isDigit (hds c hc),
        List.forall_mem_append.2 ⟨hfront, hback⟩⟩

/-! ## Strings -/

/-- The quotes that strings stand between. -/
def isQuote (c : Char) : Bool := c == '"' || c == '\''

lemma Outcome.map_eq_done {β : Type} {f : α → β} {o : Outcome α} {b : β} :
    o.map f = .done b rest ↔ ∃ a, o = .done a rest ∧ f a = b := by
  cases o <;> simp [Outcome.map, and_comm]

/-- The characters of a string up to its closing quote are read alike whatever follows. -/
lemma stringBody_taken (h : stringBody quote cs = .done chars rest) :
    ∃ body, cs = body ++ quote :: rest ∧
      ∀ after, stringBody quote (body ++ quote :: after) = .done chars after := by
  fun_induction stringBody quote cs generalizing chars with
  | case1 | case4 | case5 => cases h
  | case2 tail =>
    cases h
    exact ⟨[], rfl, fun after => stringBody_quote quote⟩
  | case3 d tail e hescape hquote ih =>
    obtain ⟨more, hmore, rfl⟩ := Outcome.map_eq_done.1 h
    obtain ⟨body, rfl, hread⟩ := ih hmore
    refine ⟨'\\' :: d :: body, rfl, fun after => ?_⟩
    rw [List.cons_append, List.cons_append, stringBody_escaped hquote hescape, hread after,
      Outcome.map]
  | case6 c tail hquote hback ih =>
    obtain ⟨more, hmore, rfl⟩ := Outcome.map_eq_done.1 h
    obtain ⟨body, rfl, hread⟩ := ih hmore
    refine ⟨c :: body, rfl, fun after => ?_⟩
    rw [List.cons_append, stringBody_plain hquote hback, hread after, Outcome.map]

lemma stringLiteral_taken (h : stringLiteral cs = .done s rest) :
    ∃ quote body, isQuote quote = true ∧ cs = quote :: (body ++ [quote]) ++ rest ∧
      ∀ after, stringLiteral (quote :: (body ++ [quote]) ++ after) = .done s after := by
  cases cs with
  | nil => cases h
  | cons quote tail =>
    rw [stringLiteral] at h
    split_ifs at h with hquote
    obtain ⟨chars, hchars, rfl⟩ := Outcome.map_eq_done.1 h
    obtain ⟨body, rfl, hread⟩ := stringBody_taken hchars
    refine ⟨quote, body, by simpa [isQuote] using hquote, by simp, fun after => ?_⟩
    rw [List.cons_append, List.append_assoc, List.singleton_append, stringLiteral, if_pos hquote,
      hread after, Outcome.map]

/-! ## Operands and chains -/

variable {f inner : Step Expr} {level : List (Spelling × BinaryOp)}

lemma Outcome.orElse_eq_done {o : Outcome α} {next : Unit → Outcome α} {a : α} :
    o.orElse next = .done a rest ↔ o = .done a rest ∨ o = .miss ∧ next () = .done a rest := by
  cases o <;> simp [Outcome.orElse]

/-- What an expression between brackets was read from. -/
lemma enclosed_cases {closing : Char} (h : enclosed inner closing cs = .done e rest) :
    ∃ after, inner (skipSpaces cs) = .done e after ∧ skipSpaces after = closing :: rest := by
  rw [enclosed] at h
  split at h
  · next e' after hread =>
    split at h
    · next hskip =>
      split_ifs at h with hc
      cases h
      exact ⟨after, hread, hc ▸ hskip⟩
    · cases h
  · cases h

/-- The ways to read what stands behind the operators in front of an operand. -/
inductive Alternative (inner : Step Expr) (cs : List Char) : Expr → List Char → Prop
  | number {m : Number} {rest : List Char} (h : Expression.number cs = .done m rest) :
      Alternative inner cs (.literal (.number m)) rest
  | string {s : String} {rest : List Char} (h : stringLiteral cs = .done s rest) :
      Alternative inner cs (.literal (.string s)) rest
  | constant {e : Expr} {rest : List Char} (h : Expression.constant cs = .done e rest) :
      Alternative inner cs e rest
  | reference {e : Expr} {tail rest : List Char} (hcs : cs = '$' :: '\x7b' :: tail)
      (h : enclosed inner '\x7d' tail = .done e rest) : Alternative inner cs e rest
  | parentheses {e : Expr} {tail rest : List Char} (hcs : cs = '(' :: tail)
      (h : enclosed inner ')' tail = .done e rest) : Alternative inner cs e rest
  | path {e : Expr} {rest : List Char} (h : Expression.path cs = .done e rest) :
      Alternative inner cs e rest

lemma primary_cases (h : primary inner cs = .done e rest) :
    ∃ after, rest = skipSpaces after ∧ Alternative inner (skipSpaces cs) e after := by
  rw [primary] at h
  split at h
  · next e' after hfound =>
    cases h
    refine ⟨after, rfl, ?_⟩
    rcases Outcome.orElse_eq_done.1 hfound with hnumber | ⟨-, hfound⟩
    · obtain ⟨m, hm, rfl⟩ := Outcome.map_eq_done.1 hnumber
      exact .number hm
    rcases Outcome.orElse_eq_done.1 hfound with hstring | ⟨-, hfound⟩
    · obtain ⟨s, hs, rfl⟩ := Outcome.map_eq_done.1 hstring
      exact .string hs
    rcases Outcome.orElse_eq_done.1 hfound with hconstant | ⟨-, hfound⟩
    · exact .constant hconstant
    split at hfound
    · next tail hcs => exact .reference hcs hfound
    · next tail hcs => exact .parentheses hcs hfound
    · exact .path hfound
  · next hother => exact absurd h (hother e rest)

/-- An operand has an operator in front of it, or it has none. -/
lemma operand_cases (h : operand (n + 1) cs = .done e rest) :
    (∃ op, ∃ s ∈ UnaryOp.spellings op, ∃ tail arg, skipSpaces cs = s.toList ++ tail ∧
      operand n tail = .done arg rest ∧ e = .unary op arg) ∨
    primary (tower (operand n)) (skipSpaces cs) = .done e rest := by
  rw [operand] at h
  rcases Outcome.orElse_eq_done.1 h with hnegated | ⟨-, h⟩
  · split at hnegated
    · next tail hnegation =>
      obtain ⟨arg, harg, rfl⟩ := Outcome.map_eq_done.1 hnegated
      obtain ⟨s, hs, hcs⟩ := negation?_taken hnegation
      exact .inl ⟨.not, s, hs, tail, arg, hcs, harg, rfl⟩
    · cases hnegated
  rcases Outcome.orElse_eq_done.1 h with hopposite | ⟨-, h⟩
  · split at hopposite
    · next tail hcs =>
      obtain ⟨arg, harg, rfl⟩ := Outcome.map_eq_done.1 hopposite
      exact .inl ⟨.neg, "-", by decide, tail, arg, hcs, harg, rfl⟩
    · cases hopposite
  · exact .inr h

/-- What holds of the first operand, and goes on to hold with each further one, holds of a chain. -/
lemma chainFrom_induction {motive : Expr → List Char → Prop}
    (h : chainFrom level f n left cs = .done e rest) (start : motive left cs)
    (step : ∀ {left cs op more right after}, motive left cs → operator level cs = some (op, more) →
      f more = .done right after → motive (.binary op left right) after) : motive e rest := by
  induction n generalizing left cs with
  | zero =>
    cases h
    exact start
  | succ n ih =>
    rw [chainFrom] at h
    split at h
    · cases h
      exact start
    · next op more hoperator =>
      split at h
      · next right after hright => exact ih h (step start hoperator hright)
      · cases h

/-- A reader of expressions passes over white space, and leaves a suffix of the text. -/
structure Regular (f : Step Expr) : Prop where
  skips : ∀ cs, f (skipSpaces cs) = f cs
  suffix : ∀ {cs e rest}, f cs = .done e rest → rest <:+ cs

lemma operator_suffix {op : BinaryOp} (h : operator level cs = some (op, rest)) : rest <:+ cs := by
  obtain ⟨w, tail, -, hdrop, rfl⟩ := operator_taken h
  exact ((skipSpaces_suffix tail).trans ⟨w.chars, (drop?_taken hdrop).symm⟩).trans
    (skipSpaces_suffix cs)

lemma Regular.chainFrom_suffix (hf : Regular f) (h : chainFrom level f n left cs = .done e rest) :
    rest <:+ cs :=
  chainFrom_induction h (List.suffix_refl cs) fun hcs hoperator hright =>
    ((hf.suffix hright).trans (operator_suffix hoperator)).trans hcs

lemma Regular.chain (hf : Regular f) (level : List (Spelling × BinaryOp)) :
    Regular (chain level f) := by
  refine ⟨fun cs => by rw [Expression.chain, Expression.chain, hf.skips], fun h => ?_⟩
  rw [Expression.chain] at h
  split at h
  · next hleft => exact (hf.chainFrom_suffix h).trans (hf.suffix hleft)
  · next hother => exact absurd h (hother _ _)

lemma Regular.foldr_chain (hf : Regular f) (ls : List (List (Spelling × BinaryOp))) :
    Regular (ls.foldr Expression.chain f) := by
  induction ls with
  | nil => exact hf
  | cons level ls ih => exact ih.chain level

lemma Regular.tower (hf : Regular f) : Regular (tower f) := hf.foldr_chain levels

lemma Regular.enclosed_suffix (hf : Regular inner) {closing : Char}
    (h : enclosed inner closing cs = .done e rest) : rest <:+ cs := by
  obtain ⟨after, hread, hskip⟩ := enclosed_cases h
  have hafter : rest <:+ after :=
    (List.suffix_cons closing rest).trans (hskip ▸ skipSpaces_suffix after)
  rw [hf.skips] at hread
  exact hafter.trans (hf.suffix hread)

lemma Regular.primary_suffix (hf : Regular inner) (h : primary inner cs = .done e rest) :
    rest <:+ cs := by
  obtain ⟨after, rfl, hread⟩ := primary_cases h
  refine (skipSpaces_suffix after).trans (List.IsSuffix.trans ?_ (skipSpaces_suffix cs))
  cases hread with
  | number hm =>
    obtain ⟨taken, hcs, -⟩ := number_taken hm
    exact ⟨taken, hcs.symm⟩
  | string hs =>
    obtain ⟨quote, body, -, hcs, -⟩ := stringLiteral_taken hs
    exact ⟨_, hcs.symm⟩
  | constant hconstant =>
    obtain ⟨w, v, -, -, hcs⟩ := constant_taken hconstant
    exact ⟨_, hcs.symm⟩
  | reference hcs hread => exact (hf.enclosed_suffix hread).trans ⟨['$', '\x7b'], hcs.symm⟩
  | parentheses hcs hread => exact (hf.enclosed_suffix hread).trans ⟨['('], hcs.symm⟩
  | path hpath =>
    obtain ⟨head, more, -, -, -, hcs⟩ := path_taken hpath
    exact ⟨_, hcs.symm⟩

lemma regular_operand (n : Nat) : Regular (operand n) := by
  induction n with
  | zero => exact ⟨fun _ => rfl, nofun⟩
  | succ n ih =>
    refine ⟨operand_skipSpaces (n + 1), fun {cs e rest} h => ?_⟩
    rcases operand_cases h with ⟨op, s, -, tail, arg, hcs, harg, -⟩ | hprimary
    · exact ((ih.suffix harg).trans ⟨_, hcs.symm⟩).trans (skipSpaces_suffix cs)
    · exact (ih.tower.primary_suffix hprimary).trans (skipSpaces_suffix cs)

end ProcessEngine.Expression

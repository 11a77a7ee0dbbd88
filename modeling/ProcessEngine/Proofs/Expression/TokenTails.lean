import ProcessEngine.Proofs.Expression.Consumption

/-!
# What stands behind a token

No token goes on with a closing brace, and none with white space.  Where one of them follows
(`Closed`), a token is therefore taken just as it is taken off the text alone, with what follows it
added to the rest (`Outcome.Extends`); only a string that the text leaves open may be closed by what
follows.
-/

namespace ProcessEngine.Expression

open ProcessEngine.Text ProcessEngine.Json

variable {α β : Type} {c : Char} {cs rest t x : List Char} {n m : Nat}

/-! ## Ends of tokens -/

/-- The characters that no token holds, strings apart: the closing brace, and white space. -/
def endsToken (c : Char) : Bool := c == '\x7d' || isBlank c

/-- A closing brace follows, or white space that the grammar does not skip, or nothing. -/
def Closed (t : List Char) : Prop := ∀ c ∈ (skipSpaces t).head?, endsToken c = true

lemma isBlank_of_isSpace (hc : isSpace c = true) : isBlank c = true := by
  rcases isSpace_cases hc with rfl | rfl | rfl | rfl <;> decide

lemma not_isBlank_of_isNumeric (hc : isNumeric c = true) : isBlank c = false := by
  by_contra hblank
  have ha : 'a'.toNat = 97 := rfl
  have hz : 'z'.toNat = 122 := rfl
  have hA : 'A'.toNat = 65 := rfl
  have hZ : 'Z'.toNat = 90 := rfl
  have hzero : '0'.toNat = 48 := rfl
  have hnine : '9'.toNat = 57 := rfl
  simp only [isNumeric, isWordChar, isLetter, isDigit, isBlank, blankRanges, List.any_cons,
    List.any_nil, Bool.or_eq_true, Bool.and_eq_true, decide_eq_true_eq, beq_iff_eq,
    Bool.not_eq_false, Bool.or_false] at hc hblank
  rcases hc with ((((hc | hc) | rfl) | rfl) | rfl) | rfl
  · omega
  · omega
  all_goals revert hblank; decide

lemma not_isNumeric_of_endsToken (hc : endsToken c = true) : isNumeric c = false := by
  by_contra hnumeric
  rw [Bool.not_eq_false] at hnumeric
  rcases (Bool.or_eq_true _ _).mp hc with hbrace | hblank
  · obtain rfl := beq_iff_eq.1 hbrace
    exact absurd hnumeric (by decide)
  · rw [not_isBlank_of_isNumeric hnumeric] at hblank
    cases hblank

lemma not_isWordChar_of_endsToken (hc : endsToken c = true) : isWordChar c = false := by
  by_contra hword
  have hnumeric := not_isNumeric_of_endsToken hc
  simp [isNumeric, Bool.not_eq_false _ |>.mp hword] at hnumeric

lemma not_isDigit_of_endsToken (hc : endsToken c = true) : isDigit c = false := by
  by_contra hdigit
  have hword := not_isWordChar_of_endsToken hc
  rw [isWordChar_of_isDigit (by simpa using hdigit)] at hword
  cases hword

lemma Closed.head (ht : Closed t) : ∀ c ∈ t.head?, endsToken c = true := by
  cases t with
  | nil => nofun
  | cons c tail =>
    rintro d hd
    obtain rfl : c = d := by simpa using hd
    cases hspace : isSpace c with
    | true => simp [endsToken, isBlank_of_isSpace hspace]
    | false => exact ht c (by rw [skipSpaces_cons hspace]; rfl)

lemma Closed.head_ne (ht : Closed t) {d : Char} (hd : endsToken d = false) :
    ∀ c ∈ t.head?, c ≠ d := by
  rintro c hc rfl
  rw [ht.head c hc] at hd
  cases hd

lemma head_ne_of_ne {d : Char} (h : c ≠ d) : ∀ a ∈ (c :: cs).head?, a ≠ d := by
  rintro a ha
  obtain rfl : c = a := by simpa using ha
  exact h

lemma Closed.skip (ht : Closed t) : Closed (skipSpaces t) := by
  rw [Closed, skipSpaces_skipSpaces]
  exact ht

lemma closed_nil : Closed [] := nofun

lemma closed_brace (y : List Char) : Closed ('\x7d' :: y) := by
  rw [Closed, skipSpaces_cons (by decide)]
  exact fun c hc => by
    obtain rfl : '\x7d' = c := by simpa using hc
    decide

/-- White space may stand in front of what ends a text. -/
lemma Closed.append {gap : List Char} (hgap : ∀ c ∈ gap, isBlank c = true) (ht : Closed t) :
    Closed (gap ++ t) := by
  induction gap with
  | nil => exact ht
  | cons d gap ih =>
    obtain ⟨hd, hgap⟩ := List.forall_mem_cons.1 hgap
    cases hspace : isSpace d with
    | true =>
      rw [Closed, List.cons_append, skipSpaces, List.dropWhile_cons_of_pos hspace]
      exact ih hgap
    | false =>
      rw [Closed, List.cons_append, skipSpaces_cons hspace]
      rintro c hc
      obtain rfl : d = c := by simpa using hc
      simp [endsToken, hd]

lemma closed_of_blank (ht : ∀ c ∈ t, isBlank c = true) : Closed t := by
  have h := closed_nil.append ht
  rwa [List.append_nil] at h

/-- White space in front of a text with a tail is that of the text, unless the text is blank. -/
lemma skipSpaces_append_cases (x t : List Char) :
    skipSpaces x = [] ∧ skipSpaces (x ++ t) = skipSpaces t ∨
      skipSpaces x ≠ [] ∧ skipSpaces (x ++ t) = skipSpaces x ++ t := by
  induction x with
  | nil => exact .inl ⟨rfl, rfl⟩
  | cons c x ih =>
    cases hspace : isSpace c with
    | true => simpa [skipSpaces, hspace] using ih
    | false =>
      rw [List.cons_append, skipSpaces_cons hspace, skipSpaces_cons hspace]
      exact .inr ⟨List.cons_ne_nil _ _, rfl⟩

lemma skipSpaces_skipSpaces_append (x t : List Char) :
    skipSpaces (skipSpaces x ++ t) = skipSpaces (x ++ t) := by
  rcases skipSpaces_append_cases x t with ⟨hx, htext⟩ | ⟨hx, htext⟩
  · rw [hx, htext, List.nil_append]
  · rw [← htext, skipSpaces_skipSpaces]

lemma length_lt_skipSpaces {gap : List Char} (hc : isSpace c = false) :
    rest.length < (skipSpaces (gap ++ c :: rest)).length := by
  rcases skipSpaces_append_cases gap (c :: rest) with ⟨-, htext⟩ | ⟨-, htext⟩
  · rw [htext, skipSpaces_cons hc]
    exact Nat.lt_succ_self _
  · rw [htext, List.length_append, List.length_cons]
    omega

/-! ## Outcomes with a tail -/

/-- How the outcome on a text goes with the outcome on the text with a tail: what is read is read
alike, and what follows is added to the rest.  A fault may be mended only by what follows. -/
inductive Outcome.Extends (t : List Char) : Outcome α → Outcome α → Prop
  | done {a : α} {rest rest' : List Char} (h : skipSpaces rest' = skipSpaces (rest ++ t)) :
      Extends t (.done a rest) (.done a rest')
  | miss : Extends t .miss .miss
  | fault : Extends t .fault .fault
  | mended {a : α} {rest : List Char} (h : rest.length < (skipSpaces t).length) :
      Extends t .fault (.done a rest)

/-- The outcome with a tail added to the rest. -/
def Outcome.behind (t : List Char) : Outcome α → Outcome α
  | .done a rest => .done a (rest ++ t)
  | .miss => .miss
  | .fault => .fault

lemma Outcome.extends_behind (t : List Char) (o : Outcome α) : o.Extends t (o.behind t) := by
  cases o with
  | done a rest => exact .done rfl
  | miss => exact .miss
  | fault => exact .fault

lemma Outcome.extends_of_fault {o : Outcome α} (hmiss : o ≠ .miss)
    (h : ∀ a rest, o = .done a rest → rest.length < (skipSpaces t).length) :
    Outcome.Extends t .fault o := by
  cases o with
  | done a rest => exact .mended (h a rest rfl)
  | miss => exact absurd rfl hmiss
  | fault => exact .fault

lemma Outcome.Extends.map {o o' : Outcome α} (h : o.Extends t o') (k : α → β) :
    (o.map k).Extends t (o'.map k) := by
  cases h with
  | done h => exact .done h
  | miss => exact .miss
  | fault => exact .fault
  | mended h => exact .mended h

lemma Outcome.Extends.orElse {o o' : Outcome α} {next next' : Unit → Outcome α}
    (h : o.Extends t o') (hnext : (next ()).Extends t (next' ())) :
    (o.orElse next).Extends t (o'.orElse next') := by
  cases h with
  | done h => exact .done h
  | miss => exact hnext
  | fault => exact .fault
  | mended h => exact .mended h

/-! ## Tokens with a tail -/

/-- A run of characters does not go on into the tail. -/
lemma span_closed {p : Char → Bool} (hp : ∀ c, endsToken c = true → p c = false) (ht : Closed t)
    (x : List Char) :
    (x ++ t).takeWhile p = x.takeWhile p ∧ (x ++ t).dropWhile p = x.dropWhile p ++ t := by
  induction x with
  | nil =>
    cases t with
    | nil => exact ⟨rfl, rfl⟩
    | cons c tail => simp [hp c (ht.head c rfl)]
  | cons c x ih => by_cases hc : p c = true <;> simp [hc, ih]

lemma digits_closed (ht : Closed t) (x : List Char) :
    digits (x ++ t) = ((digits x).1, (digits x).2 ++ t) := by
  obtain ⟨htake, hdrop⟩ := span_closed (fun _ => not_isDigit_of_endsToken) ht x
  rw [digits, digits, htake, hdrop]

lemma identifier_closed (ht : Closed t) (x : List Char) :
    identifier (x ++ t) = (identifier x).behind t := by
  cases x with
  | nil =>
    cases t with
    | nil => rfl
    | cons c tail =>
      have hc := not_isWordChar_of_endsToken (ht.head c rfl)
      have hstart : isWordStart c = false := by
        by_contra hstart
        rw [isWordChar_of_isWordStart (by simpa using hstart)] at hc
        cases hc
      simp [identifier, hstart, Outcome.behind]
  | cons c x =>
    obtain ⟨htake, hdrop⟩ := span_closed (fun _ => not_isWordChar_of_endsToken) ht x
    rw [List.cons_append, identifier, identifier]
    split_ifs
    · rw [htake, hdrop, Outcome.behind]
    · rfl

lemma segment_closed (ht : Closed t) (x : List Char) :
    segment (x ++ t) = (segment x).map fun s => (s.1, s.2 ++ t) := by
  rw [segment, segment, identifier_closed ht, digits_closed ht]
  cases identifier x with
  | done s rest => rfl
  | miss | fault => rcases digits x with ⟨_ | ⟨d, ds⟩, rest⟩ <;> rfl

lemma segments_stop (h : ∀ c ∈ cs.head?, c ≠ '.') : segments n cs = ([], cs) := by
  rw [segments.eq_def]
  split
  · exact absurd rfl (h '.' rfl)
  · rfl

lemma segments_closed (ht : Closed t) (hn : x.length ≤ n) (hm : x.length ≤ m) :
    segments m (x ++ t) = ((segments n x).1, (segments n x).2 ++ t) := by
  have hnone : ∀ m, segments m t = ([], t) := fun m => segments_stop (ht.head_ne (by decide))
  induction n generalizing m x with
  | zero =>
    obtain rfl := List.eq_nil_of_length_eq_zero (Nat.le_zero.1 hn)
    exact hnone m
  | succ n ih =>
    cases x with
    | nil => exact hnone m
    | cons c x =>
      by_cases hc : c = '.'
      · subst hc
        obtain ⟨m, rfl⟩ : ∃ l, m = l + 1 := Nat.exists_eq_succ_of_ne_zero (by rintro rfl; cases hm)
        rw [List.cons_append, segments, segments, segment_closed ht]
        cases hsegment : segment x with
        | none => rfl
        | some found =>
          obtain ⟨s, rest⟩ := found
          obtain ⟨-, rfl⟩ := segment_taken hsegment
          rw [List.length_cons, List.length_append] at hn hm
          have hmore := ih (x := rest) (m := m) (by omega) (by omega)
          simp only [Option.map_some, hmore]
      · rw [List.cons_append, segments_stop (head_ne_of_ne hc), segments_stop (head_ne_of_ne hc)]
        rfl

lemma path_closed (ht : Closed t) (x : List Char) : path (x ++ t) = (path x).behind t := by
  rw [path, path, identifier_closed ht]
  cases identifier x with
  | done head rest =>
    simp only [Outcome.behind]
    rw [segments_closed ht le_rfl (by simp : rest.length ≤ (rest ++ t).length)]
  | miss | fault => rfl

lemma drop?_closed (ht : Closed t) {w : Spelling} (hw : ∀ c ∈ w.chars, endsToken c = false)
    (x : List Char) : w.drop? (x ++ t) = (w.drop? x).map (· ++ t) := by
  obtain ⟨chars, isWord⟩ := w
  induction chars generalizing x with
  | nil =>
    cases x with
    | nil =>
      cases t with
      | nil => rfl
      | cons c tail =>
        simp [Spelling.drop?, dropText, not_isWordChar_of_endsToken (ht.head c rfl)]
    | cons c x =>
      simp only [Spelling.drop?, dropText, List.cons_append]
      split_ifs <;> rfl
  | cons p ps ih =>
    obtain ⟨hp, hps⟩ := List.forall_mem_cons.1 hw
    cases x with
    | nil =>
      cases t with
      | nil => rfl
      | cons c tail =>
        rw [List.nil_append, drop?_cons_of_ne (ht.head_ne hp c rfl).symm]
        rfl
    | cons c x =>
      rw [List.cons_append]
      by_cases hc : p = c
      · subst hc
        rw [drop?_cons_self, drop?_cons_self, ih _ hps]
      · rw [drop?_cons_of_ne hc, drop?_cons_of_ne hc]
        rfl

/-- The first of some spellings that stands at the front of a text, with what it means. -/
def spelled (table : List (Spelling × α)) (cs : List Char) : Option (α × List Char) :=
  table.findSome? fun (w, a) => (w.drop? cs).map (a, ·)

lemma spelled_closed (ht : Closed t) {table : List (Spelling × α)}
    (htable : ∀ w ∈ table, ∀ c ∈ w.1.chars, endsToken c = false) (x : List Char) :
    spelled table (x ++ t) = (spelled table x).map fun found => (found.1, found.2 ++ t) := by
  rw [spelled, spelled]
  induction table with
  | nil => rfl
  | cons w table ih =>
    obtain ⟨w, a⟩ := w
    obtain ⟨hw, htable⟩ := List.forall_mem_cons.1 htable
    simp only [List.findSome?_cons, drop?_closed ht hw]
    cases w.drop? x with
    | none => exact ih htable
    | some rest => rfl

lemma constant_of_spelled {found : Value × List Char} (h : spelled constants cs = some found) :
    constant cs = .done (.literal found.1) found.2 := by
  rw [spelled] at h
  rw [constant, h]

lemma constant_of_spelled_none (h : spelled constants cs = none) : constant cs = .miss := by
  rw [spelled] at h
  rw [constant, h]

lemma constant_closed (ht : Closed t) (x : List Char) :
    constant (x ++ t) = (constant x).behind t := by
  have hchars : ∀ w ∈ constants, ∀ c ∈ w.1.chars, endsToken c = false := by decide
  have hspelled := spelled_closed ht hchars x
  cases hx : spelled constants x with
  | none =>
    rw [hx] at hspelled
    rw [constant_of_spelled_none hx, constant_of_spelled_none hspelled]
    rfl
  | some found =>
    rw [hx] at hspelled
    rw [constant_of_spelled hx, constant_of_spelled hspelled]
    rfl

lemma operator_eq (level : List (Spelling × BinaryOp)) (cs : List Char) :
    operator level cs =
      (spelled level (skipSpaces cs)).map fun found => (found.1, skipSpaces found.2) := by
  rw [operator, spelled]
  induction level with
  | nil => rfl
  | cons w level ih =>
    obtain ⟨w, op⟩ := w
    simp only [List.findSome?_cons, ih]
    cases w.drop? (skipSpaces cs) <;> rfl

lemma negation?_of_ne (h : ∀ c ∈ cs.head?, c ≠ '!') :
    negation? cs = (Spelling.word "not").drop? cs := by
  rw [negation?.eq_def]
  split
  · exact absurd rfl (h '!' rfl)
  · exact absurd rfl (h '!' rfl)
  · rfl

lemma negation?_bang (h : ∀ c ∈ cs.head?, c ≠ '=') : negation? ('!' :: cs) = some cs := by
  cases cs with
  | nil => rfl
  | cons c cs => simp [negation?, h c rfl]

lemma negation?_closed (ht : Closed t) (x : List Char) :
    negation? (x ++ t) = (negation? x).map (· ++ t) := by
  have hword := drop?_closed ht (w := .word "not") (by decide)
  cases x with
  | nil =>
    rw [List.nil_append, negation?_of_ne (ht.head_ne (by decide))]
    exact hword []
  | cons c x =>
    by_cases hc : c = '!'
    · subst hc
      cases x with
      | nil => exact negation?_bang (ht.head_ne (by decide))
      | cons d x =>
        by_cases hd : d = '='
        · subst hd
          rfl
        · rw [List.cons_append, List.cons_append, negation?_bang (head_ne_of_ne hd),
            negation?_bang (head_ne_of_ne hd)]
          rfl
    · rw [negation?_of_ne (head_ne_of_ne hc), List.cons_append, negation?_of_ne (head_ne_of_ne hc)]
      exact hword (c :: x)

lemma fractionDigits_of_ne (h : ∀ c ∈ cs.head?, c ≠ '.') : fractionDigits cs = ([], cs) := by
  rw [fractionDigits.eq_def]
  split
  · exact absurd rfl (h '.' rfl)
  · rfl

lemma fractionDigits_closed (ht : Closed t) (x : List Char) :
    fractionDigits (x ++ t) = ((fractionDigits x).1, (fractionDigits x).2 ++ t) := by
  cases x with
  | nil => exact fractionDigits_of_ne (ht.head_ne (by decide))
  | cons c x =>
    by_cases hc : c = '.'
    · subst hc
      rw [List.cons_append, fractionDigits, fractionDigits, digits_closed ht]
      rcases digits x with ⟨_ | ⟨d, ds⟩, rest⟩ <;> rfl
    · rw [List.cons_append, fractionDigits_of_ne (head_ne_of_ne hc),
        fractionDigits_of_ne (head_ne_of_ne hc)]
      rfl

lemma exponentSign_of_ne (hminus : ∀ c ∈ cs.head?, c ≠ '-') (hplus : ∀ c ∈ cs.head?, c ≠ '+') :
    exponentSign cs = (false, cs) := by
  rw [exponentSign.eq_def]
  split
  · exact absurd rfl (hminus '-' rfl)
  · exact absurd rfl (hplus '+' rfl)
  · rfl

lemma exponentSign_closed (ht : Closed t) (x : List Char) :
    exponentSign (x ++ t) = ((exponentSign x).1, (exponentSign x).2 ++ t) := by
  cases x with
  | nil => exact exponentSign_of_ne (ht.head_ne (by decide)) (ht.head_ne (by decide))
  | cons c x =>
    by_cases hminus : c = '-'
    · subst hminus
      rfl
    by_cases hplus : c = '+'
    · subst hplus
      rfl
    rw [List.cons_append, exponentSign_of_ne (head_ne_of_ne hminus) (head_ne_of_ne hplus),
      exponentSign_of_ne (head_ne_of_ne hminus) (head_ne_of_ne hplus)]
    rfl

lemma exponentPart_closed (ht : Closed t) (x : List Char) :
    exponentPart (x ++ t) = ((exponentPart x).1, (exponentPart x).2 ++ t) := by
  cases x with
  | nil =>
    cases t with
    | nil => rfl
    | cons c tail =>
      have hc : ¬(c = 'e' ∨ c = 'E') :=
        not_or.2 ⟨ht.head_ne (by decide) c rfl, ht.head_ne (by decide) c rfl⟩
      simp [exponentPart, hc]
  | cons c x =>
    rw [List.cons_append, exponentPart_cons, exponentPart_cons, exponentSign_closed ht,
      digits_closed ht]
    dsimp only
    rcases digits (exponentSign x).2 with ⟨_ | ⟨d, ds⟩, rest⟩ <;> split_ifs <;> rfl

lemma number_closed (ht : Closed t) (x : List Char) : number (x ++ t) = (number x).behind t := by
  rw [number, number, digits_closed ht]
  rcases digits x with ⟨_ | ⟨d, ds⟩, tail⟩
  · rfl
  · simp only [fractionDigits_closed ht, exponentPart_closed ht]
    split_ifs <;> rfl

lemma stringBody_ne_miss (quote : Char) (cs : List Char) : stringBody quote cs ≠ .miss := by
  fun_induction stringBody quote cs with
  | case1 | case2 | case4 | case5 => simp
  | case3 d tail e hescape hquote ih =>
    cases hbody : stringBody quote tail <;> simp_all [Outcome.map]
  | case6 c tail hquote hback ih =>
    cases hbody : stringBody quote tail <;> simp_all [Outcome.map]

lemma isQuote_cases (hc : isQuote c = true) : c = '"' ∨ c = '\'' := by
  simpa [isQuote] using hc

lemma stringLiteral_eq_miss : stringLiteral cs = .miss ↔ ∀ c ∈ cs.head?, isQuote c = false := by
  cases cs with
  | nil => exact iff_of_true rfl nofun
  | cons c tail =>
    rw [stringLiteral]
    split_ifs with hc
    · refine iff_of_false (fun h => ?_) fun h => ?_
      · cases hbody : stringBody c tail <;> simp_all [Outcome.map, stringBody_ne_miss]
      · have hquote := h c rfl
        simp_all [isQuote]
    · refine iff_of_true rfl fun d hd => ?_
      obtain rfl : c = d := by simpa using hd
      simpa [isQuote] using hc

/-- A string that is not closed may be closed in the tail. -/
lemma stringLiteral_closed (ht : Closed t) (x : List Char) :
    (stringLiteral x).Extends t (stringLiteral (x ++ t)) := by
  have hhead : x ≠ [] → (x ++ t).head? = x.head? := fun hx => List.head?_append_of_ne_nil _ hx
  cases hx : stringLiteral x with
  | done s rest =>
    obtain ⟨quote, body, -, rfl, hread⟩ := stringLiteral_taken hx
    rw [List.append_assoc, hread]
    exact .done rfl
  | miss =>
    have hmiss : stringLiteral (x ++ t) = .miss := by
      rw [stringLiteral_eq_miss] at hx ⊢
      cases x with
      | nil =>
        intro c hc
        by_contra hquote
        have hends := ht.head c hc
        rcases isQuote_cases (by simpa using hquote) with rfl | rfl <;> exact absurd hends (by decide)
      | cons c x => exact hx
    rw [hmiss]
    exact .miss
  | fault =>
    have hne : x ≠ [] := by
      rintro rfl
      cases hx
    refine Outcome.extends_of_fault (fun hmiss => ?_) fun s rest hdone => ?_
    · rw [stringLiteral_eq_miss, hhead hne, ← stringLiteral_eq_miss, hx] at hmiss
      cases hmiss
    · obtain ⟨quote, body, hquote, htext, hread⟩ := stringLiteral_taken hdone
      have hspace : isSpace quote = false := by
        rcases isQuote_cases hquote with rfl | rfl <;> decide
      rcases List.append_eq_append_iff.1 htext with ⟨a, htoken, rfl⟩ | ⟨a, rfl, -⟩
      · rcases List.eq_nil_or_concat a with rfl | ⟨a, d, rfl⟩
        · rw [← List.append_nil x, ← htoken, ← List.append_nil (quote :: _), hread] at hx
          cases hx
        · rw [List.concat_eq_append] at htoken ⊢
          rw [← List.cons_append, ← List.append_assoc] at htoken
          obtain rfl : quote = d := List.singleton_inj.1 (List.append_inj_right' htoken rfl)
          rw [List.append_assoc]
          exact length_lt_skipSpaces hspace
      · rw [hread] at hx
        cases hx

/-! ## Operators with a tail -/

/-- No spelling of the table is empty, and none goes on into what ends a token. -/
abbrev WellSpelled (table : List (Spelling × α)) : Prop :=
  ∀ w ∈ table, w.1.chars ≠ [] ∧ ∀ c ∈ w.1.chars, endsToken c = false

lemma wellSpelled_levels : ∀ level ∈ levels, WellSpelled level := by decide

variable {level : List (Spelling × BinaryOp)} {op : BinaryOp}

lemma spelled_nil {table : List (Spelling × α)} (htable : WellSpelled table) :
    spelled table [] = none := by
  refine List.findSome?_eq_none_iff.2 fun w hw => ?_
  obtain ⟨⟨chars, isWord⟩, a⟩ := w
  obtain ⟨p, ps, rfl⟩ : ∃ p ps, chars = p :: ps := List.exists_cons_of_ne_nil (htable _ hw).1
  rfl

lemma operator_closed (ht : Closed t) (hlevel : WellSpelled level) (x : List Char) :
    operator level (x ++ t) =
      (operator level x).map fun found => (found.1, skipSpaces (found.2 ++ t)) := by
  have hwords : ∀ w ∈ level, ∀ c ∈ w.1.chars, endsToken c = false := fun w hw => (hlevel w hw).2
  rw [operator_eq, operator_eq]
  rcases skipSpaces_append_cases x t with ⟨hx, htext⟩ | ⟨-, htext⟩
  · have hnone := spelled_closed ht.skip hwords []
    rw [spelled_nil hlevel, List.nil_append] at hnone
    rw [htext, hx, hnone, spelled_nil hlevel]
    rfl
  · rw [htext, spelled_closed ht hwords]
    cases spelled level (skipSpaces x) with
    | none => rfl
    | some found => simp only [Option.map_some, skipSpaces_skipSpaces_append]

lemma length_lt_of_operator (hlevel : WellSpelled level)
    (h : operator level cs = some (op, rest)) : rest.length < cs.length := by
  obtain ⟨w, tail, hw, hdrop, rfl⟩ := operator_taken h
  have hchars : 0 < w.chars.length := List.length_pos_of_ne_nil (hlevel _ hw).1
  have hskip := length_skipSpaces_le cs
  have htail := length_skipSpaces_le tail
  rw [drop?_taken hdrop, List.length_append] at hskip
  omega

end ProcessEngine.Expression

import Mathlib.Data.List.DropRight
import ProcessEngine.Proofs.Expression.Rendering

/-!
# Reading tokens

Each token of a rendering is read as a whole and no further: what follows a word is no character
that a word could go on with (`Stops`).  The steps of the reader that come before the right one miss,
because they look for other characters, or for a word that the token is not.
-/

namespace ProcessEngine.Expression

open ProcessEngine.Text ProcessEngine.Json

variable {c : Char} {cs rest gap : List Char}

/-! ## White space -/

lemma skipSpaces_append (hgap : ∀ c ∈ gap, isSpace c = true) :
    skipSpaces (gap ++ cs) = skipSpaces cs :=
  List.dropWhile_append_of_pos hgap

lemma skipSpaces_cons (hc : isSpace c = false) : skipSpaces (c :: cs) = c :: cs :=
  List.dropWhile_cons_of_neg (by simp [hc])

@[simp] lemma skipSpaces_skipSpaces (cs : List Char) : skipSpaces (skipSpaces cs) = skipSpaces cs :=
  List.dropWhile_idempotent _ _

lemma length_skipSpaces_le (cs : List Char) : (skipSpaces cs).length ≤ cs.length :=
  (List.dropWhile_suffix _).length_le

/-! ## Words -/

/-- No word goes on in the text. -/
def Stops (rest : List Char) : Prop := ∀ c ∈ rest.head?, isWordChar c = false ∧ c ≠ '.'

lemma Stops.cons (hc : isWordChar c = false) (hpoint : c ≠ '.') : Stops (c :: cs) := by
  intro d hd
  obtain rfl : c = d := by simpa using hd
  exact ⟨hc, hpoint⟩

lemma Stops.not_wordChar (h : Stops rest) : ∀ c ∈ rest.head?, isWordChar c = false :=
  fun c hc => (h c hc).1

lemma isSpace_cases (hc : isSpace c = true) : c = ' ' ∨ c = '\t' ∨ c = '\r' ∨ c = '\n' := by
  simpa [isSpace, or_assoc] using hc

lemma not_isSpace_of_isWordChar (hc : isWordChar c = true) : isSpace c = false := by
  by_contra hspace
  rcases isSpace_cases (by simpa using hspace) with rfl | rfl | rfl | rfl <;>
    exact absurd hc (by decide)

/-- White space ends a word. -/
lemma Stops.of_isSpace (hc : isSpace c = true) : Stops (c :: cs) := by
  rcases isSpace_cases hc with rfl | rfl | rfl | rfl <;> exact .cons (by decide) (by decide)

/-- No word goes on behind white space, if there is any. -/
lemma Stops.append (hgap : ∀ c ∈ gap, isSpace c = true) (h : Stops rest) : Stops (gap ++ rest) := by
  cases gap with
  | nil => exact h
  | cons c gap => exact .of_isSpace (hgap c List.mem_cons_self)

/-- A token starts with no white space, and with a character of words only if it is a word. -/
abbrev IsToken (t : Token) : Prop :=
  t ≠ [] ∧ ∀ c ∈ t.head?, isSpace c = false ∧
    (isWordy t = false → isWordChar c = false ∧ c ≠ '.')

/-- White space in front of a token is skipped, and no more. -/
lemma skipSpaces_token {t : Token} (ht : IsToken t) (hgap : ∀ c ∈ gap, isSpace c = true) :
    skipSpaces (gap ++ (t ++ cs)) = t ++ cs := by
  obtain ⟨hne, hhead⟩ := ht
  obtain ⟨c, tail, rfl⟩ := List.exists_cons_of_ne_nil hne
  rw [skipSpaces_append hgap, List.cons_append, skipSpaces_cons (hhead c rfl).1]

/-- A run of characters is taken to where it ends. -/
lemma span_append {p : Char → Bool} {xs : List Char} (hxs : ∀ c ∈ xs, p c = true)
    (hrest : ∀ c ∈ rest.head?, p c = false) :
    (xs ++ rest).takeWhile p = xs ∧ (xs ++ rest).dropWhile p = rest := by
  rw [List.takeWhile_append_of_pos hxs, List.dropWhile_append_of_pos hxs]
  cases rest with
  | nil => simp
  | cons c cs =>
    have hc : p c = false := hrest c rfl
    simp [hc]

lemma isWordChar_of_isWordStart (h : isWordStart c = true) : isWordChar c = true := by
  simp only [isWordStart, isWordChar, Bool.or_eq_true] at h ⊢
  tauto

lemma isWordChar_of_isDigit (h : isDigit c = true) : isWordChar c = true := by
  simp [isWordChar, h]

lemma not_isWordStart_of_isDigit (h : isDigit c = true) : isWordStart c = false := by
  simp only [isDigit, Bool.and_eq_true, decide_eq_true_eq] at h
  have hzero : '0'.toNat = 48 := rfl
  have hnine : '9'.toNat = 57 := rfl
  have ha : 'a'.toNat = 97 := rfl
  have hA : 'A'.toNat = 65 := rfl
  have hscore : c ≠ '_' := by
    rintro rfl
    exact absurd h.2 (by decide)
  simp [isWordStart, isLetter, hscore]
  omega

/-- All characters of an identifier are those of words. -/
lemma IsIdentifier.isWordChar {s : String} (h : IsIdentifier s) :
    ∀ c ∈ s.toList, Expression.isWordChar c = true := by
  obtain ⟨c, tail, hs, hc, htail⟩ := h
  rw [hs]
  exact List.forall_mem_cons.2 ⟨isWordChar_of_isWordStart hc, htail⟩

lemma identifier_append {s : String} (h : IsIdentifier s)
    (hrest : ∀ c ∈ rest.head?, isWordChar c = false) :
    identifier (s.toList ++ rest) = .done s rest := by
  obtain ⟨c, tail, hs, hc, htail⟩ := h
  obtain ⟨htake, hdrop⟩ := span_append htail hrest
  rw [hs, List.cons_append, identifier, if_pos hc, htake, hdrop, ← hs, String.ofList_toList]

lemma digits_append {ds : List Char} (h : IsNumeral ds)
    (hrest : ∀ c ∈ rest.head?, isWordChar c = false) : digits (ds ++ rest) = (ds, rest) := by
  have hstop : ∀ c ∈ rest.head?, isDigit c = false := by
    intro c hc
    by_contra hdigit
    have hword := isWordChar_of_isDigit (by simpa using hdigit)
    rw [hrest c hc] at hword
    cases hword
  obtain ⟨htake, hdrop⟩ := span_append h.2 hstop
  rw [digits, htake, hdrop]

/-! ## Words with a meaning -/

lemma drop?_cons_of_ne {p : Char} {ps : List Char} {isWord : Bool} (h : p ≠ c) :
    (Spelling.mk (p :: ps) isWord).drop? (c :: cs) = none := by
  simp [Spelling.drop?, dropText, h]

lemma drop?_cons_self {ps : List Char} {isWord : Bool} :
    (Spelling.mk (c :: ps) isWord).drop? (c :: cs) = (Spelling.mk ps isWord).drop? cs := by
  simp [Spelling.drop?, dropText]

/-- Whether two texts differ whatever follows them. -/
def clash : List Char → List Char → Bool
  | p :: ps, c :: cs => p != c || clash ps cs
  | _, _ => false

lemma drop?_of_clash {ps : List Char} {isWord : Bool} (h : clash ps cs = true) :
    (Spelling.mk ps isWord).drop? (cs ++ rest) = none := by
  induction ps generalizing cs with
  | nil => cases h
  | cons p ps ih =>
    cases cs with
    | nil => cases h
    | cons c cs =>
      rw [List.cons_append]
      by_cases hc : p = c
      · subst hc
        rw [drop?_cons_self]
        exact ih (by simpa [clash] using h)
      · exact drop?_cons_of_ne hc

lemma drop?_longer {isWord : Bool} (h : ∀ c ∈ rest.head?, c ≠ '=') :
    (Spelling.mk (cs ++ ['=']) isWord).drop? (cs ++ rest) = none := by
  induction cs with
  | nil =>
    cases rest with
    | nil => rfl
    | cons c rest => exact drop?_cons_of_ne (h c rfl).symm
  | cons c cs ih => exact drop?_cons_self.trans ih

lemma drop?_self {isWord : Bool} (h : isWord = true → ∀ c ∈ rest.head?, isWordChar c = false) :
    (Spelling.mk cs isWord).drop? (cs ++ rest) = some rest := by
  induction cs with
  | nil =>
    cases rest with
    | nil => rfl
    | cons c rest =>
      have hc : (isWord && isWordChar c) = false := by
        cases isWord with
        | false => rfl
        | true => exact h rfl c rfl
      simp [Spelling.drop?, dropText, hc]
  | cons c cs ih => exact drop?_cons_self.trans ih

/-- A word is found just where the same word stands. -/
lemma drop?_word {w word : List Char} (hw : ∀ c ∈ w, isWordChar c = true)
    (hword : ∀ c ∈ word, isWordChar c = true) (hrest : ∀ c ∈ rest.head?, isWordChar c = false) :
    (Spelling.mk w true).drop? (word ++ rest) = if word = w then some rest else none := by
  induction w generalizing word with
  | nil =>
    cases word with
    | nil =>
      cases rest with
      | nil => rfl
      | cons c cs => simp [Spelling.drop?, dropText, hrest c rfl]
    | cons c cs => simp [Spelling.drop?, dropText, hword c List.mem_cons_self]
  | cons p ps ih =>
    cases word with
    | nil =>
      cases rest with
      | nil => rfl
      | cons c cs =>
        have hne : p ≠ c := by
          rintro rfl
          have := hrest p rfl
          rw [hw p List.mem_cons_self] at this
          cases this
        rw [List.nil_append, drop?_cons_of_ne hne]
        simp
    | cons c cs =>
      rw [List.cons_append]
      by_cases hc : p = c
      · subst hc
        rw [drop?_cons_self, ih (fun x hx => hw x (List.mem_cons_of_mem _ hx))
          (fun x hx => hword x (List.mem_cons_of_mem _ hx))]
        simp
      · rw [drop?_cons_of_ne hc, if_neg (by simp [Ne.symm hc])]

/-! ## Paths -/

lemma segment_append {s : String} (h : IsIdentifier s ∨ IsNumeral s.toList)
    (hrest : ∀ c ∈ rest.head?, isWordChar c = false) :
    segment (s.toList ++ rest) = some (s, rest) := by
  rcases h with hid | hnum
  · rw [segment, identifier_append hid hrest]
  · have hdigits := digits_append hnum hrest
    obtain ⟨hne, hds⟩ := hnum
    cases hs : s.toList with
    | nil => exact absurd hs hne
    | cons c tail =>
      have hc : isDigit c = true := hds c (hs ▸ List.mem_cons_self)
      rw [hs] at hdigits
      have hmiss : identifier (c :: tail ++ rest) = .miss := by
        rw [List.cons_append, identifier, not_isWordStart_of_isDigit hc]
        rfl
      rw [segment, hmiss, hdigits]
      simp only
      rw [← hs, String.ofList_toList]

/-- The segments of a path behind its head. -/
def pointed (more : List String) : List Char := more.flatMap fun s => '.' :: s.toList

/-- Behind a segment there is a point, or the path ends. -/
lemma not_wordChar_pointed (more : List String) (hrest : Stops rest) :
    ∀ c ∈ (pointed more ++ rest).head?, isWordChar c = false := by
  cases more with
  | nil => exact hrest.not_wordChar
  | cons s more =>
    intro c hc
    obtain rfl : '.' = c := by simpa [pointed] using hc
    decide

lemma segments_append {more : List String} (h : ∀ s ∈ more, IsIdentifier s ∨ IsNumeral s.toList)
    (hrest : Stops rest) {n : Nat} (hn : more.length ≤ n) :
    segments n (pointed more ++ rest) = (more, rest) := by
  induction more generalizing n with
  | nil =>
    cases n with
    | zero => rfl
    | succ n =>
      cases rest with
      | nil => rfl
      | cons c cs =>
        have hpoint : c ≠ '.' := (hrest c rfl).2
        simp [pointed, segments, hpoint]
  | cons s more ih =>
    obtain ⟨n, rfl⟩ : ∃ m, n = m + 1 :=
      Nat.exists_eq_succ_of_ne_zero (by rw [List.length_cons] at hn; omega)
    have hsegment := segment_append (h s List.mem_cons_self) (not_wordChar_pointed more hrest)
    have hsegments := ih (fun o ho => h o (List.mem_cons_of_mem _ ho)) (Nat.le_of_succ_le_succ hn)
    have htext : pointed (s :: more) ++ rest = '.' :: (s.toList ++ (pointed more ++ rest)) := by
      simp [pointed]
    rw [htext, segments, hsegment]
    simp only [hsegments]

lemma length_le_pointed (more : List String) : more.length ≤ (pointed more).length := by
  induction more with
  | nil => exact Nat.le_refl _
  | cons s more ih =>
    rw [pointed, List.flatMap_cons, List.length_append, ← pointed, List.length_cons,
      List.length_cons]
    omega

lemma path_append {head : String} {more : List String} (hhead : IsIdentifier head)
    (hmore : ∀ s ∈ more, IsIdentifier s ∨ IsNumeral s.toList) (hrest : Stops rest) :
    path (pathToken head more ++ rest) = .done (.path (head :: more)) rest := by
  have hlength : more.length ≤ (pointed more ++ rest).length := by
    rw [List.length_append]
    exact Nat.le_add_right_of_le (length_le_pointed more)
  rw [pathToken, ← pointed, List.append_assoc, path,
    identifier_append hhead (not_wordChar_pointed more hrest)]
  simp only [segments_append hmore hrest hlength]

/-! ## Numbers -/

lemma number_append {ds : List Char} (h : IsNumeral ds) (hfits : decimalValue ds < 9223372036854775808)
    (hrest : Stops rest) : number (ds ++ rest) = .done (.int (decimalValue ds)) rest := by
  have hfraction : fractionDigits rest = ([], rest) := by
    cases rest with
    | nil => rfl
    | cons c cs =>
      have hpoint : c ≠ '.' := (hrest c rfl).2
      simp [fractionDigits, hpoint]
  have hexponent : exponentPart rest = (none, rest) := by
    cases rest with
    | nil => rfl
    | cons c cs =>
      have hc : isWordChar c = false := (hrest c rfl).1
      have he : ¬(c = 'e' ∨ c = 'E') := by
        rintro (rfl | rfl) <;> exact absurd hc (by decide)
      simp [exponentPart, he]
  have hint : fitsInt64 (decimalValue ds) = true := by
    simp only [fitsInt64, Bool.and_eq_true, decide_eq_true_eq]
    omega
  obtain ⟨c, tail, rfl⟩ : ∃ c tail, ds = c :: tail := List.exists_cons_of_ne_nil h.1
  rw [number, digits_append h hrest.not_wordChar]
  simp [hfraction, hexponent, hint]

/-! ## Strings -/

lemma stringBody_quote (quote : Char) : stringBody quote (quote :: rest) = .done [] rest := by
  rw [stringBody.eq_def]
  simp

lemma stringBody_plain {quote : Char} (hq : c ≠ quote) (hb : c ≠ '\\') :
    stringBody quote (c :: cs) = (stringBody quote cs).map (c :: ·) := by
  rw [stringBody.eq_def]
  simp [hq, hb]

lemma stringBody_escaped {quote e : Char} (hq : '\\' ≠ quote) (he : escaped? c = some e) :
    stringBody quote ('\\' :: c :: cs) = (stringBody quote cs).map (e :: ·) := by
  rw [stringBody.eq_def]
  simp [hq, he]

lemma stringBody_append {quote : Char} (hquote : quote = '"' ∨ quote = '\'') (chars : List Char) :
    stringBody quote (chars.flatMap (fun c => if c = quote ∨ c = '\\' then ['\\', c] else [c]) ++
      quote :: rest) = .done chars rest := by
  have hback : '\\' ≠ quote := by rcases hquote with rfl | rfl <;> decide
  induction chars with
  | nil => exact stringBody_quote quote
  | cons c chars ih =>
    rw [List.flatMap_cons, List.append_assoc]
    split_ifs with hc
    · have hescape : escaped? c = some c := by
        rcases hc with rfl | rfl
        · rcases hquote with rfl | rfl <;> rfl
        · rfl
      rw [List.cons_append, List.cons_append, List.nil_append, stringBody_escaped hback hescape, ih,
        Outcome.map]
    · obtain ⟨hq, hb⟩ := not_or.1 hc
      rw [List.cons_append, List.nil_append, stringBody_plain hq hb, ih, Outcome.map]

lemma stringLiteral_append {quote : Char} (hquote : quote = '"' ∨ quote = '\'') (s : String) :
    stringLiteral (quotedToken quote s ++ rest) = .done s rest := by
  have hbody := @stringBody_append rest quote hquote s.toList
  rw [quotedToken, List.cons_append, List.cons_append, List.append_assoc, List.singleton_append,
    stringLiteral, if_pos (by simpa using hquote), hbody, Outcome.map, String.ofList_toList]

/-! ## Operators -/

/-- The spellings of the operators of a level, as the reader tries them. -/
def levelAt (k : Nat) : List (Spelling × BinaryOp) := (levels[k]?).getD []

/-- The characters that operators of a level start with. -/
def leading (k : Nat) : List Char := (levelAt k).filterMap fun s => s.1.chars.head?

lemma drop_levels {k : Nat} (hk : k < 6) : levels.drop k = levelAt k :: levels.drop (k + 1) := by
  have hall : ∀ k < 6, levels.drop k = levelAt k :: levels.drop (k + 1) := by decide
  exact hall k hk

@[simp] lemma operator_skipSpaces (level : List (Spelling × BinaryOp)) (cs : List Char) :
    operator level (skipSpaces cs) = operator level cs := by
  simp [operator]

/-- There is no operator of a level where none of them starts with the next character. -/
lemma operator_eq_none {k : Nat} (h : ∀ c ∈ (skipSpaces cs).head?, c ∉ leading k) :
    operator (levelAt k) cs = none := by
  have hspelled : ∀ s ∈ levelAt k, s.1.chars ≠ [] := by
    rcases Nat.lt_or_ge k 6 with hk | hk
    · have hall : ∀ k < 6, ∀ s ∈ levelAt k, s.1.chars ≠ [] := by decide
      exact hall k hk
    · have hnone : levels[k]? = none := List.getElem?_eq_none hk
      rw [levelAt, hnone]
      nofun
  refine List.findSome?_eq_none_iff.2 fun s hs => ?_
  obtain ⟨⟨chars, isWord⟩, op⟩ := s
  obtain ⟨p, ps, rfl⟩ : ∃ p ps, chars = p :: ps := List.exists_cons_of_ne_nil (hspelled _ hs)
  have hp : p ∈ leading k := List.mem_filterMap.2 ⟨_, hs, rfl⟩
  cases hcs : skipSpaces cs with
  | nil => simp [Spelling.drop?, dropText]
  | cons c tail =>
    have hne : p ≠ c := by
      rintro rfl
      exact h p (by rw [hcs]; rfl) hp
    simp only [drop?_cons_of_ne hne, Option.map_none]

/-- No operator that binds at least as tightly as a level comes next. -/
def Calm (k : Nat) (rest : List Char) : Prop := ∀ j, k ≤ j → operator (levelAt j) rest = none

lemma Calm.mono {k j : Nat} (h : Calm k rest) (hkj : k ≤ j) : Calm j rest :=
  fun i hi => h i (hkj.trans hi)

lemma calm_of_head {k : Nat} (h : ∀ c ∈ (skipSpaces rest).head?, ∀ j, k ≤ j → c ∉ leading j) :
    Calm k rest :=
  fun j hj => operator_eq_none fun c hc => h c hc j hj

lemma leading_eq_nil {j : Nat} (hj : 6 ≤ j) : leading j = [] := by
  have hnone : levels[j]? = none := List.getElem?_eq_none hj
  rw [leading, levelAt, hnone]
  rfl

/-- At the end of the text there is no operator. -/
lemma calm_blank (hrest : ∀ c ∈ rest, isSpace c = true) : Calm 0 rest := by
  refine calm_of_head fun c hc => ?_
  rw [show skipSpaces rest = [] from List.dropWhile_eq_nil_iff.2 hrest] at hc
  cases hc

/-- Nor is there one at a closing bracket. -/
lemma calm_closing (hgap : ∀ c ∈ gap, isSpace c = true) (hc : c = ')' ∨ c = '\x7d') :
    Calm 0 (gap ++ c :: cs) := by
  refine calm_of_head fun d hd j _ => ?_
  rw [skipSpaces_append hgap, skipSpaces_cons (by rcases hc with rfl | rfl <;> decide)] at hd
  obtain rfl : c = d := by simpa using hd
  rcases Nat.lt_or_ge j 6 with hj | hj
  · have hall : ∀ j < 6, ')' ∉ leading j ∧ '\x7d' ∉ leading j := by decide
    rcases hc with rfl | rfl
    · exact (hall j hj).1
    · exact (hall j hj).2
  · rw [leading_eq_nil hj]
    exact List.not_mem_nil

lemma isToken_binary (op : BinaryOp) : ∀ s ∈ op.spellings, IsToken s.toList := by
  cases op <;> decide

/-- The first character of an operator starts no operator that binds more tightly. -/
lemma not_mem_leading (op : BinaryOp) : ∀ s ∈ op.spellings, ∀ c ∈ s.toList.head?,
    ∀ j < 6, op.level < j → c ∉ leading j := by
  cases op <;> decide

/-- Before an operator there is none that binds more tightly. -/
lemma calm_operator {op : BinaryOp} {s : String} (hs : s ∈ op.spellings)
    (hgap : ∀ c ∈ gap, isSpace c = true) : Calm (op.level + 1) (gap ++ (s.toList ++ cs)) := by
  have htoken := isToken_binary op s hs
  refine calm_of_head fun c hc j hj => ?_
  rw [skipSpaces_token htoken hgap, List.head?_append_of_ne_nil _ htoken.1] at hc
  rcases Nat.lt_or_ge j 6 with hj' | hj'
  · exact not_mem_leading op s hs c hc j hj' hj
  · rw [leading_eq_nil hj']
    exact List.not_mem_nil

/-- No operator binds as tightly as those in front of an operand. -/
lemma calm_operand (rest : List Char) : Calm 6 rest := by
  refine calm_of_head fun c _ j hj => ?_
  rw [leading_eq_nil hj]
  exact List.not_mem_nil

/-- The spellings that are tried before an operator's own differ from it, or go on with a sign of
equality. -/
lemma tried_before (op : BinaryOp) : ∀ s ∈ op.spellings,
    ((levelAt op.level).dropWhile fun b => b.1.chars != s.toList).head? =
      some (⟨s.toList, isWordy s.toList⟩, op) ∧
    ∀ b ∈ (levelAt op.level).takeWhile fun b => b.1.chars != s.toList,
      clash b.1.chars s.toList = true ∨ b.1.chars = s.toList ++ ['='] := by
  cases op <;> decide

/-- An operator is read in whichever way it is written, unless it could be a longer one or a longer
word. -/
lemma operator_spelling {op : BinaryOp} {s : String} (hs : s ∈ op.spellings)
    (hequals : ∀ c ∈ rest.head?, c ≠ '=')
    (hword : isWordy s.toList = true → ∀ c ∈ rest.head?, isWordChar c = false) :
    operator (levelAt op.level) (s.toList ++ rest) = some (op, skipSpaces rest) := by
  obtain ⟨hown, hbefore⟩ := tried_before op s hs
  obtain ⟨after, hafter⟩ := List.head?_eq_some_iff.1 hown
  have hskip : skipSpaces (s.toList ++ rest) = s.toList ++ rest :=
    @skipSpaces_token rest [] _ (isToken_binary op s hs) (List.forall_mem_nil _)
  have hsplit := List.takeWhile_append_dropWhile (p := fun b => b.1.chars != s.toList)
    (l := levelAt op.level)
  rw [hafter] at hsplit
  rw [operator, hskip]
  refine List.findSome?_eq_some_iff.2 ⟨_, _, _, hsplit.symm, ?_, fun b hb => ?_⟩
  · simp only [drop?_self hword, Option.map_some]
  · obtain ⟨⟨chars, isWord⟩, other⟩ := b
    rcases hbefore _ hb with hclash | rfl
    · simp only [drop?_of_clash hclash, Option.map_none]
    · simp only [drop?_longer hequals, Option.map_none]

/-! ## What comes before an operand -/

/-- A word is no negation, but for the one that means it. -/
lemma negation?_word {word : List Char} (hne : word ≠ [])
    (hword : ∀ c ∈ word, isWordChar c = true) (hrest : ∀ c ∈ rest.head?, isWordChar c = false) :
    negation? (word ++ rest) = if word = "not".toList then some rest else none := by
  obtain ⟨c, tail, rfl⟩ := List.exists_cons_of_ne_nil hne
  have hc : c ≠ '!' := by
    rintro rfl
    exact absurd (hword _ List.mem_cons_self) (by decide)
  have hnot : ∀ c ∈ "not".toList, isWordChar c = true := by decide
  rw [← drop?_word hnot hword hrest, List.cons_append, negation?]
  · rfl
  · rintro cs hcs
    exact hc (List.cons.inj hcs).1
  · rintro cs hcs
    exact hc (List.cons.inj hcs).1

lemma constant_word {word : List Char} (hword : ∀ c ∈ word, isWordChar c = true)
    (hrest : ∀ c ∈ rest.head?, isWordChar c = false) :
    constant (word ++ rest) =
      if word = "true".toList then .done (.literal (.bool true)) rest
      else if word = "false".toList then .done (.literal (.bool false)) rest
      else if word = "null".toList then .done (.literal .null) rest
      else .miss := by
  have hdrop : ∀ w : String, (∀ c ∈ w.toList, isWordChar c = true) →
      (Spelling.word w).drop? (word ++ rest) = if word = w.toList then some rest else none :=
    fun w hw => drop?_word hw hword hrest
  rw [constant, constants]
  simp only [List.findSome?_cons, List.findSome?_nil, hdrop "true" (by decide),
    hdrop "false" (by decide), hdrop "null" (by decide)]
  split_ifs <;> rfl

end ProcessEngine.Expression

import ProcessEngine.Proofs.Expression.Spacing
import ProcessEngine.Proofs.Expression.Tails

/-!
# The pieces of a text

A text that is read as an expression falls into pieces: strings, references, paths outside of
references, and what is left.  `Composed` says how the pieces make up the expression; what stands
between the braces of a reference is an expression of its own, and it is composed in the same way.
Every text that the reader accepts is composed of pieces (`exists_composed`).
-/

namespace ProcessEngine.Expression

open ProcessEngine.Text ProcessEngine.Json

/-! ## Pieces -/

/-- A piece of a text: numbers, constants, operators, brackets and white space, a string with its
quotes, a path outside of references, or a reference with what stands between its braces. -/
inductive Piece where
  | plain (text : List Char)
  | quoted (text : List Char)
  | path (text : List Char)
  | reference (body : List Char)

/-- The characters of a piece. -/
@[simp] def Piece.text : Piece → List Char
  | .plain text => text
  | .quoted text => text
  | .path text => text
  | .reference body => '$' :: '\x7b' :: (body ++ ['\x7d'])

/-- The text that falls into some pieces. -/
def spell (ps : List Piece) : List Char := ps.flatMap Piece.text

@[simp] lemma spell_nil : spell [] = [] := rfl

@[simp] lemma spell_cons (p : Piece) (ps : List Piece) : spell (p :: ps) = p.text ++ spell ps := rfl

@[simp] lemma spell_append (ps qs : List Piece) : spell (ps ++ qs) = spell ps ++ spell qs :=
  List.flatMap_append

/-- The pieces that an expression is made up of, with white space around any part of it. -/
inductive Composed : Expr → List Piece → Prop
  | number {ds rest : List Char} {m : Number} (h : Expression.number (ds ++ rest) = .done m rest) :
      Composed (.literal (.number m)) [.plain ds]
  | string {text : List Char} {s : String} (h : stringLiteral text = .done s []) :
      Composed (.literal (.string s)) [.quoted text]
  | constant {w : Spelling} {v : Value} (h : (w, v) ∈ constants) :
      Composed (.literal v) [.plain w.chars]
  | path {head : String} {more : List String} (hhead : IsIdentifier head)
      (hmore : ∀ s ∈ more, IsSegment s) :
      Composed (.path (head :: more)) [.path (pathToken head more)]
  | reference {e : Expr} {ps : List Piece} {body : List Char} (h : Composed e ps)
      (htext : spell ps = body) (hparse : parse (String.ofList body) = some e) :
      Composed e [.reference body]
  | parentheses {e : Expr} {ps : List Piece} (h : Composed e ps) :
      Composed e (.plain ['('] :: (ps ++ [.plain [')']]))
  | unary {op : UnaryOp} {s : String} {arg : Expr} {ps : List Piece} (hs : s ∈ op.spellings)
      (h : Composed arg ps) : Composed (.unary op arg) (.plain s.toList :: ps)
  | binary {op : BinaryOp} {s : String} {left right : Expr} {ps qs : List Piece}
      (hs : s ∈ op.spellings) (hleft : Composed left ps) (hright : Composed right qs) :
      Composed (.binary op left right) (ps ++ .plain s.toList :: qs)
  | behind {e : Expr} {gap : List Char} {ps : List Piece} (hgap : ∀ c ∈ gap, isSpace c = true)
      (h : Composed e ps) : Composed e (.plain gap :: ps)
  | before {e : Expr} {gap : List Char} {ps : List Piece} (hgap : ∀ c ∈ gap, isSpace c = true)
      (h : Composed e ps) : Composed e (ps ++ [.plain gap])

variable {c : Char} {cs rest : List Char} {e left : Expr} {n m L : Nat} {f inner : Step Expr}
  {ps qs : List Piece} {source : String}

/-! ## Reading and pieces -/

/-- What a reader takes off the front of the texts up to some length is composed of pieces. -/
def Composes (L : Nat) (f : Step Expr) : Prop :=
  ∀ ⦃cs e rest⦄, cs.length < L → f cs = .done e rest → ∃ ps, Composed e ps ∧ cs = spell ps ++ rest

/-- The spellings of a table are those of its operators. -/
def IsTable (level : List (Spelling × BinaryOp)) : Prop :=
  ∀ w ∈ level, ∃ s ∈ w.2.spellings, s.toList = w.1.chars

lemma isTable_levels : ∀ level ∈ levels, IsTable level := by
  unfold IsTable
  decide

lemma Composes.chain (h : Composes L f) {level : List (Spelling × BinaryOp)}
    (hlevel : IsTable level) : Composes L (chain level f) := by
  intro cs e rest hcs hread
  rw [Expression.chain] at hread
  split at hread
  · next left tail hleft =>
    refine chainFrom_induction (motive := fun e rest => ∃ ps, Composed e ps ∧ cs = spell ps ++ rest)
      hread (h hcs hleft) fun {left cs' op more right after} hcomposed hoperator hright => ?_
    obtain ⟨ps, hps, rfl⟩ := hcomposed
    obtain ⟨w, tail', hw, hdrop, rfl⟩ := operator_taken hoperator
    obtain ⟨s, hs, hspelled⟩ := hlevel _ hw
    obtain ⟨gap, hgap, htext⟩ := skipSpaces_taken cs'
    obtain ⟨gap', hgap', htext'⟩ := skipSpaces_taken tail'
    rw [drop?_taken hdrop] at htext
    have hlength : (skipSpaces tail').length < L := by
      have hskip' := length_skipSpaces_le tail'
      rw [List.length_append, htext, List.length_append, List.length_append] at hcs
      omega
    obtain ⟨qs, hqs, htail⟩ := h hlength hright
    refine ⟨_, .binary hs (.before hgap hps) (.behind hgap' hqs), ?_⟩
    rw [htext, htext', htail, ← hspelled]
    simp
  · next hother => exact absurd hread (hother e rest)

lemma Composes.tower (h : Composes L f) : Composes L (tower f) := by
  have hfold : ∀ ls : List (List (Spelling × BinaryOp)), (∀ level ∈ ls, IsTable level) →
      Composes L (ls.foldr Expression.chain f) := by
    intro ls hls
    induction ls with
    | nil => exact h
    | cons level ls ih =>
      obtain ⟨hlevel, hls⟩ := List.forall_mem_cons.1 hls
      exact (ih hls).chain hlevel
  exact hfold levels isTable_levels

/-- An expression between brackets is composed of pieces up to the closing one. -/
lemma Composes.enclosed (h : Composes L inner) (hinner : Regular inner) (hcs : cs.length < L)
    {closing : Char} (hread : enclosed inner closing cs = .done e rest) :
    ∃ ps after, Composed e ps ∧ cs = spell ps ++ closing :: rest ∧
      inner cs = .done e after ∧ skipSpaces after = closing :: rest := by
  obtain ⟨after, hread, hafter⟩ := enclosed_cases hread
  rw [hinner.skips] at hread
  obtain ⟨ps, hps, hcs⟩ := h hcs hread
  obtain ⟨gap, hgap, htext⟩ := skipSpaces_taken after
  rw [hafter] at htext
  refine ⟨_, after, .before hgap hps, ?_, hread, hafter⟩
  rw [hcs, htext]
  simp

lemma composes_primary (h : Composes n (operand n)) (hcs : cs.length ≤ n)
    (hread : primary (tower (operand n)) cs = .done e rest) :
    ∃ ps, Composed e ps ∧ cs = spell ps ++ rest := by
  have htower := (regular_operand n).tower
  obtain ⟨after, rfl, halternative⟩ := primary_cases hread
  obtain ⟨front, hfront, hcs'⟩ := skipSpaces_taken cs
  obtain ⟨back, hback, hafter⟩ := skipSpaces_taken after
  have hlength := length_skipSpaces_le cs
  obtain ⟨ps, hps, htoken⟩ : ∃ ps, Composed e ps ∧ skipSpaces cs = spell ps ++ after := by
    cases halternative with
    | number hm =>
      obtain ⟨taken, htoken, -⟩ := number_taken hm
      rw [htoken] at hm
      exact ⟨_, .number hm, by rw [htoken]; simp⟩
    | string hs =>
      obtain ⟨quote, body, -, htoken, halone⟩ := stringLiteral_taken hs
      have hstring := halone []
      rw [List.append_nil] at hstring
      exact ⟨_, .string hstring, by rw [htoken]; simp⟩
    | constant hconstant =>
      obtain ⟨w, v, hw, rfl, htoken⟩ := constant_taken hconstant
      exact ⟨_, .constant hw, by rw [htoken]; simp⟩
    | @reference _ tail _ htail hread =>
      rw [htail, List.length_cons, List.length_cons] at hlength
      obtain ⟨ps, behind, hps, rfl, hbehind, hskip⟩ :=
        h.tower.enclosed htower (by omega) hread
      have hbrace : skipSpaces ('\x7d' :: after) = '\x7d' :: after := skipSpaces_cons (by decide)
      rw [List.length_append] at hlength
      have hparse := parse_of_tower (closed_brace after) (by omega) hbehind (hskip.trans hbrace.symm)
      exact ⟨_, .reference hps rfl hparse, by rw [htail]; simp⟩
    | @parentheses _ tail _ htail hread =>
      rw [htail, List.length_cons] at hlength
      obtain ⟨ps, behind, hps, rfl, -⟩ :=
        h.tower.enclosed htower (by omega) hread
      exact ⟨_, .parentheses hps, by rw [htail]; simp⟩
    | path hpath =>
      obtain ⟨head, more, rfl, hhead, hmore, htoken⟩ := path_taken hpath
      exact ⟨_, .path hhead hmore, by rw [htoken]; simp⟩
  refine ⟨_, .behind hfront (.before hback hps), ?_⟩
  calc cs = front ++ (spell ps ++ (back ++ skipSpaces after)) := by rw [← hafter, ← htoken, ← hcs']
    _ = _ := by simp

lemma composes_operand (n : Nat) : Composes n (operand n) := by
  induction n with
  | zero => nofun
  | succ n ih =>
    intro cs e rest hcs hread
    obtain ⟨gap, hgap, hcs'⟩ := skipSpaces_taken cs
    have hlength := length_skipSpaces_le cs
    rcases operand_cases hread with ⟨op, s, hs, tail, arg, htail, harg, rfl⟩ | hread
    · have hspelled : 0 < s.toList.length := by
        have hall : ∀ op, ∀ s ∈ UnaryOp.spellings op, 0 < s.toList.length := by
          rintro (_ | _) <;> decide
        exact hall op s hs
      rw [htail, List.length_append] at hlength
      obtain ⟨ps, hps, rfl⟩ := ih (by omega) harg
      refine ⟨_, .behind hgap (.unary hs hps), ?_⟩
      rw [hcs', htail]
      simp
    · obtain ⟨ps, hps, htext⟩ := composes_primary ih (by omega) hread
      refine ⟨_, .behind hgap hps, ?_⟩
      rw [hcs', htext]
      simp

/-- **Pieces.** Every text that is read as an expression is composed of pieces that make up this
expression. -/
theorem exists_composed (h : parse source = some e) :
    ∃ ps, Composed e ps ∧ spell ps = source.toList := by
  rw [← String.ofList_toList (s := source)] at h
  obtain ⟨rest, hread, hrest⟩ := (parse_eq_some (Nat.lt_succ_self _)).1 h
  have hcomposes := (composes_operand (source.toList.length + 1)).tower
  obtain ⟨ps, hps, htext⟩ := hcomposes (Nat.lt_succ_self _) hread
  refine ⟨_, .before (List.dropWhile_eq_nil_iff.1 hrest) hps, ?_⟩
  rw [htext]
  simp

/-! ## Marks -/

/-- The characters that start a reference or a string, or end one. -/
def isMark (c : Char) : Bool := c == '$' || c == '\x7d' || isQuote c

lemma not_isMark_of_isNumeric (hc : isNumeric c = true) : isMark c = false := by
  by_contra hmark
  rw [Bool.not_eq_false] at hmark
  simp only [isMark, isQuote, Bool.or_eq_true, beq_iff_eq] at hmark
  rcases hmark with (rfl | rfl) | rfl | rfl <;> exact absurd hc (by decide)

lemma not_isMark_of_isWordChar (hc : isWordChar c = true) : isMark c = false :=
  not_isMark_of_isNumeric (by simp [isNumeric, hc])

lemma not_isBlank_of_isMark (hc : isMark c = true) : isBlank c = false := by
  simp only [isMark, isQuote, Bool.or_eq_true, beq_iff_eq] at hc
  rcases hc with (rfl | rfl) | rfl | rfl <;> decide

/-- Marks stand in strings and in references only, and a string stands between its quotes. -/
def Piece.Proper : Piece → Prop
  | .plain text => ∀ c ∈ text, isMark c = false
  | .path text => ∀ c ∈ text, isMark c = false
  | .quoted text => ∃ quote body, isQuote quote = true ∧ text = quote :: (body ++ [quote])
  | .reference _ => True

lemma isNumeric_of_isWordy (hcs : isWordy cs = true) : ∀ c ∈ cs, isNumeric c = true := by
  intro c hc
  rw [isWordy, List.all_eq_true] at hcs
  rw [isNumeric, hcs c hc]
  rfl

lemma isSegment_chars {s : String} (hs : IsSegment s) : ∀ c ∈ s.toList, isWordChar c = true := by
  rcases hs with hid | ⟨-, hdigits⟩
  · exact hid.isWordChar
  · exact fun c hc => isWordChar_of_isDigit (hdigits c hc)

lemma Composed.proper (h : Composed e ps) : ∀ p ∈ ps, p.Proper := by
  have hspace : ∀ {gap : List Char}, (∀ c ∈ gap, isSpace c = true) →
      Piece.Proper (.plain gap) := fun hgap c hc => by
    rcases isSpace_cases (hgap c hc) with rfl | rfl | rfl | rfl <;> decide
  induction h with
  | @number ds rest m h =>
    obtain ⟨taken, htaken, -, hnumeric⟩ := number_taken h
    obtain rfl := List.append_cancel_right htaken
    exact List.forall_mem_singleton.2 fun c hc => not_isMark_of_isNumeric (hnumeric c hc)
  | string h =>
    obtain ⟨quote, body, hquote, htext, -⟩ := stringLiteral_taken h
    rw [List.append_nil] at htext
    exact List.forall_mem_singleton.2 ⟨quote, body, hquote, htext⟩
  | @constant w v h =>
    have hall : ∀ w ∈ constants, ∀ c ∈ w.1.chars, isMark c = false := by decide
    exact List.forall_mem_singleton.2 (hall _ h)
  | @path head more hhead hmore =>
    have hnumeric := isNumeric_of_isWordy (isWordy_pathToken hhead hmore)
    exact List.forall_mem_singleton.2 fun c hc => not_isMark_of_isNumeric (hnumeric c hc)
  | reference => exact List.forall_mem_singleton.2 trivial
  | parentheses _ ih =>
    exact List.forall_mem_cons.2 ⟨by unfold Piece.Proper; decide, List.forall_mem_append.2
      ⟨ih, List.forall_mem_singleton.2 (by unfold Piece.Proper; decide)⟩⟩
  | @unary op s arg ps hs _ ih =>
    have hall : ∀ op, ∀ s ∈ UnaryOp.spellings op, ∀ c ∈ s.toList, isMark c = false := by
      rintro (_ | _) <;> decide
    exact List.forall_mem_cons.2 ⟨hall op s hs, ih⟩
  | @binary op s left right ps qs hs _ _ ihleft ihright =>
    have hall : ∀ s ∈ op.spellings, ∀ c ∈ s.toList, isMark c = false := by cases op <;> decide
    exact List.forall_mem_append.2 ⟨ihleft, List.forall_mem_cons.2 ⟨hall s hs, ihright⟩⟩
  | behind hgap _ ih => exact List.forall_mem_cons.2 ⟨hspace hgap, ih⟩
  | before hgap _ ih =>
    exact List.forall_mem_append.2 ⟨ih, List.forall_mem_singleton.2 (hspace hgap)⟩

/-- The paths of an expression are made of letters, digits and underscores. -/
lemma Composed.words (h : Composed e ps) :
    ∀ p ∈ e.allPaths, ∀ s ∈ p, ∀ c ∈ s.toList, isWordChar c = true := by
  induction h with
  | number | string | constant => nofun
  | path hhead hmore =>
    refine List.forall_mem_singleton.2 (List.forall_mem_cons.2 ⟨hhead.isWordChar, ?_⟩)
    exact fun s hs => isSegment_chars (hmore s hs)
  | reference _ _ _ ih | parentheses _ ih | unary _ _ ih | behind _ _ ih | before _ _ ih => exact ih
  | binary _ _ _ ihleft ihright => exact List.forall_mem_append.2 ⟨ihleft, ihright⟩

/-! ## White space around expressions -/

/-- A text that is not empty and has no white space at either end. -/
def Firm (text : List Char) : Prop :=
  text ≠ [] ∧ (∀ c ∈ text.head?, isBlank c = false) ∧ ∀ c ∈ text.getLast?, isBlank c = false

lemma firm_of_forall {text : List Char} (hne : text ≠ []) (h : ∀ c ∈ text, isBlank c = false) :
    Firm text :=
  ⟨hne, fun c hc => h c (List.mem_of_mem_head? hc), fun c hc => h c (List.mem_of_mem_getLast? hc)⟩

lemma firm_of_isWordy (hne : cs ≠ []) (hcs : isWordy cs = true) : Firm cs :=
  firm_of_forall hne fun c hc => not_isBlank_of_isNumeric (isNumeric_of_isWordy hcs c hc)

lemma Firm.append {front back : List Char} (hfront : Firm front) (mid : List Char)
    (hback : Firm back) : Firm (front ++ (mid ++ back)) := by
  have hne : mid ++ back ≠ [] := List.append_ne_nil_of_right_ne_nil mid hback.1
  refine ⟨List.append_ne_nil_of_left_ne_nil hfront.1 _, ?_, ?_⟩
  · rw [List.head?_append_of_ne_nil _ hfront.1]
    exact hfront.2.1
  · rw [List.getLast?_append_of_ne_nil _ hne, List.getLast?_append_of_ne_nil _ hback.1]
    exact hback.2.2

/-- A text that is read as an expression is firm but for white space that the grammar skips. -/
def Framed (text : List Char) : Prop :=
  ∃ lead core trail, text = lead ++ (core ++ trail) ∧ (∀ c ∈ lead, isSpace c = true) ∧
    (∀ c ∈ trail, isSpace c = true) ∧ Firm core

lemma Firm.framed {text : List Char} (h : Firm text) : Framed text :=
  ⟨[], text, [], by simp, nofun, nofun, h⟩

/-- What stands between two characters that are no white space is firm with them. -/
lemma framed_between {a z : Char} (hfirst : isBlank a = false) (hlast : isBlank z = false)
    (mid : List Char) : Framed (a :: (mid ++ [z])) := by
  have hone : ∀ {c : Char}, isBlank c = false → Firm [c] := fun hc =>
    firm_of_forall (List.cons_ne_nil _ _) (List.forall_mem_singleton.2 hc)
  exact ((hone hfirst).append mid (hone hlast)).framed

lemma Composed.framed (h : Composed e ps) : Framed (spell ps) := by
  induction h with
  | @number ds rest m h =>
    obtain ⟨taken, htaken, hne, hnumeric⟩ := number_taken h
    obtain rfl := List.append_cancel_right htaken
    have hfirm := firm_of_forall hne fun c hc => not_isBlank_of_isNumeric (hnumeric c hc)
    simpa using hfirm.framed
  | string h =>
    obtain ⟨quote, body, hquote, htext, -⟩ := stringLiteral_taken h
    rw [List.append_nil] at htext
    have hblank : isBlank quote = false := by
      rcases isQuote_cases hquote with rfl | rfl <;> decide
    rw [htext]
    simpa using framed_between hblank hblank body
  | @constant w v h =>
    have hall : ∀ w ∈ constants, w.1.chars ≠ [] ∧ ∀ c ∈ w.1.chars, isBlank c = false := by decide
    have hfirm := firm_of_forall (hall _ h).1 (hall _ h).2
    simpa using hfirm.framed
  | @path head more hhead hmore =>
    have hfirm := firm_of_isWordy (pathToken_ne_nil hhead more) (isWordy_pathToken hhead hmore)
    simpa using hfirm.framed
  | @reference e ps body _ _ _ _ =>
    simpa using framed_between (a := '$') (z := '\x7d') (by decide) (by decide) ('\x7b' :: body)
  | @parentheses e ps _ _ =>
    simpa using framed_between (a := '(') (z := ')') (by decide) (by decide) (spell ps)
  | @unary op s arg ps hs _ ih =>
    obtain ⟨lead, core, trail, htext, hlead, htrail, hcore⟩ := ih
    have hall : ∀ op, ∀ s ∈ UnaryOp.spellings op,
        s.toList ≠ [] ∧ ∀ c ∈ s.toList, isBlank c = false := by
      rintro (_ | _) <;> decide
    have hsign := firm_of_forall (hall op s hs).1 (hall op s hs).2
    exact ⟨[], s.toList ++ (lead ++ core), trail, by simp [htext], nofun, htrail,
      hsign.append lead hcore⟩
  | @binary op s left right ps qs hs _ _ ihleft ihright =>
    obtain ⟨lead, core, trail, htext, hlead, htrail, hcore⟩ := ihleft
    obtain ⟨lead', core', trail', htext', hlead', htrail', hcore'⟩ := ihright
    refine ⟨lead, core ++ ((trail ++ s.toList ++ lead') ++ core'), trail', ?_, hlead, htrail',
      hcore.append _ hcore'⟩
    simp [htext, htext']
  | @behind e gap ps hgap _ ih =>
    obtain ⟨lead, core, trail, htext, hlead, htrail, hcore⟩ := ih
    exact ⟨gap ++ lead, core, trail, by simp [htext], List.forall_mem_append.2 ⟨hgap, hlead⟩,
      htrail, hcore⟩
  | @before e gap ps hgap _ ih =>
    obtain ⟨lead, core, trail, htext, hlead, htrail, hcore⟩ := ih
    exact ⟨lead, core, trail ++ gap, by simp [htext], hlead,
      List.forall_mem_append.2 ⟨htrail, hgap⟩, hcore⟩

/-! ## Trimming -/

lemma isBlank_of_forall_isSpace {gap : List Char} (hgap : ∀ c ∈ gap, isSpace c = true) :
    ∀ c ∈ gap, isBlank c = true := fun c hc => isBlank_of_isSpace (hgap c hc)

lemma dropWhile_firm {x : List Char} (hgap : ∀ c ∈ cs, isBlank c = true) (hx : x ≠ [])
    (hhead : ∀ c ∈ x.head?, isBlank c = false) : (cs ++ x).dropWhile isBlank = x := by
  rw [List.dropWhile_append_of_pos hgap]
  obtain ⟨c, tail, rfl⟩ := List.exists_cons_of_ne_nil hx
  exact List.dropWhile_cons_of_neg (by simp [hhead c rfl])

lemma trimChars_framed {lead core trail : List Char} (hlead : ∀ c ∈ lead, isBlank c = true)
    (htrail : ∀ c ∈ trail, isBlank c = true) (hcore : Firm core) :
    trimChars (lead ++ (core ++ trail)) = core := by
  obtain ⟨hne, hhead, hlast⟩ := hcore
  have hfront : (lead ++ (core ++ trail)).dropWhile isBlank = core ++ trail :=
    dropWhile_firm hlead (List.append_ne_nil_of_left_ne_nil hne _)
      (by rwa [List.head?_append_of_ne_nil _ hne])
  rw [trimChars, hfront, List.reverse_append,
    dropWhile_firm (by simpa using htrail) (by simpa using hne) (by rwa [List.head?_reverse]),
    List.reverse_reverse]

/-- White space around an expression does not matter, and there is an expression inside of it. -/
lemma parse_trimChars (h : parse (String.ofList cs) = some e) :
    trimChars cs ≠ [] ∧ parse (String.ofList (trimChars cs)) = some e := by
  obtain ⟨ps, hps, htext⟩ := exists_composed h
  obtain ⟨lead, core, trail, hframe, hlead, htrail, hcore⟩ := hps.framed
  rw [htext, String.toList_ofList] at hframe
  subst hframe
  rw [trimChars_framed (isBlank_of_forall_isSpace hlead) (isBlank_of_forall_isSpace htrail) hcore]
  refine ⟨hcore.1, ?_⟩
  obtain ⟨tail, hread, htail⟩ := (parse_eq_some (Nat.lt_succ_self _)).1 h
  have hblank : skipSpaces trail = [] := List.dropWhile_eq_nil_iff.2 htrail
  have hclosed : Closed trail := closed_of_blank (isBlank_of_forall_isSpace htrail)
  rw [← (regular_operand _).tower.skips, skipSpaces_append hlead,
    (regular_operand _).tower.skips] at hread
  exact parse_of_tower hclosed (by simp only [List.length_append]; omega) hread
    (htail.trans hblank.symm)

/-- In front of an expression there is no white space but that which the grammar skips. -/
lemma skipSpaces_of_parse (h : parse (String.ofList cs) = some e) :
    skipSpaces cs ≠ [] ∧ cs.dropWhile isBlank = skipSpaces cs := by
  obtain ⟨ps, hps, htext⟩ := exists_composed h
  obtain ⟨lead, core, trail, hframe, hlead, -, hne, hhead, -⟩ := hps.framed
  rw [htext, String.toList_ofList] at hframe
  have hhead' : ∀ c ∈ (core ++ trail).head?, isBlank c = false := by
    rwa [List.head?_append_of_ne_nil _ hne]
  have hne' : core ++ trail ≠ [] := List.append_ne_nil_of_left_ne_nil hne _
  have hskip : skipSpaces cs = core ++ trail := by
    obtain ⟨c, tail, hcons⟩ := List.exists_cons_of_ne_nil hne'
    rw [hcons] at hhead'
    have hspace : isSpace c = false := by
      by_contra hspace
      have hc := hhead' c rfl
      rw [isBlank_of_isSpace (by simpa using hspace)] at hc
      cases hc
    rw [hframe, skipSpaces_append hlead, hcons, skipSpaces_cons hspace]
  rw [hskip, hframe]
  exact ⟨hne', dropWhile_firm (isBlank_of_forall_isSpace hlead) hne' hhead'⟩

end ProcessEngine.Expression

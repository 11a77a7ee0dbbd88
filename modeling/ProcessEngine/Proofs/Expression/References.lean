import ProcessEngine.Expression.Source
import ProcessEngine.Proofs.Expression.Pieces

/-!
# References of a text

The paths that a text refers to are found without the grammar, block by block, and each block goes up
to the next closing brace.  This gives the paths of the expression just where every reference of the
text goes up to its first closing brace too (`references_iff_flat`): a brace inside of a reference,
of another reference or in a string, cuts its block short, and what is left of it is listed as it
stands.
-/

namespace ProcessEngine.Expression

open ProcessEngine.Text ProcessEngine.Json

variable {c : Char} {cs rest body x y u v : List Char} {e : Expr} {n : Nat} {ps qs : List Piece}
  {source : String} {found : List String}

/-! ## Blocks -/

lemma blocks_cons (h : ∀ tail, c :: rest ≠ '$' :: '\x7b' :: tail) (n : Nat) :
    blocks (n + 1) (c :: rest) = blocks n rest := by
  rw [blocks.eq_def]
  split
  · next m tail hn hcs => exact absurd hcs (h tail)
  · next m d tail _ hn hcs =>
    cases hn
    cases hcs
    rfl
  · next hother => exact absurd rfl (hother n c rest rfl)

/-- A part of a text that opens no reference holds no block. -/
lemma blocks_skip (hopen : ¬['$', '\x7b'] <:+: u) (hlast : ∀ c ∈ u.getLast?, c ≠ '$') (n : Nat)
    (v : List Char) : blocks (u.length + n) (u ++ v) = blocks n v := by
  induction u with
  | nil => simp
  | cons c u ih =>
    have hlength : (c :: u).length + n = u.length + n + 1 := by rw [List.length_cons]; omega
    have hne : ∀ tail, c :: (u ++ v) ≠ '$' :: '\x7b' :: tail := by
      rintro tail hsplit
      obtain ⟨rfl, hbehind⟩ := List.cons.inj hsplit
      cases u with
      | nil => exact hlast '$' rfl rfl
      | cons d u =>
        obtain ⟨rfl, -⟩ := List.cons.inj hbehind
        exact hopen ⟨[], u, rfl⟩
    rw [hlength, List.cons_append, blocks_cons hne]
    refine ih (fun h => hopen (h.trans (List.suffix_cons c u).isInfix)) ?_
    cases u with
    | nil => nofun
    | cons d u => simpa using hlast

/-- A block goes up to the next closing brace. -/
lemma blocks_reference (hbody : '\x7d' ∉ body) (n : Nat) (v : List Char) :
    blocks (n + 1) ('$' :: '\x7b' :: (body ++ '\x7d' :: v)) = body :: blocks n v := by
  have hrun : ∀ c ∈ body, (c != '\x7d') = true := fun c hc => by
    rw [bne_iff_ne]
    rintro rfl
    exact hbody hc
  have hstop : ∀ c ∈ ('\x7d' :: v).head?, (c != '\x7d') = false := by simp
  obtain ⟨htake, hdrop⟩ := span_append hrun hstop
  rw [blocks, hdrop, htake]

/-! ## Blocks and pieces -/

/-- What stands between the braces of a reference. -/
def Piece.body? : Piece → Option (List Char)
  | .reference body => some body
  | _ => none

/-- The bodies of the references of a text. -/
def bodies (ps : List Piece) : List (List Char) := ps.filterMap Piece.body?

/-- All paths stand inside of references. -/
def Guarded (ps : List Piece) : Prop := ∀ text, .path text ∉ ps

/-- No string outside of references looks as if it opened one. -/
def Unfeigned (ps : List Piece) : Prop := ∀ text, .quoted text ∈ ps → ¬['$', '\x7b'] <:+: text

/-- No reference holds a closing brace. -/
def Flat (ps : List Piece) : Prop := ∀ body, .reference body ∈ ps → '\x7d' ∉ body

lemma Guarded.subset (h : Guarded ps) (hsubset : qs ⊆ ps) : Guarded qs :=
  fun text ht => h text (hsubset ht)

lemma Unfeigned.subset (h : Unfeigned ps) (hsubset : qs ⊆ ps) : Unfeigned qs :=
  fun text ht => h text (hsubset ht)

lemma Flat.subset (h : Flat ps) (hsubset : qs ⊆ ps) : Flat qs := fun body hb => h body (hsubset hb)

@[simp] lemma bodies_plain (text : List Char) (ps : List Piece) :
    bodies (.plain text :: ps) = bodies ps := rfl

@[simp] lemma bodies_append (ps qs : List Piece) : bodies (ps ++ qs) = bodies ps ++ bodies qs :=
  List.filterMap_append

lemma not_infix_of_not_isMark (hu : ∀ c ∈ u, isMark c = false) : ¬['$', '\x7b'] <:+: u := fun h =>
  absurd (hu '$' (h.subset List.mem_cons_self)) (by decide)

/-- Apart from references, no piece opens a block. -/
lemma blocks_piece {p : Piece} (hp : p.Proper) (hbody : p.body? = none)
    (hopen : ∀ text, p = .quoted text → ¬['$', '\x7b'] <:+: text) (n : Nat) (v : List Char) :
    blocks (p.text.length + n) (p.text ++ v) = blocks n v := by
  have hplain : ∀ {u}, (∀ c ∈ u, isMark c = false) → blocks (u.length + n) (u ++ v) = blocks n v :=
    fun hu => blocks_skip (not_infix_of_not_isMark hu) (fun c hc => by
      rintro rfl
      exact absurd (hu '$' (List.mem_of_mem_getLast? hc)) (by decide)) n v
  cases p with
  | plain text | path text => exact hplain hp
  | quoted text =>
    obtain ⟨quote, body, hquote, rfl⟩ := hp
    refine blocks_skip (hopen _ rfl) (fun c hc => ?_) n v
    obtain rfl : quote = c := by
      rw [← List.cons_append, List.getLast?_concat] at hc
      exact Option.some.inj hc
    rcases isQuote_cases hquote with rfl | rfl <;> decide
  | reference body => cases hbody

lemma spell_reference (body : List Char) (ps : List Piece) :
    spell (.reference body :: ps) = '$' :: '\x7b' :: (body ++ '\x7d' :: spell ps) := by simp

/-- A piece adds the body of its reference to the blocks, if it is one, and nothing if it is none. -/
lemma exists_blocks_cons {p : Piece} (hp : p.Proper)
    (hopen : ∀ text, p = .quoted text → ¬['$', '\x7b'] <:+: text)
    (hflat : ∀ body, p = .reference body → '\x7d' ∉ body) (hn : (spell (p :: ps)).length ≤ n) :
    ∃ m, (spell ps).length ≤ m ∧
      blocks n (spell (p :: ps)) = p.body?.toList ++ blocks m (spell ps) := by
  rw [spell_cons, List.length_append] at hn
  cases hbody : p.body? with
  | none =>
    obtain ⟨n, rfl⟩ := Nat.exists_eq_add_of_le hn
    refine ⟨(spell ps).length + n, Nat.le_add_right _ _, ?_⟩
    rw [spell_cons, Nat.add_assoc, blocks_piece hp hbody hopen]
    rfl
  | some body =>
    cases p with
    | plain | quoted | path => cases hbody
    | reference body =>
      cases hbody
      simp only [Piece.text, List.length_cons] at hn
      obtain ⟨n, rfl⟩ : ∃ m, n = m + 1 := Nat.exists_eq_succ_of_ne_zero (by omega)
      refine ⟨n, by omega, ?_⟩
      rw [spell_reference, blocks_reference (hflat body rfl)]
      rfl

lemma bodies_cons (p : Piece) (ps : List Piece) : bodies (p :: ps) = p.body?.toList ++ bodies ps := by
  cases p <;> rfl

/-- The blocks of a text are the bodies of its references, if none of them is cut short. -/
lemma blocks_spell (hproper : ∀ p ∈ ps, p.Proper) (hopen : Unfeigned ps) (hflat : Flat ps)
    (hn : (spell ps).length ≤ n) : blocks n (spell ps) = bodies ps := by
  induction ps generalizing n with
  | nil => cases n <;> rfl
  | cons p ps ih =>
    obtain ⟨hp, hproper⟩ := List.forall_mem_cons.1 hproper
    have hsubset := List.subset_cons_self p ps
    obtain ⟨m, hm, hblocks⟩ := exists_blocks_cons hp
      (fun text ht => hopen text (ht ▸ List.mem_cons_self))
      (fun body hbody => hflat body (hbody ▸ List.mem_cons_self)) hn
    rw [hblocks, ih hproper (hopen.subset hsubset) (hflat.subset hsubset) hm, bodies_cons]

/-- Otherwise some block ends at a brace inside of a reference. -/
lemma exists_block_of_not_flat (hproper : ∀ p ∈ ps, p.Proper) (hopen : Unfeigned ps)
    (hflat : ¬Flat ps) (hn : (spell ps).length ≤ n) :
    ∃ x y, '\x7d' ∉ x ∧ .reference (x ++ '\x7d' :: y) ∈ ps ∧ x ∈ blocks n (spell ps) := by
  induction ps generalizing n with
  | nil => exact absurd nofun hflat
  | cons p ps ih =>
    obtain ⟨hp, hproper⟩ := List.forall_mem_cons.1 hproper
    by_cases hfirst : ∃ body, p = .reference body ∧ '\x7d' ∈ body
    · obtain ⟨body, rfl, hbrace⟩ := hfirst
      obtain ⟨x, y, rfl, hx⟩ := List.eq_append_cons_of_mem hbrace
      simp only [spell_cons, Piece.text, List.cons_append, List.length_cons] at hn
      obtain ⟨n, rfl⟩ : ∃ m, n = m + 1 := Nat.exists_eq_succ_of_ne_zero (by omega)
      refine ⟨x, y, hx, List.mem_cons_self, ?_⟩
      rw [spell_reference, List.append_assoc, List.cons_append, blocks_reference hx]
      exact List.mem_cons_self
    · have hrest : ¬Flat ps := fun hps => hflat <| by
        intro body hbody
        rcases List.mem_cons.1 hbody with rfl | hbody
        · exact fun hbrace => hfirst ⟨body, rfl, hbrace⟩
        · exact hps body hbody
      obtain ⟨m, hm, hblocks⟩ := exists_blocks_cons hp
        (fun text ht => hopen text (ht ▸ List.mem_cons_self))
        (fun body hbody hbrace => hfirst ⟨body, hbody, hbrace⟩) hn
      obtain ⟨x, y, hx, hmem, hblock⟩ :=
        ih hproper (hopen.subset (List.subset_cons_self p ps)) hrest hm
      refine ⟨x, y, hx, List.mem_cons_of_mem _ hmem, ?_⟩
      rw [hblocks]
      exact List.mem_append_right _ hblock

/-! ## Lists of paths -/

lemma collectPaths_binary (op : BinaryOp) (left right : Expr) (found : List String) :
    (Expr.binary op left right).collectPaths found =
      right.collectPaths (left.collectPaths found) := by
  rw [Expr.collectPaths, Expr.allPaths, List.map_append, List.foldl_append]
  rfl

/-- Adding the blocks of the references one by one adds the paths of the expression. -/
lemma Composed.foldl_addBlock (h : Composed e ps) (hguarded : Guarded ps) (found : List String) :
    (bodies ps).foldl addBlock found = e.collectPaths found := by
  induction h generalizing found with
  | number | string | constant => rfl
  | @path head more =>
    exact absurd List.mem_cons_self (hguarded (pathToken head more))
  | @reference e ps body _ _ hparse _ =>
    obtain ⟨hne, htrimmed⟩ := parse_trimChars hparse
    change addBlock found body = _
    rw [addBlock]
    split
    · next hnil => exact absurd hnil hne
    · rw [htrimmed]
  | parentheses _ ih =>
    rw [bodies_plain, bodies_append, bodies_plain, List.foldl_append]
    exact ih (hguarded.subset (by simp)) found
  | unary _ _ ih | behind _ _ ih =>
    rw [bodies_plain]
    exact ih (hguarded.subset (by simp)) found
  | binary _ _ _ ihleft ihright =>
    rw [bodies_append, bodies_plain, List.foldl_append, ihleft (hguarded.subset (by simp)),
      ihright (hguarded.subset (by simp)), collectPaths_binary]
  | before _ _ ih =>
    rw [bodies_append, List.foldl_append]
    exact ih (hguarded.subset (by simp)) found

lemma mem_addNew {t u : String} : u ∈ addNew found t ↔ u ∈ found ∨ u = t := by
  rw [addNew]
  split_ifs with h
  · have ht : t ∈ found := by simpa using h
    constructor
    · exact .inl
    · rintro (hu | rfl)
      · exact hu
      · exact ht
  · simp

lemma mem_foldl_addNew {texts : List String} {u : String} :
    u ∈ texts.foldl addNew found ↔ u ∈ found ∨ u ∈ texts := by
  induction texts generalizing found with
  | nil => simp
  | cons t texts ih => simp [ih, mem_addNew, or_assoc]

lemma mem_addBlock_of_mem {t : String} (h : t ∈ found) (body : List Char) :
    t ∈ addBlock found body := by
  rw [addBlock]
  split
  · exact h
  · split
    · exact mem_foldl_addNew.2 (.inl h)
    · exact mem_addNew.2 (.inl h)

/-- A block that is no expression is listed as it stands. -/
lemma mem_addBlock_of_parse_none (hne : trimChars body ≠ [])
    (h : parse (String.ofList (trimChars body)) = none) :
    String.ofList (trimChars body) ∈ addBlock found body := by
  rw [addBlock]
  split
  · next hnil => exact absurd hnil hne
  · rw [h]
    exact mem_addNew.2 (.inr rfl)

lemma mem_foldl_addBlock {parts : List (List Char)} (hbody : body ∈ parts)
    (hne : trimChars body ≠ []) (h : parse (String.ofList (trimChars body)) = none) :
    String.ofList (trimChars body) ∈ parts.foldl addBlock found := by
  obtain ⟨before, after, rfl⟩ := List.append_of_mem hbody
  rw [List.foldl_append, List.foldl_cons]
  generalize hbefore : before.foldl addBlock found = listed
  have hmem : String.ofList (trimChars body) ∈ addBlock listed body :=
    mem_addBlock_of_parse_none hne h
  generalize addBlock listed body = listed' at hmem
  clear hbefore hbody
  induction after generalizing listed' with
  | nil => exact hmem
  | cons more after ih => exact ih _ (mem_addBlock_of_mem hmem more)

lemma mem_joinChars {sep : Char} {parts : List (List Char)} (h : c ∈ joinChars sep parts) :
    c = sep ∨ ∃ part ∈ parts, c ∈ part := by
  induction parts with
  | nil => cases h
  | cons part more ih =>
    cases more with
    | nil => exact .inr ⟨part, List.mem_cons_self, h⟩
    | cons next more =>
      rcases List.mem_append.1 h with hpart | hmore
      · exact .inr ⟨part, List.mem_cons_self, hpart⟩
      · rcases List.mem_cons.1 hmore with hsep | hmore
        · exact .inl hsep
        · exact (ih hmore).imp_right fun ⟨part', hpart', hc⟩ =>
            ⟨part', List.mem_cons_of_mem _ hpart', hc⟩

/-- There is no mark in the path of an expression. -/
lemma Composed.not_isMark (h : Composed e ps) {t : String} (ht : t ∈ e.paths) :
    ∀ c ∈ t.toList, isMark c = false := by
  intro c hc
  rcases mem_foldl_addNew.1 ht with hnil | ht
  · cases hnil
  obtain ⟨p, hp, rfl⟩ := List.mem_map.1 ht
  rw [Text.join, String.toList_ofList] at hc
  rcases mem_joinChars hc with rfl | ⟨part, hpart, hc⟩
  · decide
  · obtain ⟨s, hs, rfl⟩ := List.mem_map.1 hpart
    exact not_isMark_of_isWordChar (h.words p hp s hs c hc)

/-! ## Blocks that are cut short -/

lemma exists_mark_of_cons {d : Char} {tail : List Char} (h : d :: tail = x ++ '\x7d' :: y)
    (hmark : isMark d = true) (hne : d ≠ '\x7d') : ∃ c ∈ x, isMark c = true := by
  cases x with
  | nil => exact absurd (List.cons.inj h).1 hne
  | cons c x =>
    obtain ⟨rfl, -⟩ := List.cons.inj h
    exact ⟨d, List.mem_cons_self, hmark⟩

/-- The first closing brace stands inside of a reference or of a string. -/
lemma exists_mark (hproper : ∀ p ∈ ps, p.Proper) (h : spell ps = x ++ '\x7d' :: y)
    (hx : '\x7d' ∉ x) : ∃ c ∈ x, isMark c = true := by
  induction ps generalizing x with
  | nil =>
    exact absurd h.symm (List.append_ne_nil_of_right_ne_nil _ (List.cons_ne_nil _ _))
  | cons p ps ih =>
    obtain ⟨hp, hproper⟩ := List.forall_mem_cons.1 hproper
    have hplain : ∀ {text}, (∀ c ∈ text, isMark c = false) → text ++ spell ps = x ++ '\x7d' :: y →
        ∃ c ∈ x, isMark c = true := fun {text} htext hsplit => by
      rcases List.append_eq_append_iff.1 hsplit with ⟨a, rfl, ha⟩ | ⟨a, rfl, ha⟩
      · obtain ⟨c, hc, hmark⟩ := ih hproper ha fun hbrace => hx (List.mem_append_right _ hbrace)
        exact ⟨c, List.mem_append_right _ hc, hmark⟩
      · cases a with
        | nil =>
          obtain ⟨c, hc, -⟩ := ih (x := []) hproper ha.symm List.not_mem_nil
          cases hc
        | cons d a =>
          obtain ⟨rfl, -⟩ := List.cons.inj ha
          have hbrace := htext '\x7d' (List.mem_append_right _ List.mem_cons_self)
          exact absurd hbrace (by decide)
    cases p with
    | plain text | path text => exact hplain hp h
    | quoted text =>
      obtain ⟨quote, body, hquote, rfl⟩ := hp
      refine exists_mark_of_cons h (by simp [isMark, hquote]) ?_
      rintro rfl
      exact absurd hquote (by decide)
    | reference body => exact exists_mark_of_cons h (by decide) (by decide)

lemma mem_trimChars (hc : c ∈ x) (hblank : isBlank c = false) : c ∈ trimChars x := by
  have hdrop : ∀ {l : List Char}, c ∈ l → c ∈ l.dropWhile isBlank := fun {l} hl => by
    rw [← List.takeWhile_append_dropWhile (p := isBlank) (l := l)] at hl
    rcases List.mem_append.1 hl with htake | hdrop
    · rw [List.mem_takeWhile_imp htake] at hblank
      cases hblank
    · exact hdrop
  rw [trimChars, List.mem_reverse]
  exact hdrop (List.mem_reverse.2 (hdrop hc))

lemma trimChars_taken (x : List Char) : ∃ l g, x = l ++ (trimChars x ++ g) ∧
    (∀ c ∈ l, isBlank c = true) ∧ ∀ c ∈ g, isBlank c = true := by
  refine ⟨x.takeWhile isBlank, ((x.dropWhile isBlank).reverse.takeWhile isBlank).reverse, ?_,
    fun c hc => List.mem_takeWhile_imp hc,
    fun c hc => List.mem_takeWhile_imp (List.mem_reverse.1 hc)⟩
  rw [trimChars, ← List.reverse_append, List.takeWhile_append_dropWhile, List.reverse_reverse,
    List.takeWhile_append_dropWhile]

/-- What is left of an expression before a closing brace is no expression: the reader would come to
the brace, and go no further. -/
lemma parse_cut (h : parse (String.ofList (x ++ '\x7d' :: y)) = some e) :
    parse (String.ofList (trimChars x)) = none := by
  cases hcut : parse (String.ofList (trimChars x)) with
  | none => rfl
  | some e' =>
    obtain ⟨l, g, hx, hl, hg⟩ := trimChars_taken x
    have hclosed : Closed (g ++ '\x7d' :: y) := .append hg (closed_brace y)
    have hbody : x ++ '\x7d' :: y = l ++ (trimChars x ++ (g ++ '\x7d' :: y)) := by
      conv_lhs => rw [hx]
      simp
    have hbrace : skipSpaces (g ++ '\x7d' :: y) ≠ [] :=
      List.ne_nil_of_length_pos ((Nat.zero_le _).trans_lt (length_lt_skipSpaces (by decide)))
    rw [hbody] at h
    generalize trimChars x = core at hcut h
    generalize g ++ '\x7d' :: y = t at hclosed hbrace h
    obtain ⟨hne, hcore⟩ := skipSpaces_of_parse hcut
    have hskip : skipSpaces (l ++ (core ++ t)) = skipSpaces (core ++ t) := by
      rw [← (skipSpaces_of_parse h).2, List.dropWhile_append_of_pos hl, List.dropWhile_append, hcore]
      rcases skipSpaces_append_cases core t with ⟨hnil, -⟩ | ⟨-, htext⟩
      · exact absurd hnil hne
      · rw [htext, if_neg (by simpa using hne)]
    obtain ⟨rest, hread, hrest⟩ := (parse_eq_some (Nat.lt_succ_self _)).1 h
    have htower := (regular_operand (l ++ (core ++ t)).length.succ).tower
    rw [← htower.skips, hskip, htower.skips] at hread
    obtain ⟨rest', hread', hrest'⟩ := tower_of_parse (n := (l ++ (core ++ t)).length.succ) hclosed
      (by simp only [List.length_append]; omega) hcut
    rw [hread] at hread'
    cases hread'
    exact absurd (hrest'.symm.trans hrest) hbrace

/-! ## Blocks and paths -/

lemma Composed.of_mem_reference (h : Composed e ps) (hbody : .reference body ∈ ps) :
    ∃ e' qs, Composed e' qs ∧ spell qs = body ∧ parse (String.ofList body) = some e' := by
  induction h with
  | number | string | constant | path => simp at hbody
  | @reference e ps body' h htext hparse _ =>
    obtain rfl : body = body' := by simpa using hbody
    exact ⟨e, ps, h, htext, hparse⟩
  | parentheses _ ih | unary _ _ ih | behind _ _ ih | before _ _ ih => exact ih (by simpa using hbody)
  | binary _ _ _ ihleft ihright =>
    rcases List.mem_append.1 hbody with hleft | hright
    · exact ihleft hleft
    · exact ihright (by simpa using hright)

/-- **References.** Every text that is read as an expression is composed of pieces.  If all paths
stand inside of references, and no string outside of them looks as if it opened one, then the paths
that the references of the text mention are those of the expression, in order of first appearance,
just if no reference holds a closing brace. -/
theorem references_iff_flat (h : parse source = some e) :
    (∃ ps, Composed e ps ∧ spell ps = source.toList) ∧
    ∀ ps, Composed e ps → spell ps = source.toList → Guarded ps → Unfeigned ps →
      (references source = e.paths ↔ Flat ps) := by
  refine ⟨exists_composed h, fun ps hps htext hguarded hopen => ⟨fun hpaths => ?_, fun hflat => ?_⟩⟩
  · by_contra hflat
    obtain ⟨x, y, hx, hmem, hblock⟩ :=
      exists_block_of_not_flat hps.proper hopen hflat (n := source.toList.length) (by rw [htext])
    obtain ⟨e', qs, hqs, hbody, hparse⟩ := hps.of_mem_reference hmem
    -- The block holds the start of a string or of another reference, so it is listed as it stands.
    obtain ⟨c, hc, hmark⟩ := exists_mark hqs.proper hbody hx
    have hc' : c ∈ trimChars x := mem_trimChars hc (not_isBlank_of_isMark hmark)
    have hlisted : String.ofList (trimChars x) ∈ references source := by
      rw [references]
      exact mem_foldl_addBlock (htext ▸ hblock) (List.ne_nil_of_mem hc') (parse_cut hparse)
    rw [hpaths] at hlisted
    have hnone := hps.not_isMark hlisted c (by rwa [String.toList_ofList])
    rw [hmark] at hnone
    cases hnone
  · rw [references, ← htext, blocks_spell hps.proper hopen hflat le_rfl, hps.foldl_addBlock hguarded]
    rfl

lemma composed_word {s : String} (hs : IsIdentifier s) : Composed (.path [s]) [.path s.toList] := by
  have h := Composed.path hs (List.forall_mem_nil IsSegment)
  rwa [pathToken, List.flatMap_nil, List.append_nil] at h

/-! ### A limit that is exceeded -/

lemma composed_x : Composed (.path ["x"]) [.path ['x']] :=
  composed_word ⟨'x', [], by decide, by decide, nofun⟩

/-- A value is compared with a limit. -/
def compared : Expr := .binary .gt (.path ["x"]) (.path ["limit"])

lemma composed_compared : Composed compared
    [.path ['x'], .plain [' '], .plain ['>'], .plain [' '], .path "limit".toList] := by
  have hlimit : Composed (.path ["limit"]) [.path "limit".toList] :=
    composed_word ⟨'l', "imit".toList, by decide, by decide, by decide⟩
  have hspace : ∀ c ∈ [' '], isSpace c = true := by decide
  have hsign : ">" ∈ BinaryOp.spellings .gt := by decide
  exact .binary hsign (.before hspace composed_x) (.behind hspace hlimit)

/-- Two references with an operator between them. -/
def limitPieces : List Piece :=
  [.reference "x > limit".toList, .plain [' '], .plain ['|', '|'], .plain [' '], .reference ['x']]

lemma composed_limitPieces : Composed (.binary .or compared (.path ["x"])) limitPieces := by
  have hspace : ∀ c ∈ [' '], isSpace c = true := by decide
  have hfirst : Composed compared [.reference "x > limit".toList] :=
    .reference composed_compared (by decide) (by cbv)
  have hsecond : Composed (.path ["x"]) [.reference ['x']] :=
    .reference composed_x rfl (by cbv)
  have hsign : "||" ∈ BinaryOp.spellings .or := by decide
  exact .binary hsign (.before hspace hfirst) (.behind hspace hsecond)

/-- Both paths are found, the first of them once. -/
theorem references_iff_flat_limit :
    parse "$\x7bx > limit\x7d || $\x7bx\x7d" = some (.binary .or compared (.path ["x"])) ∧
    Composed (.binary .or compared (.path ["x"])) limitPieces ∧ Guarded limitPieces ∧
    Unfeigned limitPieces ∧ Flat limitPieces ∧
    references "$\x7bx > limit\x7d || $\x7bx\x7d" = ["x", "limit"] := by
  have hparse : parse "$\x7bx > limit\x7d || $\x7bx\x7d" =
      some (.binary .or compared (.path ["x"])) := by cbv
  have hguarded : Guarded limitPieces := fun text ht => by simp [limitPieces] at ht
  have hopen : Unfeigned limitPieces := fun text ht => by simp [limitPieces] at ht
  have hflat : Flat limitPieces := fun body hbody => by
    have hbodies : body = "x > limit".toList ∨ body = ['x'] := by simpa [limitPieces] using hbody
    rcases hbodies with rfl | rfl <;> decide
  refine ⟨hparse, composed_limitPieces, hguarded, hopen, hflat, ?_⟩
  rw [((references_iff_flat hparse).2 _ composed_limitPieces (by decide) hguarded hopen).2 hflat]
  decide

/-! ### A reference inside of a reference -/

/-- A reference with another one inside. -/
def nestedPieces : List Piece := [.reference "$\x7ba\x7d + b".toList]

lemma composed_nestedPieces : Composed (.binary .add (.path ["a"]) (.path ["b"])) nestedPieces := by
  have ha : Composed (.path ["a"]) [.path ['a']] :=
    composed_word ⟨'a', [], by decide, by decide, nofun⟩
  have hb : Composed (.path ["b"]) [.path ['b']] :=
    composed_word ⟨'b', [], by decide, by decide, nofun⟩
  have hspace : ∀ c ∈ [' '], isSpace c = true := by decide
  have hinner : Composed (.path ["a"]) [.reference ['a']] := .reference ha rfl (by cbv)
  have hsign : "+" ∈ BinaryOp.spellings .add := by decide
  have hsum := Composed.binary hsign (.before hspace hinner) (.behind hspace hb)
  exact .reference hsum (by decide) (by cbv)

/-- The paths of a reference inside of a reference are not found: all paths of the expression stand
inside of references, and what is listed is the text up to the first closing brace. -/
theorem nested_reference_lost : ∃ e ps,
    parse "$\x7b$\x7ba\x7d + b\x7d" = some e ∧ Composed e ps ∧
    spell ps = "$\x7b$\x7ba\x7d + b\x7d".toList ∧ Guarded ps ∧ e.paths = ["a", "b"] ∧
    references "$\x7b$\x7ba\x7d + b\x7d" = ["$\x7ba"] :=
  ⟨_, nestedPieces, by cbv, composed_nestedPieces, by decide,
    fun text ht => by simp [nestedPieces] at ht, by decide, by decide +kernel⟩

end ProcessEngine.Expression

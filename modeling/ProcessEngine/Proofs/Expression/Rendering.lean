import Mathlib.Data.List.Basic
import ProcessEngine.Expression.Grammar

/-!
# Writing expressions down

How an expression may be written, apart from how it is read.  `Writes` says which tokens an
expression is written with at a level of the grammar, with brackets wherever they are needed and
anywhere else; `Spaced` says how tokens are set apart.  A text that comes of both renders the
expression (`Renders`), and just the plain expressions can be rendered (`plain_iff_renders`).
-/

namespace ProcessEngine

/-! ## Spellings -/

/-- How tightly a binary operator binds; the operators of level zero bind the loosest. -/
def BinaryOp.level : BinaryOp → Nat
  | .or => 0
  | .and => 1
  | .eq | .ne => 2
  | .lt | .le | .gt | .ge => 3
  | .add | .sub => 4
  | .mul | .div | .mod => 5

lemma BinaryOp.level_lt (op : BinaryOp) : op.level < 6 := by cases op <;> decide

/-- The ways to write a binary operator. -/
def BinaryOp.spellings : BinaryOp → List String
  | .or => ["||", "or"]
  | .and => ["&&", "and"]
  | .eq => ["===", "=="]
  | .ne => ["!==", "!="]
  | .lt => ["<"]
  | .le => ["<="]
  | .gt => [">"]
  | .ge => [">="]
  | .add => ["+"]
  | .sub => ["-"]
  | .mul => ["*"]
  | .div => ["/"]
  | .mod => ["%"]

/-- The ways to write an operator in front of its operand. -/
def UnaryOp.spellings : UnaryOp → List String
  | .not => ["!", "not"]
  | .neg => ["-"]

namespace Expression

open ProcessEngine.Text

/-! ## Deciding -/

/-- What holds of the characters of a text is decided along the text, not over all characters. -/
instance (priority := 2000) decidableForallMem {p : Char → Prop} [DecidablePred p]
    (cs : List Char) : Decidable (∀ c ∈ cs, p c) :=
  List.decidableBAll p cs

instance (priority := 2000) decidableForallMem? {p : Char → Prop} [DecidablePred p]
    (o : Option Char) : Decidable (∀ c ∈ o, p c) :=
  Option.decidableForallMem o

/-! ## Tokens -/

/-- The characters of a token. -/
abbrev Token := List Char

/-- A letter or underscore, and then letters, digits and underscores. -/
def IsIdentifier (s : String) : Prop :=
  ∃ c rest, s.toList = c :: rest ∧ isWordStart c = true ∧ ∀ x ∈ rest, isWordChar x = true

/-- At least one digit, and nothing else. -/
def IsNumeral (ds : List Char) : Prop := ds ≠ [] ∧ ∀ c ∈ ds, isDigit c = true

/-- The identifiers that mean something else at the head of a path. -/
def reserved : List String := ["true", "false", "null", "not"]

/-- A path with points between its segments. -/
def pathToken (head : String) (more : List String) : Token :=
  head.toList ++ more.flatMap fun s => '.' :: s.toList

/-- A string between quotes, with a backslash in front of each backslash and each such quote. -/
def quotedToken (quote : Char) (s : String) : Token :=
  quote :: s.toList.flatMap (fun c => if c = quote ∨ c = '\\' then ['\\', c] else [c]) ++ [quote]

/-- The tokens with which an expression is written where only operators of a level, or of tighter
ones, may stand outside of brackets. -/
inductive Writes : Nat → Expr → List Token → Prop
  | number {ds : List Char} (hds : IsNumeral ds) (hfits : decimalValue ds < 9223372036854775808) :
      Writes 6 (.literal (.number (.int (decimalValue ds)))) [ds]
  | string (s : String) {quote : Char} (hquote : quote = '"' ∨ quote = '\'') :
      Writes 6 (.literal (.string s)) [quotedToken quote s]
  | true : Writes 6 (.literal (.bool true)) ["true".toList]
  | false : Writes 6 (.literal (.bool false)) ["false".toList]
  | null : Writes 6 (.literal .null) ["null".toList]
  | path {head : String} {more : List String} (hhead : IsIdentifier head)
      (hfree : head ∉ reserved) (hmore : ∀ s ∈ more, IsIdentifier s ∨ IsNumeral s.toList) :
      Writes 6 (.path (head :: more)) [pathToken head more]
  | unary {op : UnaryOp} {s : String} {arg : Expr} {ts : List Token} (hs : s ∈ op.spellings)
      (h : Writes 6 arg ts) : Writes 6 (.unary op arg) (s.toList :: ts)
  | binary {op : BinaryOp} {s : String} {left right : Expr} {ts us : List Token}
      (hs : s ∈ op.spellings) (hleft : Writes op.level left ts)
      (hright : Writes (op.level + 1) right us) :
      Writes op.level (.binary op left right) (ts ++ s.toList :: us)
  | parentheses {e : Expr} {ts : List Token} (h : Writes 0 e ts) :
      Writes 6 e (['('] :: ts ++ [[')']])
  | braces {e : Expr} {ts : List Token} (h : Writes 0 e ts) :
      Writes 6 e (['$', '\x7b'] :: ts ++ [['\x7d']])
  | tighter {k : Nat} {e : Expr} {ts : List Token} (h : Writes (k + 1) e ts) : Writes k e ts

/-- Whether a token is made of letters, digits, underscores and points only. -/
def isWordy (t : Token) : Bool := t.all fun c => isWordChar c || c == '.'

/-- Tokens set apart by white space, behind a token that is wordy or not.  There must be some
between two wordy tokens. -/
inductive Spaced : Bool → List Token → List Char → Prop
  | nil (wordy : Bool) : Spaced wordy [] []
  | cons {wordy : Bool} {gap : List Char} {t : Token} {ts : List Token} {text : List Char}
      (hgap : ∀ c ∈ gap, isSpace c = true)
      (hapart : wordy = true → isWordy t = true → gap ≠ [])
      (h : Spaced (isWordy t) ts text) : Spaced wordy (t :: ts) (gap ++ t ++ text)

/-- A token directly behind another. -/
lemma Spaced.tight {wordy : Bool} {t : Token} {ts : List Token} {text : List Char}
    (hapart : wordy = false ∨ isWordy t = false) (h : Spaced (isWordy t) ts text) :
    Spaced wordy (t :: ts) (t ++ text) := by
  refine @Spaced.cons wordy [] t ts text nofun (fun hwordy ht => ?_) h
  rcases hapart with hsigns | hsigns <;> simp_all

/-- A token behind a single space. -/
lemma Spaced.apart {wordy : Bool} {t : Token} {ts : List Token} {text : List Char}
    (h : Spaced (isWordy t) ts text) : Spaced wordy (t :: ts) (' ' :: (t ++ text)) :=
  @Spaced.cons wordy [' '] t ts text (by decide) (fun _ _ => List.cons_ne_nil _ _) h

/-- The source is a rendering of the expression: its tokens with white space between them and at both
ends. -/
def Renders (e : Expr) (source : String) : Prop :=
  ∃ ts text gap, Writes 0 e ts ∧ Spaced false ts text ∧ (∀ c ∈ gap, isSpace c = true) ∧
    source.toList = text ++ gap

/-! ## Plain expressions -/

/-- An expression of non-negative integers of 64 bits, strings, booleans, nulls, paths and
operators. -/
inductive Plain : Expr → Prop
  | number {n : Nat} (hfits : n < 9223372036854775808) : Plain (.literal (.number (.int n)))
  | string (s : String) : Plain (.literal (.string s))
  | bool (b : Bool) : Plain (.literal (.bool b))
  | null : Plain (.literal .null)
  | path {head : String} {more : List String} (hhead : IsIdentifier head)
      (hfree : head ∉ reserved) (hmore : ∀ s ∈ more, IsIdentifier s ∨ IsNumeral s.toList) :
      Plain (.path (head :: more))
  | unary (op : UnaryOp) {arg : Expr} (h : Plain arg) : Plain (.unary op arg)
  | binary (op : BinaryOp) {left right : Expr} (hleft : Plain left) (hright : Plain right) :
      Plain (.binary op left right)

variable {e : Expr} {k j : Nat} {ts us : List Token}

/-- Only plain expressions are written. -/
lemma Writes.plain (h : Writes k e ts) : Plain e := by
  induction h with
  | number hds hfits => exact .number hfits
  | string s => exact .string s
  | true => exact .bool _
  | false => exact .bool _
  | null => exact .null
  | path hhead hfree hmore => exact .path hhead hfree hmore
  | unary _ _ ih => exact .unary _ ih
  | binary _ _ _ ihleft ihright => exact .binary _ ihleft ihright
  | parentheses _ ih | braces _ ih | tighter _ ih => exact ih

lemma Writes.mono (h : Writes k e ts) (hjk : j ≤ k) : Writes j e ts := by
  obtain ⟨n, rfl⟩ := Nat.exists_eq_add_of_le hjk
  induction n with
  | zero => exact h
  | succ n ih => exact ih (.tighter h) (Nat.le_add_right _ _)

lemma decimalValue_concat (ds : List Char) (c : Char) :
    decimalValue (ds ++ [c]) = 10 * decimalValue ds + (c.toNat - '0'.toNat) := by
  rw [decimalValue, List.foldl_append]
  rfl

/-- Every number has a numeral, by induction on its size. -/
lemma exists_numeral (n : Nat) : ∃ ds, IsNumeral ds ∧ decimalValue ds = n := by
  have hdigit : ∀ m < 10, isDigit m.digitChar = true ∧ m.digitChar.toNat - '0'.toNat = m := by
    decide
  induction n using Nat.strongRecOn with
  | ind n ih =>
    obtain ⟨hc, hvalue⟩ := hdigit (n % 10) (Nat.mod_lt _ (by decide))
    generalize (n % 10).digitChar = c at hc hvalue
    by_cases hsmall : n < 10
    · refine ⟨[c], ⟨List.cons_ne_nil _ _, List.forall_mem_singleton.2 hc⟩, ?_⟩
      rw [Nat.mod_eq_of_lt hsmall] at hvalue
      simpa [decimalValue] using hvalue
    · obtain ⟨ds, ⟨-, hds⟩, hprefix⟩ := ih (n / 10) (by omega)
      refine ⟨ds ++ [c], ⟨by simp, List.forall_mem_append.2 ⟨hds, by simpa using hc⟩⟩, ?_⟩
      rw [decimalValue_concat, hprefix, hvalue]
      omega

/-- A plain expression is written with brackets around each of its operators. -/
lemma Plain.exists_writes (h : Plain e) : ∃ ts, Writes 6 e ts := by
  induction h with
  | @number n hfits =>
    obtain ⟨ds, hds, rfl⟩ := exists_numeral n
    exact ⟨_, .number hds hfits⟩
  | string s => exact ⟨_, .string s (.inl rfl)⟩
  | bool b => cases b with
    | false => exact ⟨_, .false⟩
    | true => exact ⟨_, .true⟩
  | null => exact ⟨_, .null⟩
  | path hhead hfree hmore => exact ⟨_, .path hhead hfree hmore⟩
  | unary op _ ih =>
    obtain ⟨ts, hts⟩ := ih
    obtain ⟨s, hs⟩ : ∃ s, s ∈ op.spellings := by cases op <;> exact ⟨_, List.mem_cons_self⟩
    exact ⟨_, .unary hs hts⟩
  | binary op _ _ ihleft ihright =>
    obtain ⟨ts, hts⟩ := ihleft
    obtain ⟨us, hus⟩ := ihright
    obtain ⟨s, hs⟩ : ∃ s, s ∈ op.spellings := by cases op <;> exact ⟨_, List.mem_cons_self⟩
    have hlevel := op.level_lt
    have hwritten : Writes op.level (.binary op _ _) _ :=
      .binary hs (hts.mono (by omega)) (hus.mono (by omega))
    exact ⟨_, .parentheses (hwritten.mono (Nat.zero_le _))⟩

/-- Any tokens can be set apart by single spaces. -/
lemma exists_spaced (wordy : Bool) (ts : List Token) : ∃ text, Spaced wordy ts text := by
  induction ts generalizing wordy with
  | nil => exact ⟨[], .nil wordy⟩
  | cons t rest ih =>
    obtain ⟨text, htext⟩ := ih (isWordy t)
    exact ⟨_, htext.apart⟩

/-- Just the plain expressions have renderings. -/
theorem plain_iff_renders : Plain e ↔ ∃ source, Renders e source := by
  constructor
  · intro h
    obtain ⟨ts, hts⟩ := h.exists_writes
    obtain ⟨text, htext⟩ := exists_spaced false ts
    exact ⟨String.ofList text, ts, text, [], hts.mono (Nat.zero_le _), htext, nofun, by simp⟩
  · rintro ⟨source, ts, text, gap, hts, -⟩
    exact hts.plain

end Expression

end ProcessEngine

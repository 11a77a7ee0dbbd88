import ProcessEngine.Expression.Basic
import ProcessEngine.Json.Reader
import ProcessEngine.Binary64.Parts

/-!
# Reading expressions

The grammar, loosest level first; every level is a left-associative chain of the next one:

* `||` `or`
* `&&` `and`
* `===` `==` `!==` `!=`
* `<=` `>=` `<` `>`
* `+` `-`
* `*` `/` `%`
* `!` `not` `-` in front of an operand
* numbers, strings, `true`, `false`, `null`, paths, whole expressions in parentheses or in `${ }`

A step can fail in two ways.  A `miss` leaves the choice to the next alternative: the word `not`
with nothing to negate behind it is a path.  A `fault` ends the reading: an operator without a right
operand, a string or a bracket that is never closed.
-/

namespace ProcessEngine.Expression

open ProcessEngine.Text ProcessEngine.Json

/-- What a step of the reader comes to. -/
inductive Outcome (α : Type) where
  | done (value : α) (rest : List Char)
  | miss
  | fault
deriving Inhabited

/-- A step of the reader. -/
abbrev Step (α : Type) := List Char → Outcome α

/-- Applies a function to what was read. -/
def Outcome.map {α β : Type} (f : α → β) : Outcome α → Outcome β
  | .done a rest => .done (f a) rest
  | .miss => .miss
  | .fault => .fault

/-- Tries the next alternative after a miss. -/
def Outcome.orElse {α : Type} (o : Outcome α) (next : Unit → Outcome α) : Outcome α :=
  match o with
  | .miss => next ()
  | o => o

/-- A step without which the text cannot be an expression any more. -/
def Outcome.must {α : Type} : Outcome α → Outcome α
  | .miss => .fault
  | o => o

/-! ## Words -/

/-- The characters of identifiers. -/
def isWordChar (c : Char) : Bool := isLetter c || isDigit c || c == '_'

/-- The characters that an identifier starts with. -/
def isWordStart (c : Char) : Bool := isLetter c || c == '_'

/-- How an operator or a constant is written.  A word must not run on into an identifier. -/
structure Spelling where
  chars : List Char
  isWord : Bool
deriving DecidableEq

/-- A spelling made of signs. -/
def Spelling.signs (s : String) : Spelling := ⟨s.toList, false⟩

/-- A spelling that is a word. -/
def Spelling.word (s : String) : Spelling := ⟨s.toList, true⟩

/-- What follows the spelling at the front of a text. -/
def Spelling.drop? (s : Spelling) (cs : List Char) : Option (List Char) :=
  match dropText s.chars cs with
  | some (c :: rest) => if s.isWord && isWordChar c then none else some (c :: rest)
  | other => other

/-- An identifier: a letter or underscore, and then letters, digits and underscores. -/
def identifier : Step String
  | c :: rest =>
    if isWordStart c then
      .done (String.ofList (c :: rest.takeWhile isWordChar)) (rest.dropWhile isWordChar)
    else .miss
  | [] => .miss

/-! ## Numbers -/

/-- The digits behind a point; a point without digits is left alone. -/
def fractionDigits : List Char → List Char × List Char
  | '.' :: rest =>
    match digits rest with
    | ([], _) => ([], '.' :: rest)
    | found => found
  | cs => ([], cs)

/-- The exponent behind an `e`; an `e` without digits is left alone. -/
def exponentPart : List Char → Option Int × List Char
  | c :: rest =>
    if c = 'e' || c = 'E' then
      let (negative, tail) := match rest with
        | '-' :: tail => (true, tail)
        | '+' :: tail => (false, tail)
        | tail => (false, tail)
      match digits tail with
      | ([], _) => (none, c :: rest)
      | (ds, tail) =>
        let n : Int := decimalValue ds
        (some (if negative then -n else n), tail)
    else (none, c :: rest)
  | [] => (none, [])

/-- An unsigned number.  Without point and exponent it is an integer if it fits in 64 signed bits;
all others are doubles, and one too large for a double is no number. -/
def number : Step Number := fun cs =>
  match digits cs with
  | ([], _) => .miss
  | (whole, cs) =>
    let (fractional, cs) := fractionDigits cs
    let (exponent, cs) := exponentPart cs
    let n := decimalValue whole
    if fractional.isEmpty && exponent.isNone && fitsInt64 n then .done (.int n) cs
    else
      let x := Binary64.ofDecimal (decimalValue (whole ++ fractional))
        (exponent.getD 0 - fractional.length)
      if Binary64.isFinite x then .done (.float x) cs else .miss

/-! ## Strings -/

/-- The character that an escape stands for. -/
def escaped? : Char → Option Char
  | '\\' => some '\\'
  | '"' => some '"'
  | '\'' => some '\''
  | 'n' => some '\n'
  | 't' => some '\t'
  | _ => none

/-- The characters up to the closing quote. -/
def stringBody (quote : Char) : Step (List Char)
  | [] => .fault
  | c :: rest =>
    if c = quote then .done [] rest
    else if c = '\\' then
      match rest with
      | d :: rest =>
        match escaped? d with
        | some e => (stringBody quote rest).map (e :: ·)
        | none => .fault
      | [] => .fault
    else (stringBody quote rest).map (c :: ·)

/-- A string in single or double quotes. -/
def stringLiteral : Step String
  | c :: rest =>
    if c = '"' || c = '\'' then (stringBody c rest).map String.ofList else .miss
  | [] => .miss

/-! ## Operands -/

/-- One segment of a path behind a point: an identifier or a run of digits. -/
def segment (cs : List Char) : Option (String × List Char) :=
  match identifier cs with
  | .done s rest => some (s, rest)
  | _ =>
    match digits cs with
    | ([], _) => none
    | (ds, rest) => some (String.ofList ds, rest)

/-- The segments behind the head of a path; a point without a segment is left alone. -/
def segments : Nat → List Char → List String × List Char
  | n + 1, '.' :: rest =>
    match segment rest with
    | some (s, rest) =>
      let (more, rest) := segments n rest
      (s :: more, rest)
    | none => ([], '.' :: rest)
  | _, cs => ([], cs)

/-- A dotted path. -/
def path : Step Expr := fun cs =>
  match identifier cs with
  | .done head rest =>
    let (more, rest) := segments rest.length rest
    .done (.path (head :: more)) rest
  | _ => .miss

/-- The constants that are written as words. -/
def constants : List (Spelling × Value) :=
  [(.word "true", .bool true), (.word "false", .bool false), (.word "null", .null)]

/-- One of the constants. -/
def constant : Step Expr := fun cs =>
  match constants.findSome? fun (s, v) => (s.drop? cs).map (v, ·) with
  | some (v, rest) => .done (.literal v) rest
  | none => .miss

/-- An expression between brackets, once the opening one is read. -/
def enclosed (inner : Step Expr) (closing : Char) (cs : List Char) : Outcome Expr :=
  match inner (skipSpaces cs) with
  | .done e rest =>
    match skipSpaces rest with
    | c :: rest => if c = closing then .done e rest else .fault
    | [] => .fault
  | _ => .fault

/-- What stands after the operators in front of an operand, with the white space around it. -/
def primary (inner : Step Expr) : Step Expr := fun cs =>
  let cs := skipSpaces cs
  let found :=
    (number cs).map (fun n => Expr.literal (.number n)) |>.orElse fun _ =>
    (stringLiteral cs).map (fun s => Expr.literal (.string s)) |>.orElse fun _ =>
    constant cs |>.orElse fun _ =>
    match cs with
    | '$' :: '\x7b' :: rest => enclosed inner '\x7d' rest
    | '(' :: rest => enclosed inner ')' rest
    | _ => path cs
  match found with
  | .done e rest => .done e (skipSpaces rest)
  | other => other

/-! ## Operators -/

/-- The levels of binary operators, loosest first, with the spellings of each level in the order in
which they are tried. -/
def levels : List (List (Spelling × BinaryOp)) :=
  [[(.signs "||", .or), (.word "or", .or)],
   [(.signs "&&", .and), (.word "and", .and)],
   [(.signs "===", .eq), (.signs "==", .eq), (.signs "!==", .ne), (.signs "!=", .ne)],
   [(.signs "<=", .le), (.signs ">=", .ge), (.signs "<", .lt), (.signs ">", .gt)],
   [(.signs "+", .add), (.signs "-", .sub)],
   [(.signs "*", .mul), (.signs "/", .div), (.signs "%", .mod)]]

/-- An operator of a level with the white space around it. -/
def operator (level : List (Spelling × BinaryOp)) (cs : List Char) :
    Option (BinaryOp × List Char) :=
  level.findSome? fun (s, op) => (s.drop? (skipSpaces cs)).map (op, skipSpaces ·)

/-- Extends a chain to the left operand by further operators and operands. -/
def chainFrom (level : List (Spelling × BinaryOp)) (operand : Step Expr) :
    Nat → Expr → Step Expr
  | 0, left, cs => .done left cs
  | n + 1, left, cs =>
    match operator level cs with
    | none => .done left cs
    | some (op, rest) =>
      match operand rest with
      | .done right rest => chainFrom level operand n (.binary op left right) rest
      | _ => .fault

/-- A left-associative chain of operands. -/
def chain (level : List (Spelling × BinaryOp)) (operand : Step Expr) : Step Expr := fun cs =>
  match operand cs with
  | .done left rest => chainFrom level operand rest.length left rest
  | other => other

/-- The chains of all levels over an operand. -/
def tower (operand : Step Expr) : Step Expr := levels.foldr chain operand

/-- What follows a negation sign at the front of a text; `!=` is none. -/
def negation? (cs : List Char) : Option (List Char) :=
  match cs with
  | '!' :: '=' :: _ => none
  | '!' :: rest => some rest
  | _ => (Spelling.word "not").drop? cs

/-- An operand with the operators in front of it.  The number bounds how many operators and brackets
may be opened; the length of the text is always enough. -/
def operand : Nat → Step Expr
  | 0, _ => .miss
  | n + 1, cs =>
    let cs := skipSpaces cs
    let negated := match negation? cs with
      | some rest => (operand n rest).map (Expr.unary .not)
      | none => .miss
    negated.orElse fun _ =>
    let opposite := match cs with
      | '-' :: rest => (operand n rest).map (Expr.unary .neg)
      | _ => .miss
    opposite.orElse fun _ =>
    primary (tower (operand n)) cs

/-- Reads a text that holds one expression. -/
def parse (source : String) : Option Expr :=
  let cs := skipSpaces source.toList
  match tower (operand (cs.length + 1)) cs with
  | .done e rest => if (skipSpaces rest).isEmpty then some e else none
  | _ => none

end ProcessEngine.Expression

/-!
# Places in a settings text

A cursor is what is left of a text together with where that stands.  Lines end at any of five
breaks, of which the pair of carriage return and line feed counts as one.
-/

namespace ProcessEngine.Yaml

/-! ## Characters -/

/-- A line break: line feed, carriage return, next line, line separator or paragraph separator. -/
def isBreak (c : Char) : Bool := [0x0A, 0x0D, 0x85, 0x2028, 0x2029].contains c.toNat

/-- A blank inside a line. -/
def isGap (c : Char) : Bool := c == ' ' || c == '\t'

/-- Whether a text is at its end, at a blank, or at the end of a line. -/
def atGap : List Char → Bool
  | [] => true
  | c :: _ => isGap c || isBreak c

/-- The brackets and the comma, which end a plain scalar inside a flow collection. -/
def isFlowSign (c : Char) : Bool := c == ',' || c == '[' || c == ']' || c == '\x7b' || c == '\x7d'

/-- A character of a name: an ASCII letter or digit, a hyphen or an underscore. -/
def isNameChar (c : Char) : Bool := c.isAlphanum || c == '-' || c == '_'

/-- The mark that may stand at the beginning of a line to tell the order of bytes. -/
def byteOrderMark : Char := Char.ofNat 0xFEFF

/-- The characters that a text may hold: no control characters but tab and line breaks. -/
def isAllowed (c : Char) : Bool :=
  let n := c.toNat
  n == 0x09 || n == 0x0A || n == 0x0D || n == 0x85 || (0x20 ≤ n && n ≤ 0x7E) ||
    (0xA0 ≤ n && n != 0xFFFE && n != 0xFFFF)

/-- Whether a text begins with a document marker: three of the given sign and then a gap. -/
def atMarkerOf (sign : Char) : List Char → Bool
  | a :: b :: c :: rest => a == sign && b == sign && c == sign && atGap rest
  | _ => false

/-- Whether a text begins with a document marker: three dashes or points and then a gap. -/
def atMarker (cs : List Char) : Bool := atMarkerOf '-' cs || atMarkerOf '.' cs

/-- What the line break in front of a text stands for: the separators of lines and paragraphs for
themselves, all others for a line feed. -/
def breakText : List Char → List Char
  | c :: _ => if c.toNat = 0x2028 || c.toNat = 0x2029 then [c] else ['\n']
  | [] => []

/-! ## Cursors -/

/-- What is left of a text, how many bytes stand before it, and its line and column. -/
structure Cursor where
  rest : List Char
  offset : Nat
  line : Nat
  column : Nat
deriving Inhabited

namespace Cursor

/-- The beginning of a text. -/
def start (cs : List Char) : Cursor := ⟨cs, 0, 0, 0⟩

/-- The first character of what is left. -/
def head? (p : Cursor) : Option Char := p.rest.head?

/-- Whether a given character stands here. -/
def isAt (p : Cursor) (c : Char) : Bool := p.head? == some c

/-- Passes characters of a line. -/
def pass (count : Nat) (p : Cursor) : Cursor :=
  let passed := p.rest.take count
  { p with
    rest := p.rest.drop count
    offset := passed.foldl (fun n c => n + c.utf8Size) p.offset
    column := p.column + passed.length }

/-- Passes the characters of a class, which holds no line break. -/
def passWhile (wanted : Char → Bool) (p : Cursor) : Cursor :=
  p.pass (p.rest.takeWhile wanted).length

/-- Passes what is left of a line. -/
def passLine (p : Cursor) : Cursor := p.passWhile (!isBreak ·)

/-- Passes a line break, if one stands here. -/
def passBreak (p : Cursor) : Cursor :=
  match p.rest with
  | '\r' :: '\n' :: rest => ⟨rest, p.offset + 2, p.line + 1, 0⟩
  | c :: rest => if isBreak c then ⟨rest, p.offset + c.utf8Size, p.line + 1, 0⟩ else p
  | [] => p

/-- Passes a comment, if one stands here. -/
def passComment (p : Cursor) : Cursor := if p.isAt '#' then p.passLine else p

/-- Whether a line ends here. -/
def atLineEnd (p : Cursor) : Bool := p.rest.head?.all isBreak

/-- Whether a document marker stands here, at the beginning of a line. -/
def atLineMarker (p : Cursor) : Bool := p.column == 0 && atMarker p.rest

/-- Passes blanks and a comment up to the end of the line, and the line break. -/
def passTail (p : Cursor) : Option Cursor :=
  let p := (p.passWhile isGap).passComment
  if p.atLineEnd then some p.passBreak else none

end Cursor

end ProcessEngine.Yaml

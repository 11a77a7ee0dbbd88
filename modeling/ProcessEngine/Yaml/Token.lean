import ProcessEngine.Yaml.Scalar
import ProcessEngine.Yaml.Scalar.Block
import ProcessEngine.Yaml.Scalar.Plain
import ProcessEngine.Yaml.Scalar.Quoted
import ProcessEngine.Yaml.Tag

/-!
# Tokens of a settings text

Blocks are told by indentation, so that their beginnings and ends are tokens without characters of
their own.  A key without a sign in front is known as one only when its colon comes.  Until then it
is pending: it may span no more than 1024 bytes of one line, and the tokens for the key, and for the
block mapping that it may open, are put in front of it afterwards.

`Token.ofText?` yields the tokens of a text, none if it is malformed.
-/

namespace ProcessEngine.Yaml

/-- A token. -/
inductive Token where
  | directive (d : Directive)
  | documentStart
  | documentEnd
  | blockSequenceStart
  | blockMappingStart
  | blockEnd
  | flowSequenceStart
  | flowSequenceEnd
  | flowMappingStart
  | flowMappingEnd
  | blockEntry
  | flowEntry
  | key
  | value
  | alias (name : String)
  | anchor (name : String)
  | tag (handle suffix : String)
  | scalar (text : String) (style : Style)
deriving DecidableEq, Repr, Inhabited

/-- A key whose colon has not come yet: the number of tokens in front of it and where it begins.
One at the indentation of a block must have its colon. -/
structure PendingKey where
  required : Bool
  index : Nat
  offset : Nat
  line : Nat
  column : Nat
deriving DecidableEq, Repr, Inhabited

/-- The state of reading tokens: the tokens so far, last one first; the pending key of the innermost
flow collection, or of the block, and those around it, innermost first; the indentation of the block
and those of the blocks around it, -1 for none; and whether a key may begin here. -/
structure Scanner where
  place : Cursor
  tokens : List Token
  count : Nat
  pending : Option PendingKey
  outer : List (Option PendingKey)
  indent : Int
  indents : List Int
  keyAllowed : Bool
deriving Inhabited

namespace Scanner

/-- The state in front of a text. -/
def start (cs : List Char) : Scanner := ⟨.start cs, [], 0, none, [], -1, [], true⟩

/-- Whether the reader is inside a flow collection. -/
def inFlow (s : Scanner) : Bool := !s.outer.isEmpty

/-! ## Tokens and blocks -/

/-- Adds a token. -/
def emit (t : Token) (s : Scanner) : Scanner :=
  { s with tokens := t :: s.tokens, count := s.count + 1 }

/-- Adds a token behind the first `index` ones. -/
def insert (index : Nat) (t : Token) (s : Scanner) : Scanner :=
  let later := s.count - index
  { s with tokens := s.tokens.take later ++ t :: s.tokens.drop later, count := s.count + 1 }

/-- Adds the token of an indicator and passes it. -/
def indicate (t : Token) (length : Nat) (s : Scanner) : Scanner :=
  s.emit t |> fun s => { s with place := s.place.pass length }

/-- Opens a block at a column if it is deeper than the present one; its token comes behind the first
`index` ones. -/
def openBlock (t : Token) (column index : Nat) (s : Scanner) : Scanner :=
  if !s.inFlow && s.indent < column then
    { s.insert index t with indent := column, indents := s.indent :: s.indents }
  else s

/-- Closes the blocks that are deeper than a column, given the blocks around the innermost one. -/
def closeBlocksIn (column : Int) : List Int → Scanner → Scanner
  | [], s => s
  | outer :: rest, s =>
    if column < s.indent then
      closeBlocksIn column rest { s.emit .blockEnd with indent := outer, indents := rest }
    else s

/-- Closes the blocks that are deeper than a column. -/
def closeBlocks (column : Int) (s : Scanner) : Scanner :=
  if s.inFlow then s else closeBlocksIn column s.indents s

/-! ## Keys -/

/-- Gives up the pending key, which must not be a required one. -/
def dropKey (s : Scanner) : Option Scanner :=
  if s.pending.any (·.required) then none else some { s with pending := none }

/-- Notes that a key may begin here. -/
def saveKey (s : Scanner) : Option Scanner :=
  if s.keyAllowed then
    let p := s.place
    s.dropKey.map fun s => { s with
      pending := some ⟨!s.inFlow && s.indent == p.column, s.count, p.offset, p.line, p.column⟩ }
  else some s

/-- The most bytes between the beginning of a key and its colon. -/
def keyLimit : Nat := 1024

/-- Whether a pending key is not one, since its line or its length is over. -/
def isStale (s : Scanner) (k : PendingKey) : Bool :=
  decide (k.line < s.place.line) || decide (k.offset + keyLimit < s.place.offset)

/-- Gives up all pending keys that are not any; none of them must be a required one. -/
def dropStale (s : Scanner) : Option Scanner :=
  if (s.pending :: s.outer).any (·.any fun k => s.isStale k && k.required) then none
  else
    let fresh (k : Option PendingKey) : Option PendingKey := k.filter (!s.isStale ·)
    some { s with pending := fresh s.pending, outer := s.outer.map fresh }

/-! ## The next token -/

/-- Passes blanks, comments and line breaks.  A tab does not stand where a block key may begin;
outside flow collections every line may begin with one. -/
def skipFrom (flow : Bool) : Nat → Bool → Cursor → Bool × Cursor
  | 0, keyAllowed, p => (keyAllowed, p)
  | n + 1, keyAllowed, p =>
    let p := if p.column = 0 && p.isAt byteOrderMark then p.pass 1 else p
    let p := p.passWhile fun c => c == ' ' || ((flow || !keyAllowed) && c == '\t')
    let p := p.passComment
    if p.head?.any isBreak then skipFrom flow n (keyAllowed || !flow) p.passBreak
    else (keyAllowed, p)

/-- Passes what stands in front of the next token, and closes the blocks that end there; `size`
characters are left at most, here and below. -/
def skip (size : Nat) (s : Scanner) : Option Scanner :=
  let (keyAllowed, place) := skipFrom s.inFlow (size + 1) s.keyAllowed s.place
  (dropStale { s with keyAllowed, place }).map fun s => s.closeBlocks place.column

/-- Begins a flow collection, which may be a key. -/
def openFlow (t : Token) (s : Scanner) : Option Scanner :=
  s.saveKey.map fun s =>
    { s with outer := s.pending :: s.outer, pending := none, keyAllowed := true }.indicate t 1

/-- Ends a flow collection. -/
def closeFlow (t : Token) (s : Scanner) : Option Scanner :=
  s.dropKey.map fun s =>
    let s := match s.outer with
      | [] => s
      | pending :: outer => { s with pending, outer }
    { s with keyAllowed := false }.indicate t 1

/-- Separates the entries of a flow collection. -/
def flowEntry (s : Scanner) : Option Scanner :=
  s.dropKey.map fun s => { s with keyAllowed := true }.indicate .flowEntry 1

/-- Begins an entry of a block sequence. -/
def blockEntry (s : Scanner) : Option Scanner :=
  if !s.inFlow && !s.keyAllowed then none
  else
    (s.openBlock .blockSequenceStart s.place.column s.count).dropKey.map fun s =>
      { s with keyAllowed := true }.indicate .blockEntry 1

/-- Begins a key with a sign in front. -/
def explicitKey (s : Scanner) : Option Scanner :=
  if !s.inFlow && !s.keyAllowed then none
  else
    (s.openBlock .blockMappingStart s.place.column s.count).dropKey.map fun s =>
      { s with keyAllowed := !s.inFlow }.indicate .key 1

/-- Begins the value of a key: of the pending one, or of one with a sign in front. -/
def keyValue (s : Scanner) : Option Scanner :=
  match s.pending with
  | some k =>
    let s := (s.insert k.index .key).openBlock .blockMappingStart k.column k.index
    some ({ s with pending := none, keyAllowed := false }.indicate .value 1)
  | none =>
    if !s.inFlow && !s.keyAllowed then none
    else
      let s := s.openBlock .blockMappingStart s.place.column s.count
      some ({ s with keyAllowed := !s.inFlow }.indicate .value 1)

/-- Begins or ends a document. -/
def documentMarker (t : Token) (s : Scanner) : Option Scanner :=
  (s.closeBlocks (-1)).dropKey.map fun s => { s with keyAllowed := false }.indicate t 3

/-- Reads a directive. -/
def directive (s : Scanner) : Option Scanner :=
  (s.closeBlocks (-1)).dropKey.bind fun s =>
    (Yaml.directive s.place).map fun (d, place) =>
      { s with keyAllowed := false, place }.emit (.directive d)

/-- Reads a token that may be a key or stand in front of one. -/
def inKey (read : Cursor → Option (Token × Cursor)) (s : Scanner) : Option Scanner :=
  s.saveKey.bind fun s =>
    (read s.place).map fun (t, place) => { s with keyAllowed := false, place }.emit t

/-- Reads a plain scalar.  A key may begin behind it if a line ends there. -/
def plain (size : Nat) (s : Scanner) : Option Scanner :=
  s.saveKey.bind fun s =>
    (plainScalar s.inFlow (s.indent + 1).toNat size s.place).map fun (text, crossed, place) =>
      { s with keyAllowed := crossed, place }.emit (.scalar text .plain)

/-- Reads a block scalar. -/
def block (style : Style) (size : Nat) (s : Scanner) : Option Scanner :=
  s.dropKey.bind fun s =>
    (blockScalar (if s.indent < 0 then none else some s.indent.toNat) size s.place).map
      fun (text, place) => { s with keyAllowed := true, place }.emit (.scalar text style)

/-- Whether a sign stands in front of a gap, or anywhere inside a flow collection. -/
def standsAlone (s : Scanner) : Bool := s.inFlow || atGap (s.place.rest.drop 1)

/-- Reads the token that begins here. -/
def token (size : Nat) (s : Scanner) : Option Scanner :=
  let p := s.place
  if p.column = 0 && p.isAt '%' then s.directive
  else if p.column = 0 && atMarkerOf '-' p.rest then s.documentMarker .documentStart
  else if p.column = 0 && atMarkerOf '.' p.rest then s.documentMarker .documentEnd
  else
    match p.head? with
    | some '[' => s.openFlow .flowSequenceStart
    | some '\x7b' => s.openFlow .flowMappingStart
    | some ']' => s.closeFlow .flowSequenceEnd
    | some '\x7d' => s.closeFlow .flowMappingEnd
    | some ',' => s.flowEntry
    | some '*' => s.inKey fun p => (anchorName p).map fun (name, p) => (.alias name, p)
    | some '&' => s.inKey fun p => (anchorName p).map fun (name, p) => (.anchor name, p)
    | some '!' => s.inKey fun p =>
      (tagOf s.inFlow p).map fun ((handle, suffix), p) => (.tag handle suffix, p)
    | some '\'' | some '"' => s.inKey fun p =>
      (quotedScalar size p).map fun (text, p) => (.scalar text .quoted, p)
    | c =>
      if c == some '-' && atGap (p.rest.drop 1) then s.blockEntry
      else if c == some '?' && s.standsAlone then s.explicitKey
      else if c == some ':' && s.standsAlone then s.keyValue
      else if c == some '|' && !s.inFlow then s.block .literal size
      else if c == some '>' && !s.inFlow then s.block .folded size
      else if beginsPlain s.inFlow p.rest then s.plain size
      else none

/-- Reads all tokens, one for each character left at most; the blocks that are still open end with
the text. -/
def run : Nat → Scanner → Option (List Token)
  | 0, _ => none
  | n + 1, s =>
    match s.skip n with
    | none => none
    | some s =>
      if s.place.rest.isEmpty then (s.closeBlocks (-1)).dropKey.map fun s => s.tokens.reverse
      else
        match s.token n with
        | none => none
        | some s => run n s

end Scanner

/-- The tokens of a text. -/
def Token.ofText? (text : String) : Option (List Token) :=
  let cs := text.toList
  if cs.all isAllowed then (Scanner.start cs).run (cs.length + 1) else none

end ProcessEngine.Yaml

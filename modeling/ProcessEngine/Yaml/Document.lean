import ProcessEngine.Yaml.Node
import ProcessEngine.Yaml.Token

/-!
# Documents from tokens

The grammar of documents over the tokens of a text.  A text holds at most one document, perhaps with
directives and markers around it.  Where a node may be left out, a plain scalar without characters
takes its place.
-/

namespace ProcessEngine.Yaml

/-- What reading works on: the tokens that are left, the names so far with the numbers of their last
nodes, the named nodes that are read, last one first, and what the handles of tags stand for. -/
structure Progress where
  tokens : List Token
  numbers : List (String × Nat)
  named : List (Nat × YamlNode)
  handles : Handles
deriving Inhabited

/-- A step of reading; it fails on tokens that do not fit the grammar. -/
abbrev Step := StateT Progress Option

namespace Step

/-- The next token, if any is left. -/
def next? : Step (Option Token) := return (← get).tokens.head?

/-- Drops the next token. -/
def drop : Step Unit := modify fun s => { s with tokens := s.tokens.drop 1 }

/-- Drops the next token if it is the given one; tells whether it was. -/
def dropIf (t : Token) : Step Bool := do
  if (← next?) == some t then
    drop
    return true
  else return false

/-- Whether one of some tokens comes next. -/
def isNext (ts : List Token) : Step Bool := return (← next?).any ts.contains

/-! ## Anchors and tags -/

/-- What stands in front of a node. -/
structure Properties where
  anchor : Option String
  tag : Option String

/-- Reads an anchor, if one comes next. -/
def anchor? : Step (Option String) := do
  match ← next? with
  | some (.anchor name) =>
    drop
    return some name
  | _ => return none

/-- Reads a tag, if one comes next. -/
def tag? : Step (Option String) := do
  match ← next? with
  | some (.tag handle suffix) =>
    drop
    return some (← liftM ((← get).handles.meaning? handle suffix))
  | _ => return none

/-- Reads an anchor and a tag in either order; each may be left out. -/
def properties : Step Properties := do
  match ← anchor? with
  | some name => return ⟨some name, ← tag?⟩
  | none =>
    let tag ← tag?
    return ⟨← if tag.isSome then anchor? else pure none, tag⟩

/-- Numbers a named node, reads it and notes it in front of the ones that begin before it.  Its
number is how many names there are so far.  A name that is given again is none more, so that the
next new name gets the number of that second node too. -/
def naming (name : Option String) (read : Step YamlNode) : Step YamlNode := do
  match name with
  | none => read
  | some name =>
    let before ← get
    let number := before.numbers.length
    set { before with
      numbers := (name, number) :: before.numbers.filter (·.1 != name)
      named := [] }
    let node ← read
    modify fun s => { s with named := s.named ++ (number, node) :: before.named }
    return node

/-- An alias of a name: the number of the last node before that has it. -/
def aliased (name : String) : Step YamlNode := do
  match (← get).numbers.lookup name with
  | some number => return .alias number
  | none => failure

/-- Drops the comma behind an entry of a flow collection; there is none in front of the first. -/
def separator (first : Bool) : Step Unit := do
  let passed ← if first then pure true else dropIf .flowEntry
  if !passed then failure

/-! ## Nodes -/

mutual

/-- Reads a node; only a `block` may be a block collection, and only where it is allowed an
`indentless` sequence, whose entries are not indented against their key. -/
def node (block indentless : Bool) : Nat → Step YamlNode
  | 0 => failure
  | n + 1 => do
    match ← next? with
    | some (.alias name) =>
      drop
      aliased name
    | _ =>
      let properties ← properties
      naming properties.anchor do
        match ← next? with
        | some (.scalar text style) =>
          drop
          return .scalar ⟨text, style, properties.tag⟩
        | some .flowSequenceStart =>
          drop
          return .sequence (← flowItems true n)
        | some .flowMappingStart =>
          drop
          return .mapping (← flowEntries true n)
        | t =>
          if indentless && t == some .blockEntry then return .sequence (← indentlessItems n)
          else if block && t == some .blockSequenceStart then
            drop
            return .sequence (← blockItems n)
          else if block && t == some .blockMappingStart then
            drop
            return .mapping (← blockEntries n)
          else if properties.anchor.isSome || properties.tag.isSome then
            return .scalar { Scalar.empty with tag := properties.tag }
          else failure

/-- Reads a node unless one of some tokens comes next, before which it is left out. -/
def nodeUnless (ends : List Token) (block indentless : Bool) : Nat → Step YamlNode
  | 0 => failure
  | n + 1 => do
    if ← isNext ends then return .empty else node block indentless n

/-- Reads the items of a block sequence. -/
def blockItems : Nat → Step (List YamlNode)
  | 0 => failure
  | n + 1 => do
    if ← dropIf .blockEntry then
      let item ← nodeUnless [.blockEntry, .blockEnd] true false n
      return item :: (← blockItems n)
    else if ← dropIf .blockEnd then return []
    else failure

/-- Reads the items of a sequence that is not indented against its key. -/
def indentlessItems : Nat → Step (List YamlNode)
  | 0 => failure
  | n + 1 => do
    if ← dropIf .blockEntry then
      let item ← nodeUnless [.blockEntry, .key, .value, .blockEnd] true false n
      return item :: (← indentlessItems n)
    else return []

/-- Reads the entries of a block mapping. -/
def blockEntries : Nat → Step (List (YamlNode × YamlNode))
  | 0 => failure
  | n + 1 => do
    if ← dropIf .key then
      let ends : List Token := [.key, .value, .blockEnd]
      let key ← nodeUnless ends true true n
      let value ← if ← dropIf .value then nodeUnless ends true true n else pure .empty
      return (key, value) :: (← blockEntries n)
    else if ← dropIf .blockEnd then return []
    else failure

/-- Reads the items of a flow sequence, from its beginning or from behind an item.  A key makes a
mapping of one entry.  If nothing is left of that key, the token behind its sign is dropped. -/
def flowItems (first : Bool) : Nat → Step (List YamlNode)
  | 0 => failure
  | n + 1 => do
    if ← dropIf .flowSequenceEnd then return []
    separator first
    if ← dropIf .key then
      let key ←
        if ← isNext [.value, .flowEntry, .flowSequenceEnd] then
          drop
          pure .empty
        else node false false n
      let value ←
        if ← dropIf .value then nodeUnless [.flowEntry, .flowSequenceEnd] false false n
        else pure .empty
      return .mapping [(key, value)] :: (← flowItems false n)
    else if ← dropIf .flowSequenceEnd then return []
    else
      let item ← node false false n
      return item :: (← flowItems false n)

/-- Reads the entries of a flow mapping, from its beginning or from behind an entry.  A node without
a key sign is a key without a value. -/
def flowEntries (first : Bool) : Nat → Step (List (YamlNode × YamlNode))
  | 0 => failure
  | n + 1 => do
    if ← dropIf .flowMappingEnd then return []
    separator first
    if ← dropIf .key then
      let key ← nodeUnless [.value, .flowEntry, .flowMappingEnd] false false n
      let value ←
        if ← dropIf .value then nodeUnless [.flowEntry, .flowMappingEnd] false false n
        else pure .empty
      return (key, value) :: (← flowEntries false n)
    else if ← dropIf .flowMappingEnd then return []
    else
      let key ← node false false n
      return (key, .empty) :: (← flowEntries false n)

end

/-! ## Documents -/

/-- Reads the directives in front of a document. -/
def directives : Nat → Step Unit
  | 0 => failure
  | n + 1 => do
    match ← next? with
    | some (.directive d) =>
      drop
      let handles ← liftM ((← get).handles.add d)
      modify fun s => { s with handles }
      directives n
    | _ => return ()

/-- Whether a document without a marker in front begins with a token. -/
def beginsBare : Token → Bool
  | .directive _ | .documentStart => false
  | _ => true

/-- Whether what is left holds no node. -/
def isBare : Step Bool := do
  match ← next? with
  | none | some (.directive _) | some .documentStart | some .documentEnd => return true
  | _ => return false

/-- Reads the root of a document. -/
def root (fuel : Nat) : Step YamlNode := do
  if (← next?).all beginsBare then node true false fuel
  else
    directives fuel
    if ← dropIf .documentStart then
      if ← isBare then return .empty else node true false fuel
    else failure

end Step

/-- The document that tokens write, with nothing but end markers behind it.  Where there are no
tokens there is an empty one. -/
def Document.ofTokens? (tokens : List Token) : Option Document :=
  if tokens.isEmpty then some ⟨.empty, []⟩
  else
    match (Step.root (4 * tokens.length + 8)).run ⟨tokens, [], [], .empty⟩ with
    | some (root, s) =>
      if s.tokens.all (· == .documentEnd) then some ⟨root, s.named⟩ else none
    | none => none

/-- Reads a text that holds at most one document. -/
def read (text : String) : Option Document := (Token.ofText? text).bind Document.ofTokens?

end ProcessEngine.Yaml

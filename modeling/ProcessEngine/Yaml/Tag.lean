import ProcessEngine.Text.Digits
import ProcessEngine.Yaml.Cursor

/-!
# Names, tags and directives

What may stand in front of a node, its anchor and its tag, and the directives in front of a
document.  A tag is written with a handle, for which the document may declare what it stands for.
-/

namespace ProcessEngine.Yaml

open ProcessEngine.Text

/-- The characters of a class in front of a cursor, and the cursor behind them. -/
def Cursor.span (wanted : Char → Bool) (p : Cursor) : List Char × Cursor :=
  let taken := p.rest.takeWhile wanted
  (taken, p.pass taken.length)

/-! ## Anchors and aliases -/

/-- Reads the name behind the sign of an anchor or alias. -/
def anchorName (p : Cursor) : Option (String × Cursor) :=
  let (name, p) := (p.pass 1).span isNameChar
  let ends := atGap p.rest || p.head?.any fun c => "?:,]%@".toList.contains c || c == '\x7d' ||
    c == Char.ofNat 0x60
  if !name.isEmpty && ends then some (String.ofList name, p) else none

/-! ## Tags -/

/-- The characters of a tag behind its handle; between angle brackets some more are allowed. -/
def isTagChar (verbatim : Bool) (c : Char) : Bool :=
  isNameChar c || ";/?:@&=+$.!~*'()".toList.contains c || (verbatim && ",[]".toList.contains c)

/-- How many octets follow the first one of a character. -/
def furtherOctets? (octet : Nat) : Option Nat :=
  if octet < 0x80 then some 0
  else if octet < 0xC0 then none
  else if octet < 0xE0 then some 1
  else if octet < 0xF0 then some 2
  else if octet < 0xF8 then some 3
  else none

/-- The characters of a tag and what stands behind it.  A character may be written as octets behind
percent signs, of which `due` are still to come. -/
def tagChars (verbatim : Bool) : Nat → List Char → Option (List Char × List Char)
  | due, '%' :: a :: b :: rest =>
    match hexValue? [a, b] with
    | none => none
    | some octet =>
      let due? := match due with
        | 0 => furtherOctets? octet
        | due + 1 => if 0x80 ≤ octet && octet < 0xC0 then some due else none
      match due? with
      | none => none
      | some due =>
        (tagChars verbatim due rest).map fun (cs, rest) => (Char.ofNat octet :: cs, rest)
  | due, c :: rest =>
    if 0 < due || c = '%' then none
    else if isTagChar verbatim c then
      (tagChars verbatim 0 rest).map fun (cs, rest) => (c :: cs, rest)
    else some ([], c :: rest)
  | due, [] => if due = 0 then some ([], []) else none

/-- What counts of a tag: all in front of its first null character, which only octets can write. -/
def untilNull (cs : List Char) : List Char := cs.takeWhile (·.toNat != 0)

/-- Reads the characters of a tag. -/
def tagText (verbatim : Bool) (p : Cursor) : Option (List Char × Cursor) :=
  (tagChars verbatim 0 p.rest).map fun (cs, rest) => (cs, p.pass (p.rest.length - rest.length))

/-- Reads a handle, or the beginning of a tag that has none: an exclamation mark, characters of a
name, and perhaps another exclamation mark. -/
def tagHandle (p : Cursor) : Option (List Char × Cursor) :=
  if p.isAt '!' then
    let (name, q) := (p.pass 1).span isNameChar
    if q.isAt '!' then some ('!' :: name ++ ['!'], q.pass 1) else some ('!' :: name, q)
  else none

/-- Whether a handle is complete: more than one exclamation mark. -/
def isWholeHandle (handle : List Char) : Bool :=
  decide (1 < handle.length) && handle.getLast? == some '!'

/-- The handle and the rest of a tag. -/
def tagParts (p : Cursor) : Option ((List Char × List Char) × Cursor) :=
  if (p.rest.drop 1).head? == some '<' then
    match tagText true (p.pass 2) with
    | some (cs, q) =>
      if !cs.isEmpty && q.isAt '>' then some (([], untilNull cs), q.pass 1) else none
    | none => none
  else
    match tagHandle p with
    | none => none
    | some (handle, q) =>
      match tagText false q with
      | none => none
      | some (cs, q) =>
        if isWholeHandle handle then
          if cs.isEmpty then none else some ((handle, untilNull cs), q)
        else
          let suffix := untilNull (handle.drop 1 ++ cs)
          some (if suffix.isEmpty then ([], ['!']) else (['!'], suffix), q)

/-- Reads a tag, behind which there is a gap, or a comma inside a flow collection. -/
def tagOf (flow : Bool) (p : Cursor) : Option ((String × String) × Cursor) :=
  match tagParts p with
  | some ((handle, suffix), p) =>
    if atGap p.rest || (flow && p.isAt ',') then
      some ((String.ofList handle, String.ofList suffix), p)
    else none
  | none => none

/-! ## Directives -/

/-- What is said in front of a document. -/
inductive Directive where
  | version (major minor : Nat)
  | handle (name meaning : String)
deriving DecidableEq, Repr, Inhabited

/-- A number of a version, of at most nine digits. -/
def versionNumber (p : Cursor) : Option (Nat × Cursor) :=
  let (ds, p) := p.span isDigit
  if ds.isEmpty || 9 < ds.length then none else some (decimalValue ds, p)

/-- What stands behind the name of a version directive. -/
def versionDirective (p : Cursor) : Option (Directive × Cursor) := do
  let (major, p) ← versionNumber (p.passWhile isGap)
  if p.isAt '.' then
    let (minor, p) ← versionNumber (p.pass 1)
    some (.version major minor, p)
  else none

/-- What stands behind the name of a tag directive. -/
def handleDirective (p : Cursor) : Option (Directive × Cursor) := do
  let (handle, p) ← tagHandle (p.passWhile isGap)
  if (isWholeHandle handle || handle.length = 1) && p.head?.any isGap then
    let (meaning, p) ← tagText true (p.passWhile isGap)
    if !meaning.isEmpty && atGap p.rest then
      some (.handle (String.ofList handle) (String.ofList (untilNull meaning)), p)
    else none
  else none

/-- Reads a directive and the rest of its line. -/
def directive (p : Cursor) : Option (Directive × Cursor) := do
  let (name, p) := (p.pass 1).span isNameChar
  let (d, p) ← if !atGap p.rest then none
    else if name = "YAML".toList then versionDirective p
    else if name = "TAG".toList then handleDirective p
    else none
  return (d, ← p.passTail)

/-- What the handles of a document stand for: those declared, then the usual ones. -/
structure Handles where
  version : Bool
  declared : List (String × String)
deriving Inhabited

namespace Handles

/-- Nothing is declared. -/
def empty : Handles := ⟨false, []⟩

/-- Adds a directive; each may stand once, and the version must be 1.1 or 1.2. -/
def add (h : Handles) : Directive → Option Handles
  | .version major minor =>
    if !h.version && major = 1 && (minor = 1 || minor = 2) then some { h with version := true }
    else none
  | .handle name meaning =>
    if (h.declared.lookup name).isSome then none
    else some { h with declared := h.declared ++ [(name, meaning)] }

/-- The usual handles. -/
def usual : List (String × String) := [("!", "!"), ("!!", "tag:yaml.org,2002:")]

/-- What a tag stands for; without a handle it stands for itself. -/
def meaning? (h : Handles) (handle suffix : String) : Option String :=
  if handle.isEmpty then some suffix
  else ((h.declared ++ usual).lookup handle).map (· ++ suffix)

end Handles

end ProcessEngine.Yaml

import ProcessEngine.Text.Digits
import ProcessEngine.Yaml.Cursor

/-!
# Block scalars

Scalars made of whole lines, indented more deeply than what surrounds them.  A literal one keeps its
line breaks; a folded one joins lines that do not begin with a blank.
-/

namespace ProcessEngine.Yaml

open ProcessEngine.Text

/-- What becomes of the line breaks at the end: none is kept, the first one, or all. -/
inductive Chomping where
  | strip
  | clip
  | keep
deriving DecidableEq, Repr, Inhabited

/-- The sign for a chomping. -/
def Chomping.ofSign? : Char → Option Chomping
  | '-' => some .strip
  | '+' => some .keep
  | _ => none

/-- An indentation that is given by a digit; it is not zero. -/
def givenIndent? (c : Char) : Option Nat := if isDigit c then some (c.toNat - '0'.toNat) else none

/-- The chomping and the given indentation behind the indicator, in either order, and how many
characters write them.  No indentation counts as zero. -/
def blockHeader (cs : List Char) : Option (Chomping × Nat × Nat) :=
  let first := cs.head?
  let second := (cs.drop 1).head?
  match first.bind Chomping.ofSign?, first.bind givenIndent? with
  | some chomping, _ =>
    match second.bind givenIndent? with
    | some 0 => none
    | some given => some (chomping, given, 2)
    | none => some (chomping, 0, 1)
  | none, some 0 => none
  | none, some given =>
    match second.bind Chomping.ofSign? with
    | some chomping => some (chomping, given, 2)
    | none => some (.clip, given, 1)
  | none, none => some (.clip, 0, 0)

/-- Passes empty lines and the indentation of the next one; yields the line breaks, last one first.
As long as the indentation of the scalar is not known, it is zero: then the deepest indentation so
far becomes its indentation, but no less than `least`. -/
def blockBreaks (least : Nat) : Nat → Nat → Nat → List Char → Cursor →
    Option (Nat × List Char × Cursor)
  | 0, _, _, _, _ => none
  | n + 1, indent, deepest, breaks, p =>
    let spaces := (p.rest.takeWhile (· == ' ')).length
    let p := p.pass (if indent = 0 then spaces else min spaces (indent - p.column))
    let deepest := max deepest p.column
    if (indent = 0 || p.column < indent) && p.isAt '\t' then none
    else if p.head?.any isBreak then
      blockBreaks least n indent deepest ((breakText p.rest).reverse ++ breaks) p.passBreak
    else some (if indent = 0 then max deepest least else indent, breaks.reverse, p)

/-- The lines of a block scalar as they are read: the characters, last one first; the break behind
the last line and the further breaks behind it; and whether the last line began with a blank. -/
structure BlockText where
  chars : List Char
  lineBreak : List Char
  breaks : List Char
  blankLine : Bool
deriving Inhabited

/-- Adds a line. -/
def BlockText.addLine (t : BlockText) (folded : Bool) (line : List Char) : BlockText :=
  let blank := line.head?.any isGap
  let joint :=
    if folded && t.lineBreak == ['\n'] && !t.blankLine && !blank then
      if t.breaks.isEmpty then [' '] else []
    else t.lineBreak
  ⟨line.reverse ++ ((joint ++ t.breaks).reverse ++ t.chars), [], [], blank⟩

/-- The lines of a block scalar from the indentation of the first one on. -/
def blockLines (folded : Bool) (indent : Nat) : Nat → BlockText → Cursor →
    Option (BlockText × Cursor)
  | 0, _, _ => none
  | n + 1, t, p =>
    if p.column = indent && !p.rest.isEmpty then
      let line := p.rest.takeWhile (!isBreak ·)
      let t := t.addLine folded line
      let p := p.pass line.length
      match blockBreaks indent (n + 1) indent 0 [] p.passBreak with
      | none => none
      | some (_, breaks, q) =>
        blockLines folded indent n { t with lineBreak := breakText p.rest, breaks } q
    else some (t, p)

/-- Reads a block scalar of at most `size` characters; `outer` is the indentation of what surrounds
it, if anything does. -/
def blockScalar (outer : Option Nat) (size : Nat) (p : Cursor) : Option (String × Cursor) :=
  match blockHeader (p.rest.drop 1) with
  | none => none
  | some (chomping, given, used) =>
    match (p.pass (used + 1)).passTail with
    | none => none
    | some q =>
      let indent := if given = 0 then 0 else outer.getD 0 + given
      let least := max ((outer.map (· + 1)).getD 0) 1
      match blockBreaks least (size + 1) indent 0 [] q with
      | none => none
      | some (indent, breaks, q) =>
        (blockLines (p.isAt '>') indent (size + 1) ⟨[], [], breaks, false⟩ q).map
          fun (t, q) =>
            let tail := match chomping with
              | .strip => []
              | .clip => t.lineBreak
              | .keep => t.lineBreak ++ t.breaks
            (String.ofList (t.chars.reverse ++ tail), q)

end ProcessEngine.Yaml

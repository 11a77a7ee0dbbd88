import ProcessEngine.Yaml.Cursor

/-!
# Gaps in scalars

Between the words of a scalar there may be blanks, or line breaks with blanks around them.  Blanks
stand for themselves.  A single line break stands for one space; of several, the first one is
dropped.
-/

namespace ProcessEngine.Yaml

/-- What stands between two words: blanks of the line, and the first and the further line breaks if
the gap reaches into other lines. -/
structure Gap where
  blanks : List Char
  breaks : Option (List Char × List Char)
deriving Inhabited

namespace Gap

/-- No gap. -/
def empty : Gap := ⟨[], none⟩

/-- A line break that stands for nothing. -/
def joined : Gap := ⟨[], some ([], [])⟩

/-- Whether the gap reaches into another line. -/
def crosses (g : Gap) : Bool := g.breaks.isSome

/-- What the gap stands for. -/
def text (g : Gap) : List Char :=
  match g.breaks with
  | none => g.blanks.reverse
  | some (first, further) =>
    if first = ['\n'] then if further.isEmpty then [' '] else further else first ++ further

/-- One more line break. -/
def addBreak (g : Gap) (text : List Char) : Gap :=
  match g.breaks with
  | none => ⟨[], some (text, [])⟩
  | some (first, further) => ⟨[], some (first, further ++ text)⟩

/-- One more blank; those of further lines do not count. -/
def addBlank (g : Gap) (c : Char) : Gap :=
  if g.crosses then g else { g with blanks := c :: g.blanks }

/-- Reads a gap on for as many characters.  A tab must not indent a further line by less than
`least`. -/
def read (least : Nat) : Nat → Gap → Cursor → Option (Gap × Cursor)
  | 0, g, p => some (g, p)
  | n + 1, g, p =>
    match p.rest with
    | [] => some (g, p)
    | c :: _ =>
      if isBreak c then read least n (g.addBreak (breakText p.rest)) p.passBreak
      else if c = '\t' && g.crosses && p.column < least then none
      else if isGap c then read least n (g.addBlank c) (p.pass 1)
      else some (g, p)

end Gap

end ProcessEngine.Yaml

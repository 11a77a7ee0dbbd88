import ProcessEngine.Yaml.Scalar.Gap

/-!
# Plain scalars

Scalars without quotes: words with gaps between them.
-/

namespace ProcessEngine.Yaml

/-- Whether a plain scalar may begin here.  Outside flow collections it may begin with a question
mark or a colon that no gap follows, everywhere with such a dash. -/
def beginsPlain (flow : Bool) : List Char → Bool
  | [] => false
  | '-' :: rest => !atGap rest
  | '?' :: rest | ':' :: rest => !flow && !atGap rest
  | c :: _ => !(isGap c || isBreak c || isFlowSign c || "#&*!|>'\"%@".toList.contains c ||
      c == Char.ofNat 0x60)

/-- The signs that must not follow a colon in a plain scalar inside a flow collection. -/
def clashesWithColon (c : Char) : Bool := isFlowSign c || c == '?'

/-- The characters up to the next gap, or to a sign that ends the scalar. -/
def plainWord (flow : Bool) : List Char → Option (List Char)
  | [] => some []
  | c :: rest =>
    if isGap c || isBreak c then some []
    else if flow && c == ':' && rest.head?.any clashesWithColon then none
    else if (c == ':' && atGap rest) || (flow && isFlowSign c) then some []
    else (plainWord flow rest).map (c :: ·)

/-- A plain scalar as it is read. -/
structure PlainText where
  chars : List Char
  pending : Gap
deriving Inhabited

/-- Adds a word behind the pending gap. -/
def PlainText.addWord (t : PlainText) (word : List Char) : PlainText :=
  if word.isEmpty then t else ⟨word.reverse ++ (t.pending.text.reverse ++ t.chars), .empty⟩

/-- The words of a plain scalar, its characters last one first.  It goes on in further lines that
are indented by `least` or more; inside flow collections by any amount. -/
def plainWords (flow : Bool) (least : Nat) : Nat → PlainText → Cursor →
    Option (PlainText × Cursor)
  | 0, t, p => some (t, p)
  | n + 1, t, p =>
    if p.atLineMarker || p.isAt '#' then some (t, p)
    else
      match plainWord flow p.rest with
      | none => none
      | some word =>
        let t := t.addWord word
        let p := p.pass word.length
        if p.rest.isEmpty || !atGap p.rest then some (t, p)
        else
          match Gap.read least n .empty p with
          | none => none
          | some (gap, p) =>
            let t := { t with pending := gap }
            if !flow && p.column < least then some (t, p) else plainWords flow least n t p

/-- Reads a plain scalar of at most `size` characters; tells whether the gap behind it reaches into
another line. -/
def plainScalar (flow : Bool) (least size : Nat) (p : Cursor) : Option (String × Bool × Cursor) :=
  (plainWords flow least (size + 1) ⟨[], .empty⟩ p).map fun (t, p) =>
    (String.ofList t.chars.reverse, t.pending.crosses, p)

end ProcessEngine.Yaml

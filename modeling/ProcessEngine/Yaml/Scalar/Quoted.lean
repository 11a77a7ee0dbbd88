import ProcessEngine.Text.Digits
import ProcessEngine.Yaml.Scalar.Gap

/-!
# Quoted scalars

Between single quotes a quote is written twice.  Between double quotes a backslash escapes the
character behind it, or joins its line with the next one.
-/

namespace ProcessEngine.Yaml

open ProcessEngine.Text

/-- The characters that stand for others behind a backslash. -/
def escapes : List (Char × Nat) :=
  [('0', 0x00), ('a', 0x07), ('b', 0x08), ('t', 0x09), ('\t', 0x09), ('n', 0x0A), ('v', 0x0B),
   ('f', 0x0C), ('r', 0x0D), ('e', 0x1B), (' ', 0x20), ('"', 0x22), ('/', 0x2F), ('\\', 0x5C),
   ('N', 0x85), ('_', 0xA0), ('L', 0x2028), ('P', 0x2029)]

/-- How many hexadecimal digits follow a letter behind a backslash. -/
def codeLength : Char → Option Nat
  | 'x' => some 2
  | 'u' => some 4
  | 'U' => some 8
  | _ => none

/-- The character that an escape stands for, with the number of characters that write it behind the
backslash. -/
def escape? : List Char → Option (Char × Nat)
  | [] => none
  | c :: rest =>
    match escapes.lookup c, codeLength c with
    | some code, _ => some (Char.ofNat code, 1)
    | none, some count =>
      let ds := rest.take count
      match hexValue? ds with
      | some code =>
        if ds.length = count && code.isValidChar then some (Char.ofNat code, count + 1) else none
      | none => none
    | none, none => none

/-- The characters behind an opening quote, and what stands behind the closing one.  No line of the
scalar may begin with a document marker. -/
def quotedChars (quote : Char) : Nat → List Char → Cursor → Option (List Char × Cursor)
  | 0, _, _ => none
  | n + 1, acc, p =>
    let gap (g : Gap) (p : Cursor) : Option (List Char × Cursor) :=
      match Gap.read 0 n g p with
      | some (g, p) => quotedChars quote n (g.text.reverse ++ acc) p
      | none => none
    if p.atLineMarker then none
    else
      match p.rest with
      | [] => none
      | c :: rest =>
        if isGap c || isBreak c then gap .empty p
        else if c = quote then
          if quote = '\'' && rest.head? == some quote then
            quotedChars quote n (quote :: acc) (p.pass 2)
          else some (acc.reverse, p.pass 1)
        else if c = '\\' && quote = '"' then
          if rest.head?.any isBreak then gap .joined (p.pass 1).passBreak
          else
            match escape? rest with
            | some (d, used) => quotedChars quote n (d :: acc) (p.pass (used + 1))
            | none => none
        else quotedChars quote n (c :: acc) (p.pass 1)

/-- Reads a quoted scalar of at most `size` characters. -/
def quotedScalar (size : Nat) (p : Cursor) : Option (String × Cursor) :=
  match p.head? with
  | some quote =>
    (quotedChars quote (size + 1) [] (p.pass 1)).map fun (cs, p) => (String.ofList cs, p)
  | none => none

end ProcessEngine.Yaml

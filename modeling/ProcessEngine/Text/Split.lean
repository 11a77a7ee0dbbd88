/-!
# Splitting and joining

Cutting a text at every occurrence of a separator, and putting the parts together again.
-/

namespace ProcessEngine.Text

/-- The parts between the separators; a text without a separator is its only part. -/
def splitChars (sep : Char) : List Char → List (List Char)
  | [] => [[]]
  | c :: rest =>
    if c = sep then [] :: splitChars sep rest
    else
      match splitChars sep rest with
      | [] => [[c]]
      | part :: more => (c :: part) :: more

/-- The parts with a separator between each two of them. -/
def joinChars (sep : Char) : List (List Char) → List Char
  | [] => []
  | [part] => part
  | part :: more => part ++ sep :: joinChars sep more

/-- The parts of a text between the separators. -/
def split (sep : Char) (s : String) : List String := (splitChars sep s.toList).map String.ofList

/-- The texts with a separator between each two of them. -/
def join (sep : Char) (parts : List String) : String :=
  String.ofList (joinChars sep (parts.map String.toList))

end ProcessEngine.Text

import ProcessEngine.Expression.Grammar
import ProcessEngine.Expression.Evaluation

/-!
# Expression sources

A source text is either a pure reference, `${path}` and nothing else, which is looked up without the
grammar, or it is read as an expression.  The paths of a text are found block by block without
evaluating anything.
-/

namespace ProcessEngine.Expression

open ProcessEngine.Text ProcessEngine.Json

/-! ## Pure references -/

/-- The segments behind the head of a reference: each a point and at least one letter, digit or
underscore. -/
def referenceSegments : Nat → List Char → Option (List String × List Char)
  | n + 1, '.' :: rest =>
    match rest.takeWhile isWordChar with
    | [] => none
    | s =>
      (referenceSegments n (rest.dropWhile isWordChar)).map fun (more, rest) =>
        (String.ofList s :: more, rest)
  | _, cs => some ([], cs)

/-- The path of a text that is a reference and nothing else, with white space allowed outside and
inside the braces. -/
def pureReference? (source : String) : Option (List String) :=
  match source.toList.dropWhile isBlank with
  | '$' :: '\x7b' :: rest =>
    match identifier (rest.dropWhile isBlank) with
    | .done head rest =>
      match referenceSegments rest.length rest with
      | some (more, rest) =>
        match rest.dropWhile isBlank with
        | '\x7d' :: rest => if rest.all isBlank then some (head :: more) else none
        | _ => none
      | none => none
    | _ => none
  | _ => none

/-! ## Evaluation -/

/-- The value of a source text. -/
def evaluateSource (source : String) (vars : Variables) : Except ExpressionError (Option Value) :=
  match pureReference? source with
  | some path => .ok (Variables.lookup vars path)
  | none =>
    match parse source with
    | some e => evaluate vars e
    | none => .error (.malformed source)

/-- Whether the condition that a source text states holds. -/
def evaluateCondition (source : String) (vars : Variables) : Except ExpressionError Bool :=
  (evaluateSource source vars).map truthy

/-! ## References in a text -/

/-- The bodies of the blocks `${…}` of a text, each up to the next closing brace. -/
def blocks : Nat → List Char → List (List Char)
  | n + 1, '$' :: '\x7b' :: rest =>
    match rest.dropWhile (· != '\x7d') with
    | _ :: after => rest.takeWhile (· != '\x7d') :: blocks n after
    | [] => []
  | n + 1, _ :: rest => blocks n rest
  | _, _ => []

/-- Adds the paths of one block to a list; a body that is no expression is listed as it is. -/
def addBlock (found : List String) (body : List Char) : List String :=
  match trimChars body with
  | [] => found
  | body =>
    match parse (String.ofList body) with
    | some e => e.collectPaths found
    | none => addNew found (String.ofList body)

/-- The paths that the references of a text mention, each once, in order of first appearance. -/
def references (source : String) : List String :=
  let cs := source.toList
  (blocks cs.length cs).foldl addBlock []

end ProcessEngine.Expression

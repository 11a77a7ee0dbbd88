import ProcessEngine.Frame

/-!
# Tokens

A parked token marks a place where an instance waits to be continued.
-/

namespace ProcessEngine

/-- What a parked token waits for; at an event-based gateway the first of its candidates wins. -/
inductive Wait where
  | userTask
  | subProcess
  | eventGateway (candidates : List String)
deriving DecidableEq, Repr, Inhabited

/-- A parked token. -/
structure Token where
  id : Uid
  elementId : String
  wait : Wait
  suspended : Bool
  frames : List Frame
deriving DecidableEq, Repr, Inhabited

/-- Whether the token can be completed by the given element. -/
def Token.accepts (t : Token) (element : String) : Bool :=
  match t.wait with
  | .userTask | .subProcess => t.elementId == element
  | .eventGateway candidates => candidates.contains element

end ProcessEngine

import ProcessEngine.Closure
import ProcessEngine.Definition.Basic

/-!
# Reachable elements

The elements that the flows of a definition lead to from its start events.
-/

namespace ProcessEngine.Definition

/-- The flows as edges of a graph. -/
def edges (d : Definition) : List (String × String) := d.flows.map fun f => (f.source, f.target)

/-- The ids that a path of flows leads to from some start event, the start events included. -/
def reachable (d : Definition) : List String := closure d.edges (d.startEvents.map Node.id)

/-- The element ids that no start event leads to, as often as they are given. -/
def unreachable (d : Definition) : List String :=
  d.elementIds.filter fun id => !d.reachable.contains id

end ProcessEngine.Definition

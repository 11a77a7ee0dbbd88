/-!
# What edges lead to

The nodes of a graph that some path leads to from a list of starting nodes.  The set grows round by
round along the edges; a round that adds nothing ends the growth, and since every other round
reaches the target of at least one more edge, as many rounds as there are edges are enough.
-/

namespace ProcessEngine

namespace Closure

/-- The targets outside `reached` of the edges that leave it. -/
def frontier (edges : List (String × String)) (reached : List String) : List String :=
  (edges.filter fun e => reached.contains e.1 && !reached.contains e.2).map Prod.snd

/-- Adds the frontier, round by round, until it is empty. -/
def spread (edges : List (String × String)) : Nat → List String → List String
  | 0, reached => reached
  | n + 1, reached =>
    match frontier edges reached with
    | [] => reached
    | fresh => spread edges n (reached ++ fresh)

end Closure

/-- The nodes that a path of edges leads to from one of the starting nodes, those included. -/
def closure (edges : List (String × String)) (start : List String) : List String :=
  Closure.spread edges edges.length start

end ProcessEngine

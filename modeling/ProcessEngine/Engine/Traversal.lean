import ProcessEngine.Engine.Run
import ProcessEngine.Gateway.Activation

/-!
# Traversal

Tokens in flight walk the graph depth first, the first outgoing flow before the second, until they
park, are absorbed by a join, or leave an element without outgoing flows.  A graph may have cycles,
so a walk visits no more than a given number of elements.
-/

namespace ProcessEngine

/-- A token in flight: the element it comes to next, and its frames. -/
structure Cursor where
  elementId : String
  frames : List Frame
deriving DecidableEq, Repr, Inhabited

/-- The tokens that leave an element by all its outgoing flows. -/
def Definition.leave (d : Definition) (element : String) (frames : List Frame) : List Cursor :=
  (d.outgoing element).map fun f => ⟨f.target, frames⟩

/-- The tokens that leave a gateway.  Each branch of a fork carries the frame of the fork with its
own index; a token released by a join has lost the frames of the forks that are merged back. -/
def Decision.cursors (d : Decision) (frames : List Frame) : List Cursor :=
  let frames := d.continueFrames.getD frames
  d.next.mapIdx fun index target =>
    match d.forkFrame with
    | some fork => ⟨target, frames ++ [fork.forBranch (word32 index)]⟩
    | none => ⟨target, frames⟩

namespace Run

/-- What a gateway is asked when a token with the given frames comes to it. -/
def request (run : Run) (d : Definition) (g : Gateway) (execution : Uid) (frames : List Frame) :
    Request :=
  { gateway := g
    outgoing := d.outgoing g.id
    vars := run.current.vars
    incoming := some (d.incomingCount g.id)
    instanceId := some run.current.id
    executionId := some execution.text
    frames }

/-- A token comes to a gateway. -/
def visitGateway (run : Run) (d : Definition) (g : Gateway) (frames : List Frame) :
    Action (List Cursor × Run) := do
  let execution ← Action.freshUid
  let decision ← (run.request d g execution frames).activate
  let run ← run.record g.id .gateway .completed execution.text
  if !decision.needsWait then return (decision.cursors frames, run)
  else if decision.isJoin then return ([], run)
  else return ([], ← run.park g.id (.eventGateway decision.next) frames)

/-- A token comes to an element; yields the tokens in flight after that. -/
def visit (run : Run) (d : Definition) (c : Cursor) : Action (List Cursor × Run) := do
  let element ← Action.orFail (.elementNotFound d.id c.elementId) (d.element? c.elementId)
  match element with
  | .startEvent _ | .serviceTask _ | .endEvent _ =>
    let execution ← Action.freshUid
    let run ← run.complete element execution.text
    return (d.leave c.elementId c.frames, run)
  | .userTask task =>
    let run := run.emit (.taskCreated run.current.id task.id task.name)
    return ([], ← run.park task.id .userTask c.frames)
  | .subProcess sub => return ([], ← run.park sub.id .subProcess c.frames)
  | .gateway g => run.visitGateway d g c.frames

/-- Walks tokens through the graph; `left` elements may still be visited, out of a `limit` that is
named if they do not do. -/
def traverse (d : Definition) (limit : Nat) : Nat → List Cursor → Run → Action Run
  | _, [], run => pure run
  | 0, _ :: _, run => throw (.traversalLimitExceeded run.current.id limit)
  | left + 1, c :: rest, run => do
    let (next, run) ← run.visit d c
    traverse d limit left (next ++ rest) run

/-- Walks tokens through the graph, visiting at most `limit` elements. -/
def walk (run : Run) (d : Definition) (limit : Nat) (cursors : List Cursor) : Action Run :=
  traverse d limit limit cursors run

end Run

end ProcessEngine

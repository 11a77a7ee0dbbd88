import ProcessEngine.Definition.Basic
import ProcessEngine.Instant
import ProcessEngine.Token
import ProcessEngine.Value

/-!
# Process instances

The state of one run of a process: its variables, its parked tokens, and a history that only grows.
-/

namespace ProcessEngine

/-- Whether an instance goes on when it is told to. -/
inductive InstanceState where
  | active
  | suspended
deriving DecidableEq, Repr, Inhabited

/-- What happened to an element. -/
inductive HistoryStatus where
  | completed
  | suspended
  | cancelled
deriving DecidableEq, Repr, Inhabited

/-- One line of the history. -/
structure HistoryEntry where
  elementId : String
  elementKind : ElementKind
  status : HistoryStatus
  startTime : Instant
  endTime : Instant
  executionId : Option String
deriving DecidableEq, Repr, Inhabited

/-- A process instance. -/
structure Instance where
  id : String
  definitionId : String
  businessKey : String
  vars : Variables
  history : List HistoryEntry
  state : InstanceState
  tokens : List Token
  createdAt : Instant
  endedAt : Option Instant
deriving Inhabited

/-- The variable that holds the business key. -/
def businessKeyName : String := "businessKey"

namespace Instance

/-- A new instance without tokens. -/
def fresh (id definitionId businessKey : String) (vars : Variables) (now : Instant) :
    Instance :=
  ⟨id, definitionId, businessKey, vars, [], .active, [], now, none⟩

/-- Whether the instance has ended. -/
def isEnded (i : Instance) : Bool := i.endedAt.isSome

/-- The time of a new history entry: the clock reading, or the end of the last entry if the clock
has gone back behind it. -/
def entryTime (i : Instance) (now : Instant) : Instant :=
  match i.history.getLast? with
  | some last => if now < last.endTime then last.endTime else now
  | none => now

/-- Appends an entry to the history. -/
def record (i : Instance) (element : String) (kind : ElementKind) (status : HistoryStatus)
    (execution : Option String) (now : Instant) : Instance :=
  let time := i.entryTime now
  { i with history := i.history ++ [⟨element, kind, status, time, time, execution⟩] }

/-- Sets variables, the last write winning. -/
def mergeVariables (i : Instance) (updates : Variables) : Instance :=
  { i with vars := Fields.merge i.vars updates }

/-- The elements at which tokens are parked. -/
def waitingElements (i : Instance) : List String := i.tokens.map Token.elementId

/-- The history of one element. -/
def historyFor (i : Instance) (element : String) : List HistoryEntry :=
  i.history.filter (·.elementId == element)

/-- Whether each entry of the history ends no later than the next one starts. -/
def inOrder : List HistoryEntry → Bool
  | a :: b :: rest => decide (a.endTime ≤ b.startTime) && inOrder (b :: rest)
  | _ => true

end Instance

end ProcessEngine

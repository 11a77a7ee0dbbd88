import ProcessEngine.Uid

/-!
# Fork frames

Every token that leaves a fork carries a frame that names the fork and the branches that the token
stands for, so that a join knows how many arrivals to wait for and when a fork is merged back.  A
stack of frames lists the forks around a token, outermost first.
-/

namespace ProcessEngine

/-- Counts are kept in 32 bits, so they start again from zero at `2 ^ 32`. -/
def word32 (n : Nat) : Nat := n % 4294967296

/-- One activation of a fork, seen from a token that came out of it. -/
structure Frame where
  gatewayId : String
  forkId : Uid
  branchCount : Nat
  generation : Nat
  branches : List Nat
deriving DecidableEq, Repr, Inhabited

/-- Puts a number into an ascending list unless it is there. -/
def insertAscending (n : Nat) : List Nat → List Nat
  | [] => [n]
  | m :: rest =>
    if n < m then n :: m :: rest else if n = m then m :: rest else m :: insertAscending n rest

/-- The numbers of a list in ascending order, each once. -/
def ascending (ns : List Nat) : List Nat := ns.foldr insertAscending []

namespace Frame

/-- The frame of a single branch. -/
def forBranch (f : Frame) (index : Nat) : Frame := { f with branches := [index] }

/-- Whether every branch of the fork is merged back. -/
def isClosed (f : Frame) : Bool := decide (f.branchCount ≤ word32 f.branches.length)

/-- Joins the branches of another frame of the same fork. -/
def absorb (f g : Frame) : Frame := { f with branches := ascending (f.branches ++ g.branches) }

/-- Folds the stack of an arriving token into the stack shared by earlier arrivals: the forks that
both came out of, counted from the outside, with the branches of both. -/
def merge : List Frame → List Frame → List Frame
  | a :: shared, b :: arriving =>
    if a.forkId = b.forkId then a.absorb b :: merge shared arriving else []
  | _, _ => []

end Frame

end ProcessEngine

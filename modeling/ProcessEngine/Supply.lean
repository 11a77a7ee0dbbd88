import ProcessEngine.Uid
import ProcessEngine.Instant

/-!
# The supply of times and identifiers

What the engine takes from its surroundings: readings of a clock, about which nothing is assumed,
not even that it never goes back, and identifiers that were never handed out before.
-/

namespace ProcessEngine

/-- A clock with the number of times it was read, and the number of identifiers handed out. -/
structure Supply where
  clock : Nat → Instant
  readings : Nat
  issued : Nat

namespace Supply

/-- A fresh supply over a clock. -/
def start (clock : Nat → Instant) : Supply := ⟨clock, 0, 0⟩

/-- Reads the clock. -/
def now (s : Supply) : Instant × Supply :=
  (s.clock s.readings, { s with readings := s.readings + 1 })

/-- Hands out an identifier. -/
def uid (s : Supply) : Uid × Supply := (⟨s.issued + 1⟩, { s with issued := s.issued + 1 })

/-- The id of an instance: the time of its start in milliseconds and its serial number with at least
nine digits. -/
def instanceIdText (time : Instant) (serial : Nat) : String :=
  String.ofList ("pi-".toList ++ (toString time.milliseconds).toList ++
    '-' :: Text.padded 10 9 serial)

/-- Hands out the id of a new instance. -/
def instanceId (s : Supply) : String × Supply :=
  let (time, s) := s.now
  (instanceIdText time (s.issued + 1), { s with issued := s.issued + 1 })

end Supply

end ProcessEngine

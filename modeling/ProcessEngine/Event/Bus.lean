import ProcessEngine.Event.Basic

/-!
# The event bus

Publishing never waits.  The bus keeps a fixed number of the latest events, and a subscriber that
falls further behind loses the oldest ones and is told how many.  A subscriber sees only what is
published after it subscribed.
-/

namespace ProcessEngine

/-- A bus with everything published on it so far and, per subscriber, how much of it is read or was
published before the subscription. -/
structure EventBus where
  capacity : Nat
  published : Array Event
  subscribers : List (String × Nat)
deriving Inhabited

namespace EventBus

/-- The least power of two that is at least the given number. -/
def powerOfTwoFrom (n : Nat) : Nat := if n ≤ 1 then 1 else Nat.pow 2 (Nat.log2 (n - 1) + 1)

/-- A bus that keeps at least the given number of events: at least one, rounded up to a power of
two. -/
def new (capacity : Nat) : EventBus := ⟨powerOfTwoFrom capacity, #[], []⟩

/-- The capacity of a bus that nothing else is asked of. -/
def defaultCapacity : Nat := 256

/-- How many subscribers there are. -/
def subscriberCount (b : EventBus) : Nat := b.subscribers.length

/-- Publishes an event. -/
def publish (b : EventBus) (e : Event) : EventBus := { b with published := b.published.push e }

/-- Publishes events in order. -/
def publishAll (b : EventBus) (es : List Event) : EventBus := es.foldl publish b

/-- Subscribes under a name; a subscriber of that name is replaced. -/
def subscribe (b : EventBus) (name : String) : EventBus :=
  { b with
    subscribers := (b.subscribers.filter (·.1 != name)) ++ [(name, b.published.size)] }

/-- Ends the subscription of a name. -/
def unsubscribe (b : EventBus) (name : String) : EventBus :=
  { b with subscribers := b.subscribers.filter (·.1 != name) }

/-- What a subscriber that has read up to a position still gets: the number of events lost, and the
events that are kept. -/
def pending (b : EventBus) (position : Nat) : Nat × List Event :=
  let lost := b.published.size - b.capacity - position
  (lost, (b.published.extract (position + lost) b.published.size).toList)

/-- Reads everything that is pending for a subscriber. -/
def drain (b : EventBus) (name : String) : Option (Nat × List Event) × EventBus :=
  match b.subscribers.lookup name with
  | none => (none, b)
  | some position =>
    (some (b.pending position),
      { b with
        subscribers := b.subscribers.map fun (n, p) =>
          if n == name then (n, b.published.size) else (n, p) })

/-- The bus in words. -/
def describe (b : EventBus) : String :=
  "EventBus \x7b subscribers: " ++ toString b.subscriberCount ++ " \x7d"

end EventBus

end ProcessEngine

import ProcessEngine.Binary64.Parts
import ProcessEngine.Compensation.RetryPolicy
import ProcessEngine.Event.Bus

/-!
# Engine settings

Every setting has a default, so that nothing has to be set.
-/

namespace ProcessEngine

/-- The settings of an engine: how many elements one call may visit, how many events a subscriber
may fall behind, whether completed tasks are recorded for compensation, and how often a compensation
is tried. -/
structure Config where
  maxTraversalSteps : Nat
  eventChannelCapacity : Nat
  recordExecutions : Bool
  retry : RetryPolicy
deriving Inhabited

/-- Why settings are refused. -/
inductive ConfigError where
  | malformed
  | noTraversalSteps
  | noEventCapacity
  | noAttempts
  | shrinkingBackoff
  | unreadableFile (path : String)
  | invalidFile (path : String)
deriving DecidableEq, Repr, Inhabited

/-- The fault in words. -/
def ConfigError.message : ConfigError → String
  | .malformed => "Failed to parse engine config YAML"
  | .noTraversalSteps => "max_traversal_steps must be greater than 0"
  | .noEventCapacity => "event_channel_capacity must be greater than 0"
  | .noAttempts => "compensation.retry.max_attempts must be at least 1 (or null)"
  | .shrinkingBackoff => "compensation.retry.backoff_multiplier must be >= 1.0"
  | .unreadableFile path => s!"Failed to read config file: {path}"
  | .invalidFile path => s!"Invalid config file: {path}"

namespace Config

/-- The settings of an engine for which nothing is set. -/
def standard : Config := ⟨10000, EventBus.defaultCapacity, false, RetryPolicy.standard⟩

/-- Checks settings; the first fault counts. -/
def check (c : Config) : Except ConfigError Config :=
  if c.maxTraversalSteps = 0 then .error .noTraversalSteps
  else if c.eventChannelCapacity = 0 then .error .noEventCapacity
  else if c.retry.maxAttempts = some 0 then .error .noAttempts
  else if Binary64.isFinite c.retry.multiplier && 1.0 ≤ c.retry.multiplier then .ok c
  else .error .shrinkingBackoff

end Config

end ProcessEngine

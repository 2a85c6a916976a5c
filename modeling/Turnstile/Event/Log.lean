import Turnstile.Event.Basic
import Turnstile.Text.Decimal

/-!
# Log records

The line of the log that each event makes: a level, a message and named
fields.
-/

namespace Turnstile

/-- The importance of a log record. -/
inductive Level where
  | debug
  | info
  | warn
  | error
  deriving DecidableEq

/-- The written name of a level. -/
def Level.name : Level → String
  | debug => "DEBUG"
  | info => "INFO"
  | warn => "WARN"
  | error => "ERROR"

/-- A log record. -/
structure LogRecord where
  level : Level
  message : String
  fields : List (String × String)
  deriving DecidableEq

/-- The log record of an event. -/
def Event.logRecord : Event → LogRecord
  | cacheHit key => ⟨.info, "idempotent replay", [("key", key)]⟩
  | lockContention key => ⟨.info, "idempotency lock contention", [("key", key)]⟩
  | concurrentConflict key => ⟨.warn, "concurrent duplicate rejected", [("key", key)]⟩
  | responseCached key status =>
      ⟨.debug, "response cached", [("key", key), ("status", Text.Decimal.ofNat status)]⟩
  | responseNotCached key status =>
      ⟨.debug, "response not cached", [("key", key), ("status", Text.Decimal.ofNat status)]⟩
  | invalidKey reason => ⟨.info, "invalid idempotency key", [("reason", reason)]⟩
  | rateLimited key limit =>
      ⟨.info, "rate limit exceeded", [("key", key), ("limit", Text.Decimal.ofNat limit)]⟩
  | storeFailure component error failedOpen =>
      ⟨.error, "store failure",
        [("component", component.name), ("error", error),
         ("failed_open", if failedOpen then "true" else "false")]⟩

end Turnstile

import Turnstile.Store.Basic

/-!
# Events

What the guards of the service report to its operators.
-/

namespace Turnstile

/-- The component that met a failure of the store. -/
inductive Component where
  | idempotency
  | rateLimit
  | other (name : String)
  deriving DecidableEq

/-- The written name of a component. -/
def Component.name : Component → String
  | idempotency => "idempotency"
  | rateLimit => "rate_limit"
  | other name => name

/-- An event. -/
inductive Event where
  /-- A recorded response was replayed instead of running the handler. -/
  | cacheHit (key : String)
  /-- Another request held the lock of the operation. -/
  | lockContention (key : String)
  /-- The holder of the lock had not finished within the wait. -/
  | concurrentConflict (key : String)
  /-- A response was recorded. -/
  | responseCached (key : String) (status : Nat)
  /-- A response was passed through without being recorded. -/
  | responseNotCached (key : String) (status : Nat)
  /-- The token of a request cannot name an operation. -/
  | invalidKey (reason : String)
  /-- A request was refused because its subject made too many. -/
  | rateLimited (key : String) (limit : Nat)
  /-- The store failed, and the component went on or refused the request. -/
  | storeFailure (component : Component) (error : String) (failedOpen : Bool)
  deriving DecidableEq

end Turnstile

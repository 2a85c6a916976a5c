import Turnstile.Limiter
import Turnstile.Once.Config

/-!
# Settings of the service

What an operator can choose, the usual choice of each, and the settings of the
guards that follow from it.

Main results:

- `once_standard`, `limiter_standard`: the usual settings of the service give
  the guards their usual settings, apart from the deadline of the store, which
  they share.
-/

namespace Turnstile

/-- Where the service keeps its state. -/
inductive Backend where
  | memory
  | redis
  deriving DecidableEq

/-- The settings of the service. -/
structure Config where
  backend : Backend
  redisUrl : Option String
  /-- What stands before every key in a shared store. -/
  redisKeyStart : String
  host : String
  port : Nat
  storeTimeoutMillis : Nat
  sweepIntervalSeconds : Nat
  rateLimit : Nat
  rateWindowSeconds : Nat
  /-- Whether callers with a name are limited by it instead of by address. -/
  limitPerIdentity : Bool
  /-- The limit of callers with a name, where it differs. -/
  identityRateLimit : Option Nat
  rateLimitFailsClosed : Bool
  recordSeconds : Nat
  lockSeconds : Nat
  contentionMillis : Nat
  hashBody : Bool
  /-- The methods whose bodies take part in keys; `none` for the usual ones. -/
  hashBodyMethods : Option (List Http.Method)
  /-- The methods whose requests are guarded; `none` for all. -/
  guardedMethods : Option (List Http.Method)
  executionFailsOpen : Bool
  jwtSecret : Option String
  /-- The token that opens the administration; without it there is none. -/
  adminToken : Option String
  deriving DecidableEq

namespace Config

/-- The usual settings. -/
def standard : Config where
  backend := .memory
  redisUrl := none
  redisKeyStart := "admission:"
  host := "0.0.0.0"
  port := 3000
  storeTimeoutMillis := 500
  sweepIntervalSeconds := 3600
  rateLimit := 100
  rateWindowSeconds := 60
  limitPerIdentity := false
  identityRateLimit := none
  rateLimitFailsClosed := false
  recordSeconds := 86400
  lockSeconds := 30
  contentionMillis := 100
  hashBody := false
  hashBodyMethods := none
  guardedMethods := none
  executionFailsOpen := false
  jwtSecret := none
  adminToken := none

/-! ## What follows from the settings -/

/-- The deadline of every call of the store. -/
def storeTimeout (c : Config) : Span := .ofMillis c.storeTimeoutMillis

/-- The time between two sweeps of the store. -/
def sweepInterval (c : Config) : Span := .ofSeconds c.sweepIntervalSeconds

/-- The window of the rate limit. -/
def rateWindow (c : Config) : Span := .ofSeconds c.rateWindowSeconds

/-- The settings of the limiter. -/
def limiter (c : Config) : LimiterConfig :=
  { LimiterConfig.standard with
    limit := c.rateLimit
    window := c.rateWindow
    identityLimit := c.identityRateLimit
    storeTimeout := c.storeTimeout
    failurePolicy := if c.rateLimitFailsClosed then .failClosed else .failOpen }

/-- The settings of at-most-once execution. -/
def once (c : Config) : Once.Config :=
  { Once.Config.standard with
    cacheTtl := .ofSeconds c.recordSeconds
    lockTtl := .ofSeconds c.lockSeconds
    contentionWait := .ofMillis c.contentionMillis
    scheme := ⟨c.hashBody, c.hashBodyMethods.getD KeyScheme.usualMethods⟩
    methods := c.guardedMethods
    storeTimeout := c.storeTimeout
    failurePolicy := if c.executionFailsOpen then .failOpen else .failClosed }

theorem limiter_standard : standard.limiter = LimiterConfig.standard := rfl

theorem once_standard :
    standard.once = { Once.Config.standard with storeTimeout := .ofMillis 500 } := rfl

end Config

end Turnstile

import Turnstile.Key.Window
import Turnstile.Program

/-!
# Rate limiting

A limiter admits at most so many requests of a subject in every window of
time.  Each admitted request leaves a stamp; a check drops the stamps older
than the window, counts the rest and records the request if the count is below
the limit, in one call of the store.  Room comes back one stamp at a time.
-/

namespace Turnstile

/-- The settings of a limiter. -/
structure LimiterConfig where
  limit : Nat
  window : Span
  /-- The limit of subjects with a name, where it differs. -/
  identityLimit : Option Nat
  /-- How much longer than the window the stamps of a subject are kept. -/
  safetyMargin : Span
  /-- The deadline of every call of the store. -/
  storeTimeout : Span
  failurePolicy : Store.FailurePolicy
  deriving DecidableEq

/-- The usual settings. -/
def LimiterConfig.standard : LimiterConfig where
  limit := 100
  window := .ofSeconds 60
  identityLimit := none
  safetyMargin := .ofSeconds 1
  storeTimeout := .ofMillis 500
  failurePolicy := .failOpen

/-- A limiter: its settings and the namespace of its keys. -/
structure Limiter where
  config : LimiterConfig
  ns : Namespace
  deriving DecidableEq

/-- The answer to a request for room. -/
structure Decision where
  allowed : Bool
  limit : Nat
  remaining : Nat
  /-- When a window that begins now ends; for information only. -/
  resetAt : Timestamp
  /-- After a refusal: when the oldest stamp leaves the window. -/
  retryAfter : Option Span
  deriving DecidableEq

namespace Limiter

open Store (Answer)

/-- The limiter for all requests. -/
def standard (config : LimiterConfig) : Limiter := ⟨config, .standard⟩

/-- A limiter for one endpoint, which shares no counter with the one for all
requests. -/
def forEndpoint (endpoint : String) (limit : Nat) (window : Span) : Limiter :=
  ⟨{ LimiterConfig.standard with limit := limit, window := window }, .ofEndpoint endpoint⟩

/-- The limiter with another policy for failures of the store. -/
def withFailurePolicy (l : Limiter) (policy : Store.FailurePolicy) : Limiter :=
  { l with config := { l.config with failurePolicy := policy } }

/-- The key of the window of a subject. -/
def keyFor (l : Limiter) (subject : Subject) : String :=
  l.ns.key subject

/-- The limit of a subject. -/
def limitFor (l : Limiter) : Subject → Nat
  | .identity _ => l.config.identityLimit.getD l.config.limit
  | .address _ => l.config.limit

/-- The end of a window that begins at `now`. -/
def resetFrom (l : Limiter) (now : Timestamp) : Timestamp :=
  now.addSaturating l.config.window

/-- The time until the oldest stamp leaves the window; the whole window where
no stamp is known. -/
def retryAfter (l : Limiter) (stamp : Int) : Option Int → Span
  | none => l.config.window
  | some oldest =>
      let length := min (l.config.window.nanos : Int) Timestamp.maxStamp
      let clamp (n : Int) : Int := max Timestamp.minStamp (min n Timestamp.maxStamp)
      let wait := clamp (clamp (oldest + length) - stamp)
      Span.min ⟨wait.toNat⟩ l.config.window

/-- The decision on a request that is let through. -/
def admission (limit remaining : Nat) (resetAt : Timestamp) : Decision :=
  ⟨true, limit, remaining, resetAt, none⟩

/-- The outcome that an answer of the store holds. -/
def outcomeOf : Answer → Store.WindowOutcome
  | .window outcome => outcome
  | _ => ⟨false, 0, none⟩

/-- Decides on a request by the outcome of recording it. -/
def decide (l : Limiter) (subject : Subject) (limit : Nat) (now : Timestamp)
    (outcome : Store.WindowOutcome) : Program Decision :=
  let resetAt := l.resetFrom now
  if outcome.admitted then pure (admission limit (limit - outcome.count) resetAt)
  else do
    Program.report (.rateLimited (l.keyFor subject) limit)
    pure ⟨false, limit, 0, resetAt, some (l.retryAfter now.stamp outcome.oldest)⟩

/-- Decides on a request after a failure of the store. -/
def onStoreFailure (l : Limiter) (limit : Nat) (now : Timestamp) (error : Store.Error) :
    Program (Except Store.Error Decision) := do
  let failOpen := l.config.failurePolicy = .failOpen
  Program.report (.storeFailure .rateLimit error.message failOpen)
  if failOpen then pure (.ok (admission limit limit (l.resetFrom now)))
  else pure (.error error)

/-- Asks for room for one request of a subject under a limit.  A window that
with its margin is too long for a span breaks the request off.  The clock is read
once, for the stamp of the request and for the end of its window; where each of
them takes a reading of its own, nothing is waited for in between. -/
def allowWithLimit (l : Limiter) (subject : Subject) (limit : Nat) :
    Program (Except Store.Error Decision) := do
  let now ← Program.clock
  match l.config.window.add? l.config.safetyMargin with
  | none => .crash
  | some ttl =>
      let answer ← Program.ask
        (.recordInWindow (l.keyFor subject) now.stamp l.config.window limit ttl)
        l.config.storeTimeout
      match answer with
      | .error error => l.onStoreFailure limit now error
      | .ok answer => do
          let decision ← l.decide subject limit now (outcomeOf answer)
          pure (.ok decision)

/-- Asks for room for one request of a subject. -/
def allow (l : Limiter) (subject : Subject) : Program (Except Store.Error Decision) :=
  l.allowWithLimit subject (l.limitFor subject)

/-- The number that an answer of the store holds. -/
def countOf : Answer → Nat
  | .count n => n
  | _ => 0

/-- The requests of a subject in the window that ends now. -/
def usage (l : Limiter) (subject : Subject) : Program (Except Store.Error Nat) := do
  let now ← Program.clock
  let answer ← Program.ask (.countInWindow (l.keyFor subject) now.stamp l.config.window)
    l.config.storeTimeout
  pure (answer.map countOf)

/-- The requests that a subject may still make in the window that ends now. -/
def remaining (l : Limiter) (subject : Subject) : Program (Except Store.Error Nat) := do
  let used ← l.usage subject
  pure (used.map (l.limitFor subject - ·))

/-- The end of a window that begins now. -/
def resetAt (l : Limiter) : Program Timestamp := do
  let now ← Program.clock
  pure (l.resetFrom now)

/-- Forgets the requests of a subject. -/
def reset (l : Limiter) (subject : Subject) : Program (Except Store.Error Unit) := do
  let answer ← Program.ask (.delete (l.keyFor subject)) l.config.storeTimeout
  pure (answer.map fun _ => ())

end Limiter

end Turnstile

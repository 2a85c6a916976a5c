import Turnstile.Http.Caller
import Turnstile.Limiter
import Turnstile.Service.Failure

/-!
# Throttled requests

What a response tells the caller of the rate limit, the responses to requests
that are refused or cannot be counted, and the guard that limits requests by
the address of their caller.

Main results:

- `Decision.le_roundUp_iff`: which waits are told no shorter than they are.
-/

namespace Turnstile

open Failure (numberValue)

/-- A response that is computed from a request behind a guard. -/
abbrev Next := Http.Request → Program Http.Response

namespace Decision

/-- Tells the decision in three headers. -/
def describe (d : Decision) (headers : Http.Headers) : Http.Headers :=
  ((headers.insert "x-ratelimit-limit" (numberValue d.limit)).insert
    "x-ratelimit-remaining" (numberValue d.remaining)).insert
    "x-ratelimit-reset" (numberValue d.resetAt.seconds.toNat)

/-- A response that tells the decision. -/
def mark (d : Decision) (response : Http.Response) : Http.Response :=
  { response with headers := d.describe response.headers }

/-- A span rounded up to whole seconds.  The seconds are counted in 64 bits and
wrap around where one more is too many; a program that checks its sums breaks
off there instead. -/
def roundUp (s : Span) : Span :=
  .ofSeconds (s.ceilSeconds % Span.secondsBound)

/-- The response to a request that is refused. -/
def rejection (d : Decision) : Http.Response :=
  d.mark (Failure.rateLimited (roundUp (d.retryAfter.getD (.ofSeconds 1)))).response

end Decision

namespace Limiter

/-- The response to a request that could not be counted. -/
def unavailable (error : Store.Error) (limit : Nat) : Http.Response :=
  (Failure.storeUnavailable error).response.withHeader "x-ratelimit-limit" (numberValue limit)

/-- Limits requests by the address of their caller. -/
def throttle (l : Limiter) (next : Next) (request : Http.Request) : Program Http.Response := do
  let subject := Subject.address (Http.callerAddress request.headers request.peer)
  let decision ← l.allow subject
  match decision with
  | .error error => pure (unavailable error (l.limitFor subject))
  | .ok decision =>
      if decision.allowed then do
        let response ← next request
        pure (decision.mark response)
      else pure decision.rejection

end Limiter

namespace Decision

/-- A span whose seconds can be counted is rounded up to them. -/
theorem roundUp_of_lt {s : Span} (h : s.ceilSeconds < Span.secondsBound) :
    roundUp s = .ofSeconds s.ceilSeconds := by
  rw [roundUp, Nat.mod_eq_of_lt h]

/-- A span whose seconds cannot be counted is rounded to none. -/
theorem roundUp_of_ge {s : Span} (hs : s.nanos < Span.bound)
    (h : Span.secondsBound ≤ s.ceilSeconds) : roundUp s = .zero := by
  have hseconds : s.ceilSeconds = Span.secondsBound :=
    Nat.le_antisymm (Span.ceilSeconds_le_secondsBound hs) h
  rw [roundUp, hseconds, Nat.mod_self]
  rfl

/-- Rounding up to whole seconds shortens a span just where its seconds cannot be
counted. -/
theorem le_roundUp_iff {s : Span} (hs : s.nanos < Span.bound) :
    s.nanos ≤ (roundUp s).nanos ↔ s.ceilSeconds < Span.secondsBound := by
  refine ⟨fun hle => Nat.lt_of_not_le fun hge => ?_, fun hlt => ?_⟩
  · rw [roundUp_of_ge hs hge] at hle
    have hzero : s.ceilSeconds ≤ 0 := Span.ceilSeconds_le hle
    exact absurd (Nat.le_trans hge hzero) (by decide)
  · rw [roundUp_of_lt hlt]
    exact s.le_ceilSeconds

end Decision

end Turnstile

import Turnstile.Identity.Resolver
import Turnstile.Service.Throttle

/-!
# Admission

A request is first counted for its caller, and refused where the caller made
too many.  An admitted request is then executed at most once, if it carries a
token.  Every response tells whether it was replayed; one to an admitted
request also tells the caller's limit.
-/

namespace Turnstile

/-- The two guards of the service, and how callers are told apart. -/
structure Admission where
  limiter : Limiter
  once : Once.Config
  resolver : Resolver
  /-- Whether callers with a name are limited by it instead of by address. -/
  perIdentity : Bool
  /-- The longest request body that is buffered to take part in a key. -/
  maxRequestBody : Nat

namespace Admission

/-- Tells whether a response was replayed. -/
def markReplayed (replayed : Bool) (response : Http.Response) : Http.Response :=
  response.withHeader "idempotent-replayed"
    (Bytes.ofText (if replayed then "true" else "false"))

/-- The response of a failure, which is never a replay. -/
def refuse (f : Failure) : Http.Response :=
  markReplayed false f.response

/-- The token that a request carries: none, or a text, or bytes that are no
visible characters. -/
inductive Carried where
  | nothing
  | token (text : String)
  | unreadable
  deriving DecidableEq

/-- The token that a request carries. -/
def carried (headers : Http.Headers) : Carried :=
  match headers.get? "idempotency-key" with
  | none => .nothing
  | some value =>
      match Http.visibleText? value with
      | some text => .token text
      | none => .unreadable

/-- The text of the failure of a token that is no visible text. -/
def unreadableToken : String := "idempotency key must be visible ASCII"

/-- Tells a response or failure with its mark. -/
def conclude : Once.Result → Http.Response
  | .ok outcome => markReplayed outcome.isReplay outcome.response
  | .error error => refuse (.ofExecution error)

/-- Executes a request under the token that it carries. -/
def execute (a : Admission) (token : Option String) (body : Option Bytes) (next : Next)
    (request : Http.Request) : Program Http.Response := do
  let result ← Once.execute a.once ⟨token, request.method, request.path, body⟩ (next request)
  pure (conclude result)

/-- Executes a request at most once.  A body that takes part in the key is
buffered first, and the handler gets the same bytes. -/
def coordinate (a : Admission) (next : Next) (request : Http.Request) : Program Http.Response :=
  match carried request.headers with
  | .unreadable => pure (refuse (.invalidToken unreadableToken))
  | .nothing => a.execute none none next request
  | .token token =>
      if a.once.scheme.hashesBody request.method then
        match request.body.bytesWithin? a.maxRequestBody with
        | some bytes =>
            a.execute (some token) (some bytes) next
              { request with body := .ofBytes bytes }
        | none => pure (refuse .payloadTooLarge)
      else a.execute (some token) none next request

/-- Goes on with a request after the limiter's answer. -/
def afterLimiter (a : Admission) (subject : Subject) (next : Next) (request : Http.Request) :
    Except Store.Error Decision → Program Http.Response
  | .error error =>
      pure (markReplayed false (Limiter.unavailable error (a.limiter.limitFor subject)))
  | .ok decision =>
      if decision.allowed then do
        let response ← a.coordinate next request
        pure (decision.mark response)
      else pure (markReplayed false decision.rejection)

/-- Guards what is behind it. -/
def guard (a : Admission) (next : Next) (request : Http.Request) : Program Http.Response := do
  let now ← Program.clock
  let subject := a.resolver.subject a.perIdentity now request
  let answer ← a.limiter.allow subject
  a.afterLimiter subject next request answer

end Admission

end Turnstile

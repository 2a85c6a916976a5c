import Turnstile.Event.Log
import Turnstile.Http.Message
import Turnstile.Text.Lossy

/-!
# The log of server errors

A response that says that the server failed is logged with its body, if that is
not too long.  The response reaches the caller as it was.

Main results:

- `delivered_observe`: the caller gets the same bytes and the same ending.
-/

namespace Turnstile

/-- A response with what is to be logged of it. -/
structure Observed where
  response : Http.Response
  log : Option LogRecord
  deriving DecidableEq

namespace ErrorLog

/-- The longest body that is logged, in bytes. -/
def maxLogged : Nat := 1024

/-- The fields of the log record of a response. -/
def fields (method : Http.Method) (path : String) (status : Nat) : List (String × String) :=
  [("method", method.name), ("path", path), ("status", Text.Decimal.ofNat status)]

/-- The message of the log record of a body that was buffered, or was not. -/
def message : Http.Captured → String
  | .complete bytes => "Server error occurred: " ++ Text.ofBytesLossy bytes
  | .passthrough _ =>
      "Server error occurred, body over " ++ Text.Decimal.ofNat maxLogged ++ " bytes not logged"

/-- The body that goes on after buffering. -/
def forward : Http.Captured → Http.Body
  | .complete bytes => .ofBytes bytes
  | .passthrough body => body

/-- Observes the response to a request. -/
def observe (method : Http.Method) (path : String) (response : Http.Response) : Observed :=
  if Http.isServerError response.status then
    let captured := response.body.collectLimited maxLogged
    ⟨{ response with body := forward captured },
      some ⟨.error, message captured, fields method path response.status⟩⟩
  else ⟨response, none⟩

theorem delivered_forward (captured : Http.Captured) :
    (forward captured).delivered = captured.delivered := by
  cases captured with
  | complete bytes => exact Http.Body.delivered_ofBytes bytes
  | passthrough body => rfl

/-- The caller gets the same bytes and the same ending. -/
theorem delivered_observe (method : Http.Method) (path : String) (response : Http.Response) :
    (observe method path response).response.body.delivered = response.body.delivered := by
  unfold observe
  split
  · simp [delivered_forward, Http.Body.delivered_collectLimited]
  · rfl

end ErrorLog

end Turnstile

import Turnstile.Http.Message
import Turnstile.Time.Timestamp

/-!
# Recorded responses

A record keeps a response for replay: its status, its headers in their order
with every value, its body, and the span of time for which it is valid.

Main results:

- `toResponse_capture`: a replayed record shows the status that was captured.
-/

namespace Turnstile

/-- A response that was kept for replay. -/
structure Record where
  status : Nat
  headers : List (String × Bytes)
  body : Bytes
  createdAt : Timestamp
  expiresAt : Timestamp
  deriving DecidableEq

namespace Record

/-- Keeps a response for a span of time from `createdAt` on; a span that ends
after the latest instant ends there. -/
def capture (status : Nat) (headers : Http.Headers) (body : Bytes) (createdAt : Timestamp)
    (ttl : Span) : Record where
  status := status
  headers := headers.toList
  body := body
  createdAt := createdAt
  expiresAt := createdAt.addSaturating ttl

/-- Whether the record is no longer valid at an instant. -/
def isExpired (r : Record) (now : Timestamp) : Bool :=
  r.expiresAt.le now

/-- Whether the status of the record says that the request succeeded. -/
def isSuccess (r : Record) : Bool :=
  Http.isSuccess r.status

/-- The headers of the record as a header map; those that are no headers are
left out.  There is room for all of the others. -/
def headerMap (r : Record) : Http.Headers :=
  Http.Headers.ofList <| r.headers.filterMap fun header =>
    if Http.isHeaderValue header.2 then
      (Http.headerName? header.1).map fun name => (name, header.2)
    else none

/-- The statuses that a response can have. -/
def isStatus (status : Nat) : Bool :=
  100 ≤ status && status < 1000

/-- The response that the record keeps; a status that is none becomes 500. -/
def toResponse (r : Record) : Http.Response where
  status := if isStatus r.status then r.status else 500
  headers := r.headerMap
  body := Http.Body.ofBytes r.body

/-- A replayed record shows the status that was captured. -/
theorem toResponse_capture {status : Nat} (headers : Http.Headers) (body : Bytes)
    (createdAt : Timestamp) (ttl : Span) (h : isStatus status = true) :
    (capture status headers body createdAt ttl).toResponse.status = status := by
  simp [capture, toResponse, h]

end Record

end Turnstile

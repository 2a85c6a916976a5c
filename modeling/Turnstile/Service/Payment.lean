import Turnstile.Http.MediaType
import Turnstile.Json.Reader
import Turnstile.Json.Writer
import Turnstile.Service.Throttle
import Turnstile.Text.Upper
import Turnstile.Time.Rfc3339

/-!
# Payments

The operation that the service offers for demonstration: it reads an amount, a
currency and a description, and answers with a payment that has an identifier
of its own.  Since every execution draws a new identifier, a replay shows.
-/

namespace Turnstile

open Json (Read)

/-- The envelope of every successful answer. -/
def envelope (data : Bytes) : Bytes :=
  Json.object
    [("code", Json.natural 0), ("msg", Json.text "success"), ("resp_data", data)]

/-- What a client asks to be paid. -/
structure PaymentRequest where
  amount : Int
  currency : String
  description : Option String
  deriving DecidableEq

namespace PaymentRequest

/-! ## Reading -/

/-- Reads an amount, a whole number of 64 bits. -/
def readAmount (input : Bytes) : Read Int :=
  Json.readInteger (-9_223_372_036_854_775_808) 9_223_372_036_854_775_807 input

/-- Reads a text or `null`. -/
def readDescription (input : Bytes) : Read (Option String) :=
  Json.readOption Json.readText input

/-- The members of a request read so far. -/
structure Members where
  amount : Option Int
  currency : Option String
  description : Option (Option String)

/-- Reads one member of a request. -/
def readMember (m : Members) (name : String) (input : Bytes) : Read Members :=
  if name = "amount" then
    (Json.readField m.amount readAmount input).map fun r => ({ m with amount := r.1 }, r.2)
  else if name = "currency" then
    (Json.readField m.currency Json.readText input).map fun r => ({ m with currency := r.1 }, r.2)
  else if name = "description" then
    (Json.readField m.description readDescription input).map fun r =>
      ({ m with description := r.1 }, r.2)
  else (Json.skipField input).map fun r => (m, r.2)

/-- The request of the members; the description may be missing. -/
def Members.toRequest (m : Members) : Option PaymentRequest := do
  let amount ← m.amount
  let currency ← m.currency
  some ⟨amount, currency, m.description.getD none⟩

/-- Reads a request from an array of its three values, after the opening
bracket. -/
def readTuple (input : Bytes) : Except Json.Stop (PaymentRequest × Bytes) := do
  let (amount, rest) ← Json.readComponent true readAmount input
  let (currency, rest) ← Json.readComponent false Json.readText rest
  let (description, rest) ← Json.readComponent false readDescription rest
  .ok (⟨amount, currency, description⟩, rest)

/-- Reads a request. -/
def read (input : Bytes) : Read PaymentRequest :=
  match Json.skipBlanks input with
  | 0x5B :: rest => Json.closing Json.closeArray (readTuple rest)
  | 0x7B :: rest => Json.readObject ⟨none, none, none⟩ readMember Members.toRequest rest
  | input => Json.mismatchAt input

/-! ## The body of a request -/

/-- The longest body that is read, in bytes. -/
def maxBody : Nat := 2 * 1024 * 1024

/-- Why a body holds no request. -/
inductive Rejection where
  /-- The content type announces something else. -/
  | contentType
  /-- The body is too long. -/
  | tooLong
  /-- The body broke off. -/
  | brokenOff
  | unreadable (fault : Json.Fault)
  deriving DecidableEq

/-- The status that reports a rejection. -/
def Rejection.status : Rejection → Nat
  | contentType => 415
  | tooLong => 413
  | brokenOff => 400
  | unreadable .malformed => 400
  | unreadable .mismatch => 422

/-- The text that reports a rejection. -/
def Rejection.message : Rejection → String
  | contentType => "Expected request with `Content-Type: application/json`"
  | tooLong => "Failed to buffer the request body: length limit exceeded"
  | brokenOff => "Failed to buffer the request body"
  | unreadable .malformed => "Failed to parse the request body as JSON"
  | unreadable .mismatch => "Failed to deserialize the JSON body into the target type"

/-- The bytes of a body that is short enough and does not break off. -/
def buffered (body : Http.Body) : Except Rejection Bytes :=
  match body.bytesWithin? maxBody with
  | some bytes => .ok bytes
  | none => .error (if maxBody < body.bytes.length then .tooLong else .brokenOff)

/-- The request that an HTTP request holds. -/
def ofHttp (request : Http.Request) : Except Rejection PaymentRequest := do
  if Http.MediaType.announcesJson request.headers then
    let bytes ← buffered request.body
    match Json.readAll read bytes with
    | .ok payment => .ok payment
    | .error fault => .error (.unreadable fault)
  else .error .contentType

end PaymentRequest

/-! ## Payments -/

/-- A payment. -/
structure Payment where
  id : String
  amount : Int
  currency : String
  description : Option String
  createdAt : Timestamp
  deriving DecidableEq

namespace Payment

/-- The identifier that a number makes, in the form of a random UUID. -/
def idOf (n : Nat) : String :=
  "00000000-0000-4000-8000-" ++ Bytes.hex (Bytes.bigEndian 6 n)

/-- The payment that a request makes. -/
def create (request : PaymentRequest) (number : Nat) (now : Timestamp) : Payment :=
  ⟨idOf number, request.amount, Text.upper request.currency, request.description, now⟩

/-- A payment as a JSON object. -/
def render (p : Payment) : Bytes :=
  Json.object
    [("payment_id", Json.text p.id),
     ("amount", Json.integer p.amount),
     ("currency", Json.text p.currency),
     ("description", Json.optionalText p.description),
     ("created_at", Json.text (Rfc3339.render p.createdAt))]

/-- Makes a payment of an HTTP request. -/
def handle (request : Http.Request) : Program Http.Response :=
  match PaymentRequest.ofHttp request with
  | .error rejection => pure (.plain rejection.status rejection.message)
  | .ok wanted => do
      let number ← Program.draw
      let now ← Program.clock
      pure (.json 201 (envelope (create wanted number now).render))

end Payment

end Turnstile

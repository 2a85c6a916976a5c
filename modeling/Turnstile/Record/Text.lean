import Turnstile.Json.Reader
import Turnstile.Json.Writer
import Turnstile.Record.Basic
import Turnstile.Time.Rfc3339

/-!
# The stored text of a record

A record is stored as a JSON object with the members `status_code`, `headers`,
`body`, `created_at` and `expires_at`.  Byte strings are arrays of numbers and
instants are written as RFC 3339 has it.

A record is read from an object with these members in any order and no member
twice, or from an array of the five values in the order above.  Other members
are passed over.
-/

namespace Turnstile.Record

open Json (Read)

/-! ## Writing -/

/-- A byte string as an array of numbers. -/
def renderBytes (bytes : Bytes) : Bytes :=
  Json.array (bytes.map fun b => Json.natural b.toNat)

/-- A header as an array of name and value. -/
def renderHeader (header : String × Bytes) : Bytes :=
  Json.array [Json.text header.1, renderBytes header.2]

/-- The stored text of a record. -/
def render (r : Record) : Bytes :=
  Json.object
    [("status_code", Json.natural r.status),
     ("headers", Json.array (r.headers.map renderHeader)),
     ("body", renderBytes r.body),
     ("created_at", Json.text (Rfc3339.render r.createdAt)),
     ("expires_at", Json.text (Rfc3339.render r.expiresAt))]

/-! ## Reading -/

/-- Reads a status, a number below 2^16. -/
def readStatus (input : Bytes) : Read Nat :=
  (Json.readInteger 0 65535 input).map fun r => (r.1.toNat, r.2)

/-- Reads a byte, a number below 256. -/
def readByte (input : Bytes) : Read UInt8 :=
  (Json.readInteger 0 255 input).map fun r => (UInt8.ofNat r.1.toNat, r.2)

/-- Reads a byte string. -/
def readBytes (input : Bytes) : Read Bytes :=
  Json.readArray readByte input

/-- Reads the headers of a record. -/
def readHeaders (input : Bytes) : Read (List (String × Bytes)) :=
  Json.readArray (Json.readPair Json.readText readBytes) input

/-- Reads an instant. -/
def readInstant (input : Bytes) : Read Timestamp :=
  match Json.readText input with
  | .error e => .error e
  | .ok (text, rest) =>
      match Rfc3339.read? text with
      | some t => .ok (t, rest)
      | none => Json.mismatch rest

/-- The members of a record that were read so far. -/
structure Members where
  status : Option Nat
  headers : Option (List (String × Bytes))
  body : Option Bytes
  createdAt : Option Timestamp
  expiresAt : Option Timestamp

/-- No member at all. -/
def Members.none : Members := ⟨.none, .none, .none, .none, .none⟩

/-- Reads one member of a record. -/
def readMember (m : Members) (name : String) (input : Bytes) : Read Members :=
  if name = "status_code" then
    (Json.readField m.status readStatus input).map fun r => ({ m with status := r.1 }, r.2)
  else if name = "headers" then
    (Json.readField m.headers readHeaders input).map fun r => ({ m with headers := r.1 }, r.2)
  else if name = "body" then
    (Json.readField m.body readBytes input).map fun r => ({ m with body := r.1 }, r.2)
  else if name = "created_at" then
    (Json.readField m.createdAt readInstant input).map fun r => ({ m with createdAt := r.1 }, r.2)
  else if name = "expires_at" then
    (Json.readField m.expiresAt readInstant input).map fun r => ({ m with expiresAt := r.1 }, r.2)
  else
    (Json.skipField input).map fun r => (m, r.2)

/-- The record of the members, if none is missing. -/
def Members.toRecord (m : Members) : Option Record := do
  let status ← m.status
  let headers ← m.headers
  let body ← m.body
  let createdAt ← m.createdAt
  let expiresAt ← m.expiresAt
  some ⟨status, headers, body, createdAt, expiresAt⟩

/-- Reads a record from an array of its five values, after the opening
bracket. -/
def readTuple (input : Bytes) : Except Json.Stop (Record × Bytes) := do
  let (status, rest) ← Json.readComponent true readStatus input
  let (headers, rest) ← Json.readComponent false readHeaders rest
  let (body, rest) ← Json.readComponent false readBytes rest
  let (createdAt, rest) ← Json.readComponent false readInstant rest
  let (expiresAt, rest) ← Json.readComponent false readInstant rest
  .ok (⟨status, headers, body, createdAt, expiresAt⟩, rest)

/-- Reads a record. -/
def readRecord (input : Bytes) : Read Record :=
  match Json.skipBlanks input with
  | 0x5B :: rest => Json.closing Json.closeArray (readTuple rest)
  | 0x7B :: rest => Json.readObject Members.none readMember Members.toRecord rest
  | input => Json.mismatchAt input

/-- The record that a stored text holds. -/
def ofStored? (stored : Bytes) : Option Record :=
  (Json.readAll readRecord stored).toOption

end Turnstile.Record

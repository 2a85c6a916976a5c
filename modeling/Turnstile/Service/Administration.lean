import Turnstile.Digest.Sha256
import Turnstile.Http.Percent
import Turnstile.Service.Payment

/-!
# Administration of the rate limit

An operator who presents the token of the administration can look at the use
that a subject makes of its limit, and can forget it.

Main results:

- `presents_of_bearer`: whoever presents the token itself is an operator.
-/

namespace Turnstile

/-- What an operator is shown of a subject. -/
structure Usage where
  /-- The text by which the subject was asked for. -/
  subject : String
  key : String
  limit : Nat
  used : Nat
  remaining : Nat
  resetAt : Timestamp
  deriving DecidableEq

/-- The use of a subject as a JSON object. -/
def Usage.render (u : Usage) : Bytes :=
  Json.object
    [("subject", Json.text u.subject),
     ("key", Json.text u.key),
     ("limit", Json.natural u.limit),
     ("used", Json.natural u.used),
     ("remaining", Json.natural u.remaining),
     ("reset_at", Json.text (Rfc3339.render u.resetAt))]

namespace Administration

/-- Whether a token that is presented matches the one that is expected: their
digests are compared, which are of one length. -/
def tokensMatch (presented expected : String) : Bool :=
  Digest.Sha256.digest (Bytes.ofText presented) = Digest.Sha256.digest (Bytes.ofText expected)

/-- Whether a request presents a token. -/
def presents (token : String) (request : Http.Request) : Bool :=
  (Http.bearer? request.headers).any (tokensMatch · token)

/-- Whoever presents the token itself is an operator. -/
theorem presents_of_bearer {token : String} {request : Http.Request}
    (h : Http.bearer? request.headers = some token) : presents token request = true := by
  simp [presents, h, tokensMatch]

/-- The text that refuses a subject whose bytes are no text. -/
def unreadableSubject : String := "Invalid URL: Invalid UTF-8 in `subject`"

/-- Shows the use that a subject makes of its limit. -/
def showUsage (l : Limiter) (text : String) : Program Http.Response := do
  let subject := Subject.ofText text
  let answer ← l.usage subject
  match answer with
  | .error error => pure (Failure.storeUnavailable error).response
  | .ok used => do
      let limit := l.limitFor subject
      let resetAt ← l.resetAt
      let usage : Usage := ⟨text, l.keyFor subject, limit, used, limit - used, resetAt⟩
      pure (.json 200 (envelope usage.render))

/-- Forgets the requests of a subject. -/
def forget (l : Limiter) (text : String) : Program Http.Response := do
  let answer ← l.reset (Subject.ofText text)
  match answer with
  | .error error => pure (Failure.storeUnavailable error).response
  | .ok () => pure (.ofStatus 204)

/-- Answers with the text of a path segment, if it has one. -/
def withText (segment : List Char) (answer : String → Program Http.Response) :
    Program Http.Response :=
  match Http.Percent.decodeText? segment with
  | some text => answer text
  | none => pure (.plain 400 unreadableSubject)

/-- Answers a request of an operator for the subject of a path segment. -/
def handle (l : Limiter) (segment : List Char) (request : Http.Request) :
    Program Http.Response :=
  if request.method = .get ∨ request.method = .head then withText segment (showUsage l)
  else if request.method = .delete then withText segment (forget l)
  else pure (.ofStatus 405)

/-- Answers a request for the subject of a path segment, if it presents the
token. -/
def guarded (token : String) (l : Limiter) (segment : List Char) (request : Http.Request) :
    Program Http.Response :=
  if presents token request then handle l segment request
  else pure Failure.unauthorized.response

end Administration

end Turnstile

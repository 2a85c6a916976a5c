import Turnstile.Config.Basic
import Turnstile.Service.Administration
import Turnstile.Service.Admission
import Turnstile.Service.ErrorLog

/-!
# The service

The routes of the service, the guards in front of them and the log of its
errors.  The health of the service can be asked for without limit; every other
request passes the admission, also one for a path that is not there.
-/

namespace Turnstile

/-! ## Routes -/

/-- What a path leads to. -/
inductive Route where
  | health
  | payments
  /-- The administration of the subject of a path segment. -/
  | subject (segment : List Char)
  | nothing
  deriving DecidableEq

/-- Where the paths of the administration begin. -/
def Route.administration : List Char := "/admin/rate-limit/".toList

/-- What a path leads to, with or without an administration. -/
def Route.ofPath (administered : Bool) (path : String) : Route :=
  let cs := path.toList
  let segment := cs.drop administration.length
  if path = "/health" then health
  else if path = "/payments" then payments
  else if administered && administration.isPrefixOf cs && !segment.isEmpty &&
      !segment.contains '/' then subject segment
  else nothing

/-! ## The service -/

/-- The service: its admission, and the token that opens its administration. -/
structure Service where
  admission : Admission
  adminToken : Option String

/-- How the names of callers are told under a secret, if there is one. -/
def Resolver.ofSecret : Option String → Resolver
  | some secret => signed secret
  | none => anonymous

/-- The admission of given settings. -/
def Admission.ofConfig (c : Config) : Admission where
  limiter := .standard c.limiter
  once := c.once
  resolver := .ofSecret c.jwtSecret
  perIdentity := c.limitPerIdentity
  maxRequestBody := c.once.maxBodyBytes

namespace Service

/-- The service of given settings. -/
def ofConfig (c : Config) : Service := ⟨.ofConfig c, c.adminToken⟩

/-- The answer to a request for the health of the service. -/
def health (request : Http.Request) : Http.Response :=
  if request.method = .get ∨ request.method = .head then
    .json 200 (envelope (Json.object [("status", Json.text "ok")]))
  else .ofStatus 405

/-- What a request leads to. -/
def route (s : Service) (request : Http.Request) : Route :=
  .ofPath s.adminToken.isSome request.path

/-- Answers an admitted request. -/
def handle (s : Service) (request : Http.Request) : Program Http.Response :=
  match s.route request, s.adminToken with
  | .payments, _ =>
      if request.method = .post then Payment.handle request else pure (.ofStatus 405)
  | .subject segment, some token =>
      Administration.guarded token s.admission.limiter segment request
  | _, _ => pure (.ofStatus 404)

/-- Answers a request, before the log. -/
def answer (s : Service) (request : Http.Request) : Program Http.Response :=
  if s.route request = .health then pure (health request)
  else s.admission.guard s.handle request

/-- Answers a request.  The answer to HEAD is logged with its body and sent
without it. -/
def respond (s : Service) (request : Http.Request) : Program Observed := do
  let response ← s.answer request
  let observed := ErrorLog.observe request.method request.path response
  pure { observed with response := observed.response.forMethod request.method }

end Service

/-! ## Other handlers -/

/-- Answers a request by a handler behind a guard. -/
def mount (guard : Next → Next) (request : Http.Request) : Program Http.Response := do
  let response ← guard (fun request => .serve request fun response =>
    pure (response.fromRoute request.method)) request
  pure ((response.fromRoute request.method).forMethod request.method)

/-- Answers a request by a handler behind the log of server errors. -/
def mountLogged (request : Http.Request) : Program Observed :=
  .serve request fun response =>
    let observed := ErrorLog.observe request.method request.path
      (response.fromRoute request.method)
    pure { observed with
      response := (observed.response.fromRoute request.method).forMethod request.method }

end Turnstile

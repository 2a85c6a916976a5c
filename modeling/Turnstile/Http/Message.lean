import Turnstile.Http.Body
import Turnstile.Http.Headers
import Turnstile.Http.Method

/-!
# Requests and responses
-/

namespace Turnstile.Http

/-- A request, as the layers of the service see it. -/
structure Request where
  method : Method
  /-- The path of the target, without its query. -/
  path : String
  headers : Headers
  body : Body
  /-- The network address of the peer as text, where the connection tells. -/
  peer : Option String
  deriving DecidableEq

/-- A response. -/
structure Response where
  status : Nat
  headers : Headers
  body : Body
  deriving DecidableEq

/-- Whether a status says that the request succeeded. -/
def isSuccess (status : Nat) : Bool :=
  200 ≤ status && status < 300

/-- Whether a status says that the server failed. -/
def isServerError (status : Nat) : Bool :=
  500 ≤ status && status < 600

namespace Response

/-- A response with a status and nothing else. -/
def ofStatus (status : Nat) : Response :=
  ⟨status, Headers.empty, Body.empty⟩

/-- A response of a status and the bytes of a JSON text. -/
def json (status : Nat) (text : Bytes) : Response :=
  ⟨status, Headers.ofList [("content-type", Bytes.ofText "application/json")], Body.ofBytes text⟩

/-- A response of a status and a plain text. -/
def plain (status : Nat) (text : String) : Response :=
  ⟨status, Headers.ofList [("content-type", Bytes.ofText "text/plain; charset=utf-8")],
    Body.ofBytes (Bytes.ofText text)⟩

/-- The response with a header that has one value. -/
def withHeader (r : Response) (name : String) (value : Bytes) : Response :=
  { r with headers := r.headers.insert name value }

/-- The response as the answer to a method: HEAD gets no body, and a
successful CONNECT none either. -/
def forMethod (r : Response) (method : Method) : Response :=
  if method = .head then { r with body := Body.empty } else r

/-- The response of a handler as it leaves its route: a successful answer to
CONNECT must not announce a body, so it loses the one that it has. -/
def fromRoute (r : Response) (method : Method) : Response :=
  let announcesBody := r.headers.contains "content-length" ||
    r.headers.contains "transfer-encoding" || r.body.declared.any (0 < ·)
  if method = .connect ∧ isSuccess r.status ∧ announcesBody then { r with body := Body.empty }
  else r

end Response

/-! ## Targets -/

/-- The characters before the query or fragment of a target. -/
def beforeQuery (cs : List Char) : List Char :=
  cs.takeWhile fun c => c != '?' && c != '#'

/-- What follows the scheme of a target in absolute form. -/
def afterScheme : List Char → Option (List Char)
  | ':' :: '/' :: '/' :: rest => some rest
  | c :: rest => if c == '/' || c == '?' then none else afterScheme rest
  | [] => none

/-- The characters from the end of an authority on. -/
def afterAuthority (cs : List Char) : List Char :=
  cs.dropWhile fun c => c != '/' && c != '?' && c != '#'

/-- The path of a request target: what stands before the query of a target in
origin form, and after the authority of one in absolute form.  A target that is
an authority alone has no path. -/
def pathOfTarget (target : String) : String :=
  match target.toList with
  | '/' :: rest => String.ofList ('/' :: beforeQuery rest)
  | ['*'] => "*"
  | cs =>
      match afterScheme cs with
      | some rest =>
          let path := beforeQuery (afterAuthority rest)
          if path.isEmpty then "/" else String.ofList path
      | none => ""

end Turnstile.Http

import Turnstile.Http.Caller
import Turnstile.Identity.WebToken
import Turnstile.Key.Window
import Turnstile.Time.Timestamp

/-!
# Identities of callers

Who a request is counted for: the caller's name, where one is asked for and
the request carries a token that proves it, else the caller's address.  A token
that proves nothing is no reason to refuse a request.
-/

namespace Turnstile

/-- How the names of callers are told.  These are the ways that the service has;
whoever embeds its guards may tell names in a way of its own, which is not among
them. -/
inductive Resolver where
  /-- Every caller is anonymous. -/
  | anonymous
  /-- The subject of a token that is signed under a secret. -/
  | signed (secret : String)
  deriving DecidableEq

/-- The name of the caller of a request, whose token is judged by the instant that
the guards read. -/
def Resolver.name? (r : Resolver) (now : Timestamp) (headers : Http.Headers) : Option String :=
  match r with
  | anonymous => none
  | signed secret =>
      ((Http.bearer? headers).bind (WebToken.subject? secret now.seconds)).filter (· ≠ "")

/-- Who a request is counted for. -/
def Resolver.subject (r : Resolver) (perIdentity : Bool) (now : Timestamp)
    (request : Http.Request) : Subject :=
  let address := Subject.address (Http.callerAddress request.headers request.peer)
  if perIdentity then ((r.name? now request.headers).map Subject.identity).getD address
  else address

end Turnstile

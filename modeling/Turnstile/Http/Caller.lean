import Turnstile.Http.Message
import Turnstile.Text.Blank
import Turnstile.Text.Parts

/-!
# The caller of a request

The address of the caller as a proxy in front of the service reports it, or
that of the peer; and the credential that the caller presents.
-/

namespace Turnstile.Http

/-- The address in the header that names the caller. -/
def realAddress? (headers : Headers) : Option String :=
  ((headers.get? "x-real-ip").bind visibleText?).filter fun text => !Text.isBlankText text

/-- The first address in the header that lists the hops of the request. -/
def forwardedAddress? (headers : Headers) : Option String :=
  ((headers.get? "x-forwarded-for").bind visibleText?).bind fun text =>
    ((Text.splitOn ',' text.toList).map String.ofList).find? fun hop => !Text.isBlankText hop

/-- The address of the caller: as the proxies report it, else that of the
peer. -/
def callerAddress (headers : Headers) (peer : Option String) : String :=
  Text.trim <|
    ((realAddress? headers).or ((forwardedAddress? headers).or peer)).getD "unknown"

/-- The scheme of a bearer credential with the space behind it. -/
def bearerScheme : List Char := "Bearer ".toList

/-- The bearer credential of a request, without the blanks around it. -/
def bearer? (headers : Headers) : Option String :=
  ((headers.get? "authorization").bind visibleText?).bind fun text =>
    let cs := text.toList
    if bearerScheme.isPrefixOf cs then
      some (Text.trim (String.ofList (cs.drop bearerScheme.length)))
    else none

end Turnstile.Http

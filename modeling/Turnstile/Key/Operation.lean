import Turnstile.Digest.Sha256
import Turnstile.Http.Method

/-!
# Keys of operations

An operation is identified by the token that the client sends, the method and
the path, and, where that is asked for, the request body.  Its key is a digest
of these parts.  Each part stands behind its length, so that the parts can be
told apart in what is hashed.

Main results:

- `OperationKey.lock_injective`: two operations share a lock only if they share a key.
-/

namespace Turnstile

/-- The key of an operation, under which its response is stored. -/
structure OperationKey where
  text : String
  deriving DecidableEq

namespace OperationKey

/-- The key of the lock that is held while the operation runs. -/
def lock (key : OperationKey) : String :=
  "lock:" ++ key.text

theorem lock_injective {a b : OperationKey} (h : a.lock = b.lock) : a = b := by
  cases a; cases b
  simpa [lock] using h

end OperationKey

/-- The SHA-256 digest of a request body in hexadecimal digits. -/
def bodyDigest (body : Bytes) : String :=
  Digest.Sha256.hexDigest body

/-- Which parts of a request take part in the key of its operation. -/
structure KeyScheme where
  hashBody : Bool
  /-- The methods whose bodies take part when bodies do. -/
  hashBodyMethods : List Http.Method
  deriving DecidableEq

namespace KeyScheme

/-- The methods whose bodies take part unless others are named. -/
def usualMethods : List Http.Method := [.post, .put, .patch]

/-- The scheme that leaves bodies out. -/
def standard : KeyScheme := ⟨false, usualMethods⟩

/-- Whether the body of a request takes part in its key. -/
def hashesBody (scheme : KeyScheme) (method : Http.Method) : Bool :=
  scheme.hashBody && scheme.hashBodyMethods.contains method

/-- A part of a key behind its length. -/
def framed (part : Bytes) : Bytes :=
  Bytes.bigEndian 8 part.length ++ part

/-- The bytes that are hashed for an operation. -/
def identity (scheme : KeyScheme) (token : String) (method : Http.Method) (path : String)
    (body : Option Bytes) : Bytes :=
  let parts := [token, method.name, path].flatMap fun part => framed (Bytes.ofText part)
  if scheme.hashesBody method then parts ++ Bytes.ofText (bodyDigest (body.getD [])) else parts

/-- The key of an operation. -/
def key (scheme : KeyScheme) (token : String) (method : Http.Method) (path : String)
    (body : Option Bytes) : OperationKey :=
  ⟨"idempotency:" ++ Digest.Sha256.hexDigest (scheme.identity token method path body)⟩

end KeyScheme

end Turnstile

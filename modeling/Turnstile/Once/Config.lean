import Turnstile.Key.Operation
import Turnstile.Store.Basic
import Turnstile.Text.Blank
import Turnstile.Text.Decimal

/-!
# Settings of at-most-once execution

How long responses are replayed and locks are held, which requests are
guarded, and which tokens may name an operation.

Main results:

- `validateToken_eq_none_iff`: the tokens that are accepted.
-/

namespace Turnstile.Once

/-- The settings of at-most-once execution. -/
structure Config where
  /-- How long a successful response is replayed. -/
  cacheTtl : Span
  /-- How long a holder that never releases can block its operation. -/
  lockTtl : Span
  /-- How long a caller that found the lock taken waits before it looks for the
  response again. -/
  contentionWait : Span
  /-- What makes up the key of an operation. -/
  scheme : KeyScheme
  /-- The methods whose requests are guarded; `none` for all. -/
  methods : Option (List Http.Method)
  /-- The longest body that is recorded, in bytes. -/
  maxBodyBytes : Nat
  /-- The deadline of every call of the store. -/
  storeTimeout : Span
  failurePolicy : Store.FailurePolicy
  /-- What the reader of stored records says of a text that is none; here what it
  says of the text `not json`. -/
  complaint : Bytes → String := fun _ => "expected ident at line 1 column 2"

/-- The usual settings. -/
def Config.standard : Config where
  cacheTtl := .ofSeconds 86400
  lockTtl := .ofSeconds 30
  contentionWait := .ofMillis 100
  scheme := .standard
  methods := none
  maxBodyBytes := 1024 * 1024
  storeTimeout := .ofSeconds 2
  failurePolicy := .failClosed

/-- Whether requests with the method are guarded. -/
def Config.appliesTo (cfg : Config) (method : Http.Method) : Bool :=
  match cfg.methods with
  | none => true
  | some methods => methods.contains method

/-! ## Tokens -/

/-- The longest token, in bytes. -/
def maxTokenBytes : Nat := 255

/-- Why a token cannot name an operation. -/
inductive TokenFault where
  | blank
  | tooLong
  deriving DecidableEq

/-- The text of a fault. -/
def TokenFault.message : TokenFault → String
  | .blank => "idempotency key must not be empty"
  | .tooLong => "idempotency key exceeds " ++ Text.Decimal.ofNat maxTokenBytes ++ " bytes"

/-- The fault of a token, if it has one. -/
def validateToken (token : String) : Option TokenFault :=
  if Text.isBlankText token then some .blank
  else if maxTokenBytes < token.utf8ByteSize then some .tooLong
  else none

/-- A token is accepted if it is not blank and not too long. -/
theorem validateToken_eq_none_iff (token : String) :
    validateToken token = none ↔
      Text.isBlankText token = false ∧ token.utf8ByteSize ≤ maxTokenBytes := by
  unfold validateToken
  by_cases hb : Text.isBlankText token = true
  · simp [hb]
  · by_cases hl : maxTokenBytes < token.utf8ByteSize
    · simp [hb, hl]
    · simp [hb, hl]; omega

end Turnstile.Once

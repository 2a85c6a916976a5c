import Turnstile.Config.Basic
import Turnstile.Text.Parts

/-!
# Settings from the environment

Every setting is read from a variable of its own, which is looked up by its
name.  A variable that is unset, blank or no text leaves its setting as usual.
The environment is the one of the process once the variables of a settings file,
if there is one, are loaded: those that are set already are left as they are.

- A number may have blanks around it and any number of the letter `s` behind
  it; it is an optional plus sign and decimal digits.
- A switch is one of a few words in any letter case.
- A list of methods has commas between its items, which are taken in upper
  case.

Main results:

- `Variable.name_inj`: no two variables have one name.
- `Environment.exists_values`: the variables can be set independently.
- `ofEnvironment_unset`: without variables the settings are the usual ones.
-/

namespace Turnstile.Config

/-- The variables that the settings are read from. -/
inductive Variable where
  | storeBackend
  | redisUrl
  | redisKeyStart
  | serverHost
  | serverPort
  | storeTimeout
  | sweepInterval
  | rateLimitRequests
  | rateLimitWindow
  | rateLimitPerIdentity
  | rateLimitIdentityRequests
  | rateLimitFailClosed
  | idempotencyTtl
  | idempotencyLockTtl
  | idempotencyWait
  | idempotencyHashBody
  | idempotencyHashBodyMethods
  | idempotencyMethods
  | idempotencyFailOpen
  | jwtSecret
  | adminToken
  deriving DecidableEq

/-- The name of a variable. -/
def Variable.name : Variable → String
  | storeBackend => "STORE_BACKEND"
  | redisUrl => "REDIS_URL"
  | redisKeyStart => "REDIS_KEY_PREFIX"
  | serverHost => "SERVER_HOST"
  | serverPort => "SERVER_PORT"
  | storeTimeout => "STORE_TIMEOUT_MS"
  | sweepInterval => "SWEEP_INTERVAL"
  | rateLimitRequests => "RATE_LIMIT_REQUESTS"
  | rateLimitWindow => "RATE_LIMIT_WINDOW"
  | rateLimitPerIdentity => "RATE_LIMIT_PER_IDENTITY"
  | rateLimitIdentityRequests => "RATE_LIMIT_IDENTITY_REQUESTS"
  | rateLimitFailClosed => "RATE_LIMIT_FAIL_CLOSED"
  | idempotencyTtl => "IDEMPOTENCY_TTL"
  | idempotencyLockTtl => "IDEMPOTENCY_LOCK_TTL"
  | idempotencyWait => "IDEMPOTENCY_WAIT_MS"
  | idempotencyHashBody => "IDEMPOTENCY_HASH_BODY"
  | idempotencyHashBodyMethods => "IDEMPOTENCY_HASH_BODY_METHODS"
  | idempotencyMethods => "IDEMPOTENCY_METHODS"
  | idempotencyFailOpen => "IDEMPOTENCY_FAIL_OPEN"
  | jwtSecret => "JWT_SECRET"
  | adminToken => "ADMIN_TOKEN"

/-- The variables, in the order in which they are listed. -/
def Variable.all : List Variable :=
  [storeBackend, redisUrl, redisKeyStart, serverHost, serverPort, storeTimeout, sweepInterval,
    rateLimitRequests, rateLimitWindow, rateLimitPerIdentity, rateLimitIdentityRequests,
    rateLimitFailClosed, idempotencyTtl, idempotencyLockTtl, idempotencyWait, idempotencyHashBody,
    idempotencyHashBodyMethods, idempotencyMethods, idempotencyFailOpen, jwtSecret, adminToken]

/-- The variable that has a name. -/
def Variable.named? (name : String) : Option Variable :=
  all.find? (·.name = name)

/-- Every variable is found under its name. -/
theorem Variable.named?_name (v : Variable) : named? v.name = some v := by
  cases v <;> rfl

/-- No two variables have one name. -/
theorem Variable.name_inj {v w : Variable} (h : v.name = w.name) : v = w := by
  have hfound : named? v.name = some w := h ▸ named?_name w
  exact Option.some.inj ((named?_name v).symm.trans hfound)

/-- Why settings cannot be read. -/
inductive Error where
  /-- A variable is needed and not set. -/
  | missing (v : Variable)
  /-- A variable has a value that its setting cannot have. -/
  | invalid (v : Variable) (value : String)
  deriving DecidableEq

/-- The text of an error. -/
def Error.message : Error → String
  | missing v => "environment variable " ++ v.name ++ " is required"
  | invalid v value => "environment variable " ++ v.name ++ " has an invalid value: " ++ value

/-- The name under which an environment is looked up. -/
structure Key where
  name : String
  deriving DecidableEq

/-- An environment: the bytes under each name that is set. -/
abbrev Environment := Key → Option Bytes

/-- The bytes that a variable is set to. -/
def Environment.value? (env : Environment) (v : Variable) : Option Bytes :=
  env ⟨v.name⟩

/-- The text of a variable that is set, is a text and is not blank. -/
def Environment.text? (env : Environment) (v : Variable) : Option String :=
  ((env.value? v).bind Bytes.text?).filter fun text => !Text.isBlankText text

/-- The variables can be set independently of each other. -/
theorem Environment.exists_values (values : Variable → Option Bytes) :
    ∃ env : Environment, ∀ v, env.value? v = values v := by
  refine ⟨fun key => (Variable.named? key.name).bind values, fun v => ?_⟩
  show (Variable.named? v.name).bind values = values v
  rw [Variable.named?_name]
  rfl

/-! ## Forms of values -/

/-- A text without the letters `s` at its end. -/
def dropUnit (cs : List Char) : List Char :=
  (cs.reverse.dropWhile (· == 's')).reverse

/-- The number below `bound` that a value denotes; it may have a unit. -/
def number? (bound : Nat) (value : String) : Option Nat :=
  Text.Decimal.bounded? (bound - 1) (dropUnit (Text.trim value).toList)

/-- The number below `bound` that a value without a unit denotes. -/
def bareNumber? (bound : Nat) (value : String) : Option Nat :=
  Text.Decimal.bounded? (bound - 1) (Text.trim value).toList

/-- The words that turn a switch on. -/
def wordsForOn : List String := ["1", "true", "yes", "on"]

/-- The words that turn a switch off. -/
def wordsForOff : List String := ["0", "false", "no", "off"]

/-- The position of a switch that a value denotes. -/
def switch? (value : String) : Option Bool :=
  let word := Http.lower (Text.trim value)
  if wordsForOn.contains word then some true
  else if wordsForOff.contains word then some false
  else none

/-- The methods that a value lists. -/
def methods? (value : String) : Option (List Http.Method) :=
  let items := (Text.splitOn ',' value.toList).map fun item =>
    Text.trim (String.ofList item)
  (items.filter (· ≠ "")).mapM fun item => Http.Method.ofText? (Http.upper item)

/-- The backend that a value names. -/
def backend? (value : String) : Option Backend :=
  let word := Text.trim value
  if word = "memory" then some .memory else if word = "redis" then some .redis else none

/-! ## Reading -/

namespace Environment

/-- The setting that a variable denotes in a form, or the usual one. -/
def setting {α : Type} (env : Environment) (v : Variable) (form : String → Option α)
    (usual : α) : Except Error α :=
  match env.text? v with
  | none => .ok usual
  | some value =>
      match form value with
      | some a => .ok a
      | none => .error (.invalid v value)

/-- The number that a variable denotes. -/
def number (env : Environment) (v : Variable) (bound usual : Nat) : Except Error Nat :=
  env.setting v (number? bound) usual

/-- The number other than zero that a variable denotes. -/
def positive (env : Environment) (v : Variable) (bound usual : Nat) : Except Error Nat :=
  match env.number v bound usual with
  | .error e => .error e
  | .ok n => if n = 0 then .error (.invalid v "0") else .ok n

/-- The position that a variable gives a switch. -/
def switch (env : Environment) (v : Variable) (usual : Bool) : Except Error Bool :=
  env.setting v switch? usual

/-- The methods that a variable lists, if it is set. -/
def methods (env : Environment) (v : Variable) : Except Error (Option (List Http.Method)) :=
  env.setting v (fun value => (methods? value).map some) none

/-- The backend that the environment names.  The word that is no backend is
reported without the blanks around it. -/
def backend (env : Environment) : Except Error Backend :=
  match env.text? .storeBackend with
  | none => .ok Config.standard.backend
  | some value =>
      match backend? value with
      | some b => .ok b
      | none => .error (.invalid .storeBackend (Text.trim value))

/-- The address of the shared store, which must be set where it is the
backend. -/
def redisUrl (env : Environment) (backend : Backend) : Except Error (Option String) :=
  match backend, env.text? .redisUrl with
  | .redis, none => .error (.missing .redisUrl)
  | _, url => .ok url

end Environment

/-- The first number that is too large for a count of 64 bits. -/
def countBound : Nat := 18_446_744_073_709_551_616

/-- The first number that is too large for a port. -/
def portBound : Nat := 65_536

/-- The settings that an environment denotes.  Of several errors the one of the
variable that is read first is reported. -/
def ofEnvironment (env : Environment) : Except Error Config := do
  let backend ← env.backend
  let redisUrl ← env.redisUrl backend
  let identityRateLimit ←
    env.setting .rateLimitIdentityRequests (fun v => (bareNumber? countBound v).map some) none
  let port ← env.number .serverPort portBound standard.port
  let storeTimeoutMillis ← env.number .storeTimeout countBound standard.storeTimeoutMillis
  let sweepIntervalSeconds ←
    env.positive .sweepInterval countBound standard.sweepIntervalSeconds
  let rateLimit ← env.number .rateLimitRequests countBound standard.rateLimit
  let rateWindowSeconds ← env.number .rateLimitWindow countBound standard.rateWindowSeconds
  let limitPerIdentity ← env.switch .rateLimitPerIdentity standard.limitPerIdentity
  let rateLimitFailsClosed ← env.switch .rateLimitFailClosed standard.rateLimitFailsClosed
  let recordSeconds ← env.number .idempotencyTtl countBound standard.recordSeconds
  let lockSeconds ← env.number .idempotencyLockTtl countBound standard.lockSeconds
  let contentionMillis ← env.number .idempotencyWait countBound standard.contentionMillis
  let hashBody ← env.switch .idempotencyHashBody standard.hashBody
  let hashBodyMethods ← env.methods .idempotencyHashBodyMethods
  let guardedMethods ← env.methods .idempotencyMethods
  let executionFailsOpen ← env.switch .idempotencyFailOpen standard.executionFailsOpen
  .ok
    { backend, redisUrl, identityRateLimit, port, storeTimeoutMillis, sweepIntervalSeconds,
      rateLimit, rateWindowSeconds, limitPerIdentity, rateLimitFailsClosed, recordSeconds,
      lockSeconds, contentionMillis, hashBody, hashBodyMethods, guardedMethods,
      executionFailsOpen
      redisKeyStart := (env.text? .redisKeyStart).getD standard.redisKeyStart
      host := (env.text? .serverHost).getD standard.host
      jwtSecret := env.text? .jwtSecret
      adminToken := env.text? .adminToken }

/-- Without variables the settings are the usual ones. -/
theorem ofEnvironment_unset : ofEnvironment (fun _ => none) = .ok standard := rfl

end Turnstile.Config

import Turnstile.Once.Config
import Turnstile.Program
import Turnstile.Record.Text

/-!
# At-most-once execution

A request with a token is executed as follows.  Its record is looked up, and
replayed if there is one.  Otherwise the lock of the operation is taken, the
record is looked up once more, the handler runs, a successful response is
recorded, and the lock is released.  A caller that finds the lock taken waits
once, and then either replays the record of the holder or gets a conflict.

The handler never runs without the lock, except for requests that are not
guarded and for those let through because the store failed.

Main results:

- `found_eq_ok`: a look-up goes on with the record that the answer holds.
- `found_eq_error`: it fails just where the answer holds a text that is no record.
-/

namespace Turnstile.Once

open Store (Answer Call)

/-- The parts of a request that identify its operation. -/
structure Request where
  token : Option String
  method : Http.Method
  path : String
  body : Option Bytes
  deriving DecidableEq

/-- How a request was answered. -/
inductive Outcome where
  /-- The handler ran and nothing was guarded. -/
  | bypassed (response : Http.Response)
  /-- The handler ran under the lock. -/
  | executed (response : Http.Response)
  /-- A recorded response was replayed; the handler did not run. -/
  | replayed (response : Http.Response)
  deriving DecidableEq

namespace Outcome

/-- Whether a recorded response was replayed. -/
def isReplay : Outcome → Bool
  | replayed _ => true
  | _ => false

/-- The response of the outcome. -/
def response : Outcome → Http.Response
  | bypassed r => r
  | executed r => r
  | replayed r => r

end Outcome

/-- Why a request was not answered. -/
inductive Error where
  /-- The token cannot name an operation. -/
  | invalidKey (fault : TokenFault)
  /-- The operation is being executed for another caller. -/
  | conflict
  /-- The store failed. -/
  | store (error : Store.Error)
  deriving DecidableEq

/-- The text of an error. -/
def Error.message : Error → String
  | invalidKey fault => fault.message
  | conflict => "a request with the same idempotency key is in progress"
  | store error => error.message

/-- What a request ends with. -/
abbrev Result := Except Error Outcome

/-! ## Records -/

/-- The record that an answer of the store holds, unless it has expired; the stored
text where that is no record. -/
def recordOf (now : Timestamp) : Answer → Except Bytes (Option Record)
  | .value (some stored) =>
      match Record.ofStored? stored with
      | some record => .ok (if record.isExpired now then none else some record)
      | none => .error stored
  | _ => .ok none

/-- The error of a stored text that is no record. -/
def Config.unreadable (cfg : Config) (stored : Bytes) : Store.Error :=
  .serialization (cfg.complaint stored)

/-- What a look-up goes on with that the store has answered. -/
def Config.found (cfg : Config) (now : Timestamp) (answer : Answer) :
    Except Store.Error (Option Record) :=
  match recordOf now answer with
  | .ok found => .ok found
  | .error stored => .error (cfg.unreadable stored)

/-- Looks up the record of an operation that is valid at an instant. -/
def lookupAt (cfg : Config) (key : OperationKey) (now : Timestamp) :
    Program (Except Store.Error (Option Record)) := do
  let answer ← Program.ask (.get key.text) cfg.storeTimeout
  pure (answer.bind (cfg.found now))

/-- Looks up the record of an operation.  The clock is read first. -/
def lookup (cfg : Config) (key : OperationKey) :
    Program (Except Store.Error (Option Record)) := do
  let now ← Program.clock
  lookupAt cfg key now

/-- Stores a record for the rest of its life, if its status is a success. -/
def storeRecord (cfg : Config) (key : OperationKey) (record : Record) :
    Program (Except Store.Error Unit) :=
  if record.isSuccess then do
    let answer ← Program.ask (.set key.text record.render cfg.cacheTtl) cfg.storeTimeout
    pure (answer.map fun _ => ())
  else pure (.ok ())

/-! ## Locks -/

/-- The token that an answer of the store holds. -/
def tokenOf : Answer → Option Store.Token
  | .token token => token
  | _ => none

/-- Takes the lock of an operation, if it is free. -/
def acquire (cfg : Config) (key : OperationKey) :
    Program (Except Store.Error (Option Store.Token)) := do
  let answer ← Program.ask (.acquireLock key.lock cfg.lockTtl) cfg.storeTimeout
  pure (answer.map tokenOf)

/-- Releases the lock of an operation.  Where that fails the lock stays until
it expires. -/
def release (cfg : Config) (key : OperationKey) (token : Store.Token) : Program Unit :=
  .unhold do
    let _ ← Program.ask (.releaseLock key.lock token) cfg.storeTimeout
    pure ()

/-! ## Ends -/

/-- Answers with a recorded response. -/
def replay (key : OperationKey) (record : Record) : Program Result := do
  Program.report (.cacheHit key.text)
  pure (.ok (.replayed record.toResponse))

/-- Runs the handler without a guard. -/
def bypass (handler : Program Http.Response) : Program Result := do
  let response ← handler
  pure (.ok (.bypassed response))

/-- Goes on after a failure of the store as the policy says. -/
def onStoreFailure (cfg : Config) (error : Store.Error) (handler : Program Http.Response) :
    Program Result := do
  let failOpen := cfg.failurePolicy = .failOpen
  Program.report (.storeFailure .idempotency error.message failOpen)
  if failOpen then bypass handler else pure (.error (.store error))

/-- Goes on after the wait of a caller that found the lock taken.  A failure of
the store must not let the handler run, since another caller is running it. -/
def afterWait (key : OperationKey) : Except Store.Error (Option Record) → Program Result
  | .ok (some record) => replay key record
  | .ok none => do
      Program.report (.concurrentConflict key.text)
      pure (.error .conflict)
  | .error error => do
      Program.report (.storeFailure .idempotency error.message false)
      pure (.error (.store error))

/-- Waits for the holder of the lock and then looks for its record. -/
def awaitHolder (cfg : Config) (key : OperationKey) : Program Result := do
  Program.report (.lockContention key.text)
  Program.pause cfg.contentionWait
  let found ← lookup cfg key
  afterWait key found

/-! ## Under the lock -/

/-- Reports that a response is passed through without being recorded. -/
def passThrough (key : OperationKey) (response : Http.Response) : Program Http.Response := do
  Program.report (.responseNotCached key.text response.status)
  pure response

/-- Whether a body is known to be longer than what is recorded. -/
def isKnownTooLong (cfg : Config) (body : Http.Body) : Bool :=
  body.declared.any (cfg.maxBodyBytes < ·)

/-- Reports how the recording of a response ended. -/
def recordingEvent (key : OperationKey) (status : Nat) : Except Store.Error Unit → Event
  | .ok () => .responseCached key.text status
  | .error error => .storeFailure .idempotency error.message true

/-- Records the response of the handler if it is a success with a body of at
most `maxBodyBytes`, and gives back a response that delivers the same. -/
def capture (cfg : Config) (key : OperationKey) (response : Http.Response) :
    Program Http.Response :=
  if !Http.isSuccess response.status || isKnownTooLong cfg response.body then
    passThrough key response
  else
    match response.body.collectLimited cfg.maxBodyBytes with
    | .passthrough body => passThrough key { response with body := body }
    | .complete bytes => do
        let now ← Program.clock
        let record := Record.capture response.status response.headers bytes now cfg.cacheTtl
        let stored ← storeRecord cfg key record
        Program.report (recordingEvent key response.status stored)
        pure { response with body := .ofBytes bytes }

/-- Runs the handler under the lock. -/
def runHandler (cfg : Config) (key : OperationKey) (handler : Program Http.Response)
    (token : Store.Token) : Program Result := do
  let response ← handler
  let response ← capture cfg key response
  release cfg key token
  pure (.ok (.executed response))

/-- Goes on under the lock after the second look-up. -/
def afterRecheck (cfg : Config) (key : OperationKey) (handler : Program Http.Response)
    (token : Store.Token) : Except Store.Error (Option Record) → Program Result
  | .ok (some record) => do
      release cfg key token
      replay key record
  | .ok none => runHandler cfg key handler token
  | .error error => do
      release cfg key token
      onStoreFailure cfg error handler

/-- Goes on under the lock: the holder before may have finished between the
look-up and the lock, so the record is looked up once more. -/
def underLock (cfg : Config) (key : OperationKey) (handler : Program Http.Response)
    (token : Store.Token) : Program Result :=
  .hold (.releaseLock key.lock token) do
    let found ← lookup cfg key
    afterRecheck cfg key handler token found

/-! ## Execution -/

/-- Goes on after the attempt to take the lock. -/
def afterAcquire (cfg : Config) (key : OperationKey) (handler : Program Http.Response) :
    Except Store.Error (Option Store.Token) → Program Result
  | .ok (some token) => underLock cfg key handler token
  | .ok none => awaitHolder cfg key
  | .error error => onStoreFailure cfg error handler

/-- Goes on after the first look-up. -/
def afterLookup (cfg : Config) (key : OperationKey) (handler : Program Http.Response) :
    Except Store.Error (Option Record) → Program Result
  | .ok (some record) => replay key record
  | .ok none => do
      let acquired ← acquire cfg key
      afterAcquire cfg key handler acquired
  | .error error => onStoreFailure cfg error handler

/-- Executes an operation at most once. -/
def guarded (cfg : Config) (key : OperationKey) (handler : Program Http.Response) :
    Program Result := do
  let found ← lookup cfg key
  afterLookup cfg key handler found

/-- Executes a request: at most once if it has a token and its method is
guarded. -/
def execute (cfg : Config) (request : Request) (handler : Program Http.Response) :
    Program Result :=
  match request.token with
  | none => bypass handler
  | some token =>
      if cfg.appliesTo request.method then
        match validateToken token with
        | some fault => do
            Program.report (.invalidKey fault.message)
            pure (.error (.invalidKey fault))
        | none =>
            guarded cfg (cfg.scheme.key token request.method request.path request.body) handler
      else bypass handler

/-! ## What a look-up finds -/

/-- A look-up goes on with the record that the answer holds. -/
theorem Config.found_eq_ok {cfg : Config} {now : Timestamp} {answer : Answer}
    {found : Option Record} : cfg.found now answer = .ok found ↔ recordOf now answer = .ok found := by
  unfold Config.found
  cases recordOf now answer <;> simp

/-- A stored text is left over just where it is no record. -/
theorem recordOf_eq_error {now : Timestamp} {answer : Answer} {stored : Bytes} :
    recordOf now answer = .error stored ↔
      answer = .value (some stored) ∧ Record.ofStored? stored = none := by
  match answer with
  | .value (some text) =>
      unfold recordOf
      dsimp only
      rw [Answer.value.injEq, Option.some.injEq]
      cases hrecord : Record.ofStored? text with
      | none => exact ⟨fun h => ⟨Except.error.inj h, Except.error.inj h ▸ hrecord⟩, fun h => h.1 ▸ rfl⟩
      | some record =>
          refine ⟨fun h => by simp at h, ?_⟩
          rintro ⟨rfl, hnone⟩
          rw [hrecord] at hnone
          simp at hnone
  | .value none | .done | .token _ | .window _ | .count _ => simp [recordOf]

/-- A look-up fails just where the answer holds a text that is no record. -/
theorem Config.found_eq_error {cfg : Config} {now : Timestamp} {answer : Answer}
    {error : Store.Error} : cfg.found now answer = .error error ↔
      ∃ stored, answer = .value (some stored) ∧ Record.ofStored? stored = none ∧
        error = cfg.unreadable stored := by
  unfold Config.found
  cases hrecord : recordOf now answer with
  | ok found =>
      refine ⟨fun heq => by simp at heq, ?_⟩
      rintro ⟨stored, hanswer, hnone, -⟩
      rw [recordOf_eq_error.2 ⟨hanswer, hnone⟩] at hrecord
      simp at hrecord
  | error stored =>
      rcases recordOf_eq_error.1 hrecord with ⟨rfl, hnone⟩
      refine ⟨fun heq => ⟨stored, rfl, hnone, (Except.error.inj heq).symm⟩, ?_⟩
      rintro ⟨stored', hanswer, -, rfl⟩
      rw [Option.some.inj (Answer.value.inj hanswer)]

end Turnstile.Once

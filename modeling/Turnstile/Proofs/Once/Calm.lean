import Turnstile.Proofs.Once.Conduct
import Turnstile.Proofs.Record.RoundTrip
import Turnstile.Proofs.Run.Calm

/-!
# Callers without delays

Where every call is answered at once, or fails at once, a caller that finds neither
a record nor a lock goes on with its handler under the lock; a response that is
recorded is stored under the key; and a caller that finds a record is answered
with it.

Main results:

- Theorem `settles_cleared`: a caller goes on with its handler under the lock.
- Theorems `settles_written` and `settles_recorded`: a caller goes on after its
  response was recorded, to release its lock and after that.
- Theorem `settles_unrecorded`: a caller goes on as well if the store fails to
  record its response.
- Theorem `settles_replayed`: a caller goes on with the record that it found.
- Theorem `settles_executed`: a caller that finds nothing ends with its response,
  which is recorded.
-/

namespace Turnstile.Once

open Run
open Store (Call LocalStore Token)

/-- The notes of recording a response and letting go of the lock, before those of
the past. -/
def recordedNotes (cfg : Config) (key : OperationKey) (token : Token) (record : Record)
    (past : List Note) : List Note :=
  .told (.releaseLock key.lock token) (.ok .done) :: .done (.releaseLock key.lock token) .done ::
    .sent (.releaseLock key.lock token) :: .unheld ::
    .emitted (.responseCached key.text record.status) ::
    .told (.set key.text record.render cfg.cacheTtl) (.ok .done) ::
    .done (.set key.text record.render cfg.cacheTtl) .done ::
    .sent (.set key.text record.render cfg.cacheTtl) :: past

/-- The notes of recording a response, before those of the past. -/
def writtenNotes (cfg : Config) (key : OperationKey) (record : Record) (past : List Note) :
    List Note :=
  .emitted (.responseCached key.text record.status) ::
    .told (.set key.text record.render cfg.cacheTtl) (.ok .done) ::
    .done (.set key.text record.render cfg.cacheTtl) .done ::
    .sent (.set key.text record.render cfg.cacheTtl) :: past

/-- The notes of failing to record a response and letting go of the lock, before
those of the past. -/
def unrecordedNotes (cfg : Config) (key : OperationKey) (token : Token) (record : Record)
    (error : Store.Error) (past : List Note) : List Note :=
  .told (.releaseLock key.lock token) (.ok .done) :: .done (.releaseLock key.lock token) .done ::
    .sent (.releaseLock key.lock token) :: .unheld ::
    .emitted (.storeFailure .idempotency error.message true) ::
    .told (.set key.text record.render cfg.cacheTtl) (.error error) ::
    .lost (.set key.text record.render cfg.cacheTtl) ::
    .sent (.set key.text record.render cfg.cacheTtl) :: past

/-- The notes of finding no record, taking the lock and finding none again, before
those of the past. -/
def clearedNotes (cfg : Config) (key : OperationKey) (token : Token) (now : Timestamp)
    (past : List Note) : List Note :=
  lookedUp key now (.value none) (tookLock cfg key token (lookedUp key now (.value none) past))

theorem cleared_clearedNotes (cfg : Config) (key : OperationKey) (token : Token) (now : Timestamp) :
    Cleared cfg key token (clearedNotes cfg key token now [.resumed]) :=
  ⟨now, .value none, now, .value none, rfl, rfl, rfl⟩

/-! ## Worlds on the way -/

section

variable (w : World) (cfg : Config) (key : OperationKey)

/-- The world in which a caller runs its handler under the lock. -/
def clearedWorld (expiresAt : Nat) : World :=
  let locked : LocalStore :=
    { w.store with locks := w.store.locks.insert key.lock ⟨.issued (w.tokens + 2), expiresAt⟩ }
  ((w.afterCall (.get key.text) w.store).afterCall (.acquireLock key.lock cfg.lockTtl)
    locked).afterCall (.get key.text) locked

/-- The world after a response was recorded and the lock was released. -/
def recordedWorld (record : Record) (token : Token) (expiresAt : Nat) : World :=
  let kept : LocalStore :=
    { w.store with values := w.store.values.insert key.text ⟨record.render, expiresAt⟩ }
  let written := w.afterCall (.set key.text record.render cfg.cacheTtl) kept
  World.afterCall { written with events := .responseCached key.text record.status :: w.events }
    (.releaseLock key.lock token) (kept.release key.lock token)

/-- The world after a response was recorded, and before the lock is released. -/
def writtenWorld (record : Record) (expiresAt : Nat) : World :=
  let kept : LocalStore :=
    { w.store with values := w.store.values.insert key.text ⟨record.render, expiresAt⟩ }
  { w.afterCall (.set key.text record.render cfg.cacheTtl) kept with
    events := .responseCached key.text record.status :: w.events }

/-- The world after a response was not recorded and the lock was released. -/
def unrecordedWorld (record : Record) (error : Store.Error) (token : Token) : World :=
  let failed := w.afterFailure (.set key.text record.render cfg.cacheTtl)
  World.afterCall
    { failed with events := .storeFailure .idempotency error.message true :: w.events }
    (.releaseLock key.lock token) (w.store.release key.lock token)

/-- A response that was recorded stands under the key. -/
theorem lookup_recordedWorld (record : Record) (token : Token) (expiresAt : Nat) :
    (recordedWorld w cfg key record token expiresAt).store.values.lookup key.text =
      some ⟨record.render, expiresAt⟩ := by
  unfold recordedWorld
  dsimp only [World.afterCall]
  rw [LocalStore.release_values]
  exact Store.Table.lookup_insert_self _ _ _

/-- A response that is not recorded leaves the values alone. -/
theorem values_unrecordedWorld (record : Record) (error : Store.Error) (token : Token) :
    (unrecordedWorld w cfg key record error token).store.values = w.store.values :=
  LocalStore.release_values _ _ _

/-- The lock under which the handler ran is free once it is released. -/
theorem heldAt_release_clearedWorld (expiresAt time : Nat) :
    ((clearedWorld w cfg key expiresAt).store.release key.lock (.issued (w.tokens + 2))).heldAt time
      key.lock = none := by
  rw [Store.heldAt_release]
  unfold clearedWorld LocalStore.heldAt
  dsimp only [World.afterCall]
  rw [Store.Table.lookup_insert_self]
  by_cases hlive : time < expiresAt <;> simp [Option.filter, hlive]

/-- A response that is recorded leaves the windows alone. -/
theorem windows_recordedWorld (record : Record) (token : Token) (expiresAt : Nat) :
    (recordedWorld w cfg key record token expiresAt).store.windows = w.store.windows := by
  unfold recordedWorld
  dsimp only [World.afterCall]
  rw [LocalStore.release_windows]

end

/-! ## Steps of a caller -/

section

variable {α : Type} {cfg : Config} {key : OperationKey} {worker : Handler}
  {handler : Program Http.Response} {f : Result → Program α} {w : World} {owed : Option Call}
  {now : Timestamp} {expiresAt : Nat} {notes : List Note} {standing : Standing α}

/-- A caller that finds neither a record nor a lock goes on with its handler under
the lock. -/
theorem settles_cleared (hgets : w.Serves .get) (htakes : w.Serves .acquireLock)
    (hnow : w.clocks.now = now)
    (hvalue : w.store.values.lookup key.text = none)
    (hfree : w.store.heldAt w.mono key.lock = none)
    (hexpiry : Store.expiry w.mono cfg.lockTtl = .ok expiresAt)
    (h : Settles worker (clearedWorld w cfg key expiresAt)
      (some (.releaseLock key.lock (.issued (w.tokens + 2))))
      (runHandler cfg key handler (.issued (w.tokens + 2)) >>= f) notes standing) :
    Settles worker w owed (guarded cfg key handler >>= f)
      (notes ++ clearedNotes cfg key (.issued (w.tokens + 2)) now []) standing := by
  have hget : ∀ (s : LocalStore) time fresh, s.values.lookup key.text = none →
      s.perform time fresh (.get key.text) = .ok (.value none, s) := by
    intro s time fresh hnone
    simp only [LocalStore.perform, LocalStore.get, hnone]
  let sought : World := w.afterCall (.get key.text) w.store
  let locked : LocalStore :=
    { w.store with locks := w.store.locks.insert key.lock ⟨.issued (w.tokens + 2), expiresAt⟩ }
  have htake : sought.store.perform sought.mono (.issued (sought.tokens + 1))
      (.acquireLock key.lock cfg.lockTtl) = .ok (.token (some (.issued (w.tokens + 2))), locked) :=
    LocalStore.perform_acquire_free hfree hexpiry _
  apply Settles.of_notes_eq
  · apply Settles.now hnow
    apply Settles.call (by exact hgets) (hget w.store _ _ hvalue)
    show Settles _ sought _ ((acquire cfg key >>= afterAcquire cfg key handler) >>= f) _ _
    apply Settles.call (by exact htakes) htake
    apply Settles.hold
    apply Settles.now (by exact hnow)
    apply Settles.call (by exact hgets) (hget locked _ _ hvalue)
    exact h
  · simp [clearedNotes, lookedUp, tookLock]

/-- Under the lock, a response that is to be recorded is recorded and the lock is
released. -/
theorem runHandler_of_captured {response : Http.Response} {bytes : Bytes}
    (hcaptured : captured? cfg response = some bytes) (token : Token) :
    runHandler cfg key (pure response) token = .now fun now =>
      .call (.set key.text
          (Record.capture response.status response.headers bytes now cfg.cacheTtl).render
          cfg.cacheTtl) cfg.storeTimeout fun answer =>
        .emit (recordingEvent key response.status (answer.map fun _ => ()))
          (release cfg key token >>= fun _ =>
            pure (.ok (.executed { response with body := .ofBytes bytes }))) := by
  have hrun : runHandler cfg key (pure response) token =
      capture cfg key response >>= fun response => release cfg key token >>= fun _ =>
        pure (Except.ok (Outcome.executed response)) := rfl
  rcases capture_eq cfg key response with ⟨hnone, _⟩ | ⟨bytes', hsome, hcapture⟩
  · rw [hcaptured] at hnone
    exact nomatch hnone
  · rw [hcaptured, Option.some.injEq] at hsome
    subst hsome
    rw [hrun, hcapture]
    rfl

/-- A caller whose response is recorded goes on to release its lock. -/
theorem settles_written {response : Http.Response} {bytes : Bytes} {token : Token}
    (hsets : w.Serves .set) (hnow : w.clocks.now = now)
    (hcaptured : captured? cfg response = some bytes)
    (hexpiry : Store.expiry w.mono cfg.cacheTtl = .ok expiresAt)
    (h : Settles worker (writtenWorld w cfg key
        (.capture response.status response.headers bytes now cfg.cacheTtl) expiresAt) owed
      (release cfg key token >>= fun _ =>
        f (.ok (.executed { response with body := .ofBytes bytes }))) notes standing) :
    Settles worker w owed (runHandler cfg key (pure response) token >>= f)
      (notes ++ writtenNotes cfg key
        (.capture response.status response.headers bytes now cfg.cacheTtl) [.read now])
      standing := by
  rw [runHandler_of_captured hcaptured]
  apply Settles.of_notes_eq
  · apply Settles.now hnow
    apply Settles.call (by exact hsets) (LocalStore.perform_set_ok hexpiry _ _)
    apply Settles.emit
    exact h
  · simp [writtenNotes, recordingEvent, Except.map, Record.capture]

/-- A caller whose response is recorded ends with it. -/
theorem settles_recorded {response : Http.Response} {bytes : Bytes} {token : Token}
    (hsets : w.Serves .set) (hreleases : w.Serves .releaseLock) (hnow : w.clocks.now = now)
    (hcaptured : captured? cfg response = some bytes)
    (hexpiry : Store.expiry w.mono cfg.cacheTtl = .ok expiresAt)
    (h : Settles worker (recordedWorld w cfg key
        (.capture response.status response.headers bytes now cfg.cacheTtl) token expiresAt) none
      (f (.ok (.executed { response with body := .ofBytes bytes }))) notes standing) :
    Settles worker w owed (runHandler cfg key (pure response) token >>= f)
      (notes ++ recordedNotes cfg key token
        (.capture response.status response.headers bytes now cfg.cacheTtl) [.read now])
      standing := by
  apply Settles.of_notes_eq
  · apply settles_written hsets hnow hcaptured hexpiry
    apply Settles.unhold
    apply Settles.call (by exact hreleases) (by rfl)
    exact h
  · simp [recordedNotes, writtenNotes]

/-- A caller whose response the store fails to record ends with it all the same. -/
theorem settles_unrecorded {response : Http.Response} {bytes : Bytes} {token : Token}
    {error : Store.Error} (hsets : w.Fails .set error) (hreleases : w.Serves .releaseLock)
    (hnow : w.clocks.now = now) (hcaptured : captured? cfg response = some bytes)
    (h : Settles worker (unrecordedWorld w cfg key
        (.capture response.status response.headers bytes now cfg.cacheTtl) error token) none
      (f (.ok (.executed { response with body := .ofBytes bytes }))) notes standing) :
    Settles worker w owed (runHandler cfg key (pure response) token >>= f)
      (notes ++ unrecordedNotes cfg key token
        (.capture response.status response.headers bytes now cfg.cacheTtl) error [.read now])
      standing := by
  rw [runHandler_of_captured hcaptured]
  apply Settles.of_notes_eq
  · apply Settles.now hnow
    apply Settles.failed_call (by exact hsets)
    apply Settles.emit
    apply Settles.unhold
    apply Settles.call (by exact hreleases) (by rfl)
    exact h
  · simp [unrecordedNotes, recordingEvent, Except.map]

/-- A caller that finds a record is answered with it. -/
theorem settles_replayed {record : Record} (hgets : w.Serves .get)
    (hnow : w.clocks.now = now)
    (hvalue : w.store.values.lookup key.text = some ⟨record.render, expiresAt⟩)
    (hlive : w.mono < expiresAt) (hstorable : record.Storable)
    (hvalid : record.isExpired now = false)
    (h : Settles worker
      { w.afterCall (.get key.text) w.store with events := .cacheHit key.text :: w.events } owed
      (f (.ok (.replayed record.toResponse))) notes standing) :
    Settles worker w owed (guarded cfg key handler >>= f)
      (notes ++ .emitted (.cacheHit key.text) ::
        lookedUp key now (.value (some record.render)) []) standing := by
  have hget : w.store.perform w.mono (.issued (w.tokens + 1)) (.get key.text) =
      .ok (.value (some record.render), w.store) := by
    simp only [LocalStore.perform, LocalStore.get, hvalue, hlive, if_true]
  have hrecord : recordOf now (.value (some record.render)) = .ok (some record) := by
    simp only [recordOf, Record.ofStored?_render hstorable, hvalid, Bool.false_eq_true, if_false]
  apply Settles.of_notes_eq
  · apply Settles.now hnow
    apply Settles.call (by exact hgets) hget
    show Settles _ _ _ (afterLookup cfg key handler
      (cfg.found now (.value (some record.render))) >>= f) _ _
    rw [Config.found_eq_ok.2 hrecord]
    apply Settles.emit
    exact h
  · simp [lookedUp]

/-- A caller with a prompt handler that finds neither a record nor a lock runs its
handler, and its response is recorded. -/
theorem settles_executed {http : Http.Request} {response : Http.Response} {bytes : Bytes}
    {lockedUntil : Nat} (hserves : ∀ operation, w.Serves operation) (hnow : w.clocks.now = now)
    (hvalue : w.store.values.lookup key.text = none)
    (hfree : w.store.heldAt w.mono key.lock = none)
    (hlock : Store.expiry w.mono cfg.lockTtl = .ok lockedUntil)
    (hcache : Store.expiry w.mono cfg.cacheTtl = .ok expiresAt) (hdelay : worker.delay = none)
    (hanswer : worker.answer (w.served + 1) http = some response)
    (hcaptured : captured? cfg response = some bytes) :
    Settles worker w owed (guarded cfg key (served http))
      (.ended :: recordedNotes cfg key (.issued (w.tokens + 2))
        (.capture response.status response.headers bytes now cfg.cacheTtl)
        (.read now :: .finished (some response) :: .began http ::
          clearedNotes cfg key (.issued (w.tokens + 2)) now []))
      ⟨.nothing (.result (.ok (.executed { response with body := .ofBytes bytes }))) w.mono, none,
        recordedWorld { clearedWorld w cfg key lockedUntil with served := w.served + 1 } cfg key
          (.capture response.status response.headers bytes now cfg.cacheTtl)
          (.issued (w.tokens + 2)) expiresAt⟩ := by
  let token : Token := .issued (w.tokens + 2)
  let cleared : World := clearedWorld w cfg key lockedUntil
  let responded : World := { cleared with served := w.served + 1 }
  let recorded : World := recordedWorld responded cfg key
    (.capture response.status response.headers bytes now cfg.cacheTtl) token expiresAt
  have hrecorded : Settles worker responded (some (.releaseLock key.lock token))
      (runHandler cfg key (pure response) token >>= Program.done) _ _ :=
    settles_recorded (by exact hserves _) (by exact hserves _) (by exact hnow) hcaptured
      (by exact hcache) (Settles.done worker recorded none _)
  have hresponded : Settles worker cleared (some (.releaseLock key.lock token))
      (runHandler cfg key (served http) token >>= Program.done) _ _ :=
    Settles.serve hdelay (by exact hanswer) hrecorded
  have hexecuted : Settles worker w owed (guarded cfg key (served http) >>= Program.done) _ _ :=
    settles_cleared (hserves _) (hserves _) hnow hvalue hfree hlock hresponded
  rw [← Program.bind_pure (guarded cfg key (served http))]
  exact hexecuted.of_notes_eq rfl

end

end Turnstile.Once

import Turnstile.Once.Execute
import Turnstile.Proofs.Run.Conduct
import Turnstile.Proofs.Run.Prompt

/-!
# The conduct of a caller

A caller whose request is executed at most once runs the handler only after it
found no record, took the lock, and again found no record.  It records a
response only from such a run, and it never lets go of the lock before the
record of a response that is to be recorded was written or lost.

These are rules on the notes of one caller.  They hold whatever the store
answers or fails to answer, and wherever the caller is broken off.

Main results:

- Theorem `capture_eq`: what becomes of a response depends on whether it is
  recorded.
- Theorem `guarded_keeps_policy`: a caller keeps the rules of its policy.
- Theorem `guarded_keeps`: a caller that must not go on without the store keeps
  the rules.
- Theorem `cleared_path`: a caller that is cleared is about to run its handler.
-/

namespace Turnstile.Once

open Run
open Store (Answer Call Token)

/-! ## What the rules speak of -/

/-- The notes of a look-up that was answered, before those of the past. -/
def lookedUp (key : OperationKey) (now : Timestamp) (answer : Answer) (past : List Note) :
    List Note :=
  .told (.get key.text) (.ok answer) :: .done (.get key.text) answer :: .sent (.get key.text) ::
    .read now :: past

/-- The notes of taking the lock, before those of the past. -/
def tookLock (cfg : Config) (key : OperationKey) (token : Token) (past : List Note) : List Note :=
  .held (.releaseLock key.lock token) ::
    .told (.acquireLock key.lock cfg.lockTtl) (.ok (.token (some token))) ::
    .done (.acquireLock key.lock cfg.lockTtl) (.token (some token)) ::
    .sent (.acquireLock key.lock cfg.lockTtl) :: past

/-- The caller found no record, took the lock, and found no record again. -/
def Cleared (cfg : Config) (key : OperationKey) (token : Token) (past : List Note) : Prop :=
  ∃ now answer now' answer', recordOf now answer = .ok none ∧ recordOf now' answer' = .ok none ∧
    past = lookedUp key now' answer' (tookLock cfg key token (lookedUp key now answer [.resumed]))

/-- The bytes of a response that is recorded. -/
def captured? (cfg : Config) (response : Http.Response) : Option Bytes :=
  if !Http.isSuccess response.status || isKnownTooLong cfg response.body then none
  else response.body.bytesWithin? cfg.maxBodyBytes

/-- The value is the record of a response of the handler, captured just now. -/
def Captures (cfg : Config) (key : OperationKey) (past : List Note) (value : Bytes) : Prop :=
  ∃ token request response now bytes older, Cleared cfg key token older ∧
    past = .read now :: .finished (some response) :: .began request :: older ∧
    captured? cfg response = some bytes ∧
    value = (Record.capture response.status response.headers bytes now cfg.cacheTtl).render

/-- The record of every response that is to be recorded was written or lost. -/
def Settled (cfg : Config) (key : OperationKey) (past : List Note) : Prop :=
  ∀ response bytes, .finished (some response) ∈ past → captured? cfg response = some bytes →
    ∃ value answer, outcome (.set key.text value cfg.cacheTtl) answer ∈ past

/-- The caller was given the token of the lock. -/
def WasGiven (cfg : Config) (key : OperationKey) (token : Token) (past : List Note) : Prop :=
  .done (.acquireLock key.lock cfg.lockTtl) (.token (some token)) ∈ past

/-- What a caller may do after what it noted before. -/
def mayDo (cfg : Config) (key : OperationKey) (past : List Note) : Note → Prop
  | .began _ => ∃ token, Cleared cfg key token past
  | .sent (.get k) => k = key.text
  | .sent (.set k value ttl) => k = key.text ∧ ttl = cfg.cacheTtl ∧ Captures cfg key past value
  | .sent (.acquireLock l ttl) => l = key.lock ∧ ttl = cfg.lockTtl
  | .sent (.releaseLock l token) =>
      l = key.lock ∧ WasGiven cfg key token past ∧ Settled cfg key past
  | .sent _ => False
  | .held call => ∃ token, call = .releaseLock key.lock token ∧ WasGiven cfg key token past
  | .unheld => Settled cfg key past
  | .quit _ => Settled cfg key past
  | _ => True

/-- How a caller may end after what it noted before. -/
def mayEnd (key : OperationKey) (past : List Note) : Result → Prop
  | .ok (.executed _) => ∃ request, .began request ∈ past
  | .ok (.replayed response) =>
      (∀ request, .began request ∉ past) ∧
      ∃ newer now answer older record, past = newer ++ lookedUp key now answer older ∧
        (∀ n ∈ newer, ¬ n.EndsWait) ∧ recordOf now answer = .ok (some record) ∧
        response = record.toResponse
  | .ok (.bypassed _) => False
  | .error (.invalidKey _) => False
  | .error _ => True

/-- The rules of a caller. -/
def rules (cfg : Config) (key : OperationKey) : Pact Result :=
  ⟨mayDo cfg key, mayEnd key⟩

/-- The rules of a caller that goes on without the store where its policy says so:
it may then run the handler without a lock, and end with that response. -/
def policyRules (cfg : Config) (key : OperationKey) : Pact Result where
  may past n := mayDo cfg key past n ∨
    (cfg.failurePolicy = .failOpen ∧ ∃ request, n = .began request)
  ends past result := mayEnd key past result ∨
    (cfg.failurePolicy = .failOpen ∧ ∃ response, result = .ok (.bypassed response))

/-- The handler behind the guards, as a program. -/
def served (request : Http.Request) : Program Http.Response :=
  .serve request .done

/-! ## The shape of the steps -/

section

variable {α : Type} (cfg : Config) (key : OperationKey)

/-- A look-up reads the clock before it asks the store. -/
theorem lookup_bind (f : Except Store.Error (Option Record) → Program α) :
    (lookup cfg key >>= f) = .now fun now =>
      .call (.get key.text) cfg.storeTimeout fun answer => f (answer.bind (cfg.found now)) := rfl

/-- Only an answer that is a token holds one. -/
theorem eq_token_of_tokenOf {answer : Answer} {token : Token} (h : tokenOf answer = some token) :
    answer = .token (some token) := by
  cases answer with
  | token t => rw [show t = some token from h]
  | _ => exact nomatch h

/-- Taking the lock is one call. -/
theorem acquire_bind (f : Except Store.Error (Option Token) → Program α) :
    (acquire cfg key >>= f) = .call (.acquireLock key.lock cfg.lockTtl) cfg.storeTimeout
      fun answer => f (answer.map tokenOf) := rfl

/-- A lock that is released is not owed any more before the call is begun. -/
theorem release_bind (token : Token) (f : Unit → Program α) :
    (release cfg key token >>= f) =
      .unhold (.call (.releaseLock key.lock token) cfg.storeTimeout fun _ => f ()) := rfl

/-- A failure is reported before the policy decides. -/
theorem onStoreFailure_eq (error : Store.Error) (run : Program Http.Response) :
    onStoreFailure cfg error run =
      .emit (.storeFailure .idempotency error.message (cfg.failurePolicy = .failOpen))
        (if cfg.failurePolicy = .failOpen then bypass run else .done (.error (.store error))) := rfl

/-- Who found the lock taken reports it, waits, and looks up the record once more. -/
theorem awaitHolder_eq :
    awaitHolder cfg key = .emit (.lockContention key.text)
      (.sleep cfg.contentionWait (lookup cfg key >>= afterWait key)) := rfl

/-- Under the lock the handler runs, its response is captured, and the lock is
released. -/
theorem runHandler_eq (request : Http.Request) (token : Token) :
    runHandler cfg key (served request) token =
      .serve request fun response => capture cfg key response >>= fun response =>
        release cfg key token >>= fun _ => .done (.ok (.executed response)) := rfl

end

/-! ## What becomes of a response -/

section

variable {cfg : Config} {key : OperationKey} {handler : Handler}

/-- A response that is not recorded is passed through with a body that delivers the
same, and one that is recorded is stored under the key. -/
theorem capture_eq (cfg : Config) (key : OperationKey) (response : Http.Response) :
    (captured? cfg response = none ∧ ∃ body, body.delivered = response.body.delivered ∧
      capture cfg key response = passThrough key { response with body := body }) ∨
    ∃ bytes, captured? cfg response = some bytes ∧
      capture cfg key response = .now fun now =>
        .call (.set key.text
            (Record.capture response.status response.headers bytes now cfg.cacheTtl).render
            cfg.cacheTtl) cfg.storeTimeout fun answer =>
          .emit (recordingEvent key response.status (answer.map fun _ => ()))
            (.done { response with body := .ofBytes bytes }) := by
  unfold capture captured? Http.Body.bytesWithin?
  by_cases hskip : (!Http.isSuccess response.status || isKnownTooLong cfg response.body) = true
  · rw [if_pos hskip, if_pos hskip]
    exact Or.inl ⟨rfl, response.body, rfl, rfl⟩
  · rw [if_neg hskip, if_neg hskip]
    have hdelivered := Http.Body.delivered_collectLimited response.body cfg.maxBodyBytes
    cases hbody : response.body.collectLimited cfg.maxBodyBytes with
    | passthrough body =>
        rw [hbody] at hdelivered
        exact Or.inl ⟨rfl, body, hdelivered, rfl⟩
    | complete bytes =>
        have hsuccess : Http.isSuccess response.status = true := by
          cases hstatus : Http.isSuccess response.status with
          | true => rfl
          | false =>
              rw [hstatus] at hskip
              exact absurd rfl hskip
        refine Or.inr ⟨bytes, rfl, ?_⟩
        have hrecord : ∀ now, (Record.capture response.status response.headers bytes now
            cfg.cacheTtl).isSuccess = true := fun _ => hsuccess
        simp only [storeRecord, hrecord, if_true]
        rfl

/-- A response that is recorded is a success with a body that does not break
off. -/
theorem captured?_eq_some {cfg : Config} {response : Http.Response} {bytes : Bytes}
    (h : captured? cfg response = some bytes) :
    Http.isSuccess response.status = true ∧ response.body.delivered = (bytes, none) := by
  unfold captured? at h
  by_cases hskip : (!Http.isSuccess response.status || isKnownTooLong cfg response.body) = true
  · rw [if_pos hskip] at h
    exact nomatch h
  · rw [if_neg hskip] at h
    have hdelivered := Http.Body.delivered_collectLimited response.body cfg.maxBodyBytes
    unfold Http.Body.bytesWithin? at h
    cases hbody : response.body.collectLimited cfg.maxBodyBytes with
    | passthrough body => simp [hbody] at h
    | complete all =>
        simp only [hbody, Option.some.injEq] at h
        rw [hbody, h] at hdelivered
        simp only [Bool.or_eq_true, not_or, Bool.not_eq_true, Bool.not_eq_false'] at hskip
        exact ⟨hskip.1, hdelivered.symm⟩

/-- What is recorded is no longer than it may be. -/
theorem captured?_length {cfg : Config} {response : Http.Response} {bytes : Bytes}
    (h : captured? cfg response = some bytes) : bytes.length ≤ cfg.maxBodyBytes := by
  unfold captured? at h
  split at h
  · exact nomatch h
  · exact Http.Body.length_of_bytesWithin? h

/-- A success with a body that is short enough is recorded. -/
theorem captured?_of_ofBytes {cfg : Config} {response : Http.Response} {bytes : Bytes}
    (hstatus : Http.isSuccess response.status = true) (hbody : response.body = .ofBytes bytes)
    (hshort : bytes.length ≤ cfg.maxBodyBytes) : captured? cfg response = some bytes := by
  have hlong : ¬ cfg.maxBodyBytes < bytes.length := by omega
  unfold captured? isKnownTooLong
  rw [hstatus, hbody]
  cases bytes with
  | nil => simp [Http.Body.ofBytes, Http.Body.bytesWithin?, Http.Body.collectLimited,
      Http.Body.collectFrom]
  | cons b bytes =>
      simp only [List.length_cons] at hlong
      simp [Http.Body.ofBytes, Http.Body.bytesWithin?, Http.Body.collectLimited,
        Http.Body.collectFrom, hlong]

/-! ## Settled histories -/

/-- Where no handler has answered nothing has to be written. -/
theorem settled_of_not_finished {past : List Note}
    (h : ∀ response, .finished (some response) ∉ past) : Settled cfg key past := by
  intro response bytes hmem _
  exact absurd hmem (h response)

/-- A write that was tried has been made or lost. -/
theorem settled_of_outcome {past : List Note} {value : Bytes} {answer : Option Answer}
    (h : outcome (.set key.text value cfg.cacheTtl) answer ∈ past) : Settled cfg key past :=
  fun _ _ _ _ => ⟨value, answer, h⟩

/-- What is settled stays so until a handler answers. -/
theorem Settled.cons {past : List Note} {n : Note} (h : Settled cfg key past)
    (hn : ∀ response, n ≠ .finished (some response)) : Settled cfg key (n :: past) := by
  intro response bytes hmem hcaptured
  rcases List.mem_cons.1 hmem with heq | hmem
  · exact absurd heq.symm (hn response)
  · rcases h response bytes hmem hcaptured with ⟨value, answer, hvalue⟩
    exact ⟨value, answer, List.mem_cons_of_mem _ hvalue⟩

/-- A response that is not recorded leaves nothing to be sent. -/
theorem Settled.cons_finished {past : List Note} {response : Http.Response}
    (h : Settled cfg key past) (hnone : captured? cfg response = none) :
    Settled cfg key (.finished (some response) :: past) := by
  intro response' bytes hmem hcaptured
  rcases List.mem_cons.1 hmem with heq | hmem
  · simp only [Note.finished.injEq, Option.some.injEq] at heq
    rw [heq, hnone] at hcaptured
    exact nomatch hcaptured
  · rcases h response' bytes hmem hcaptured with ⟨value, answer, hvalue⟩
    exact ⟨value, answer, List.mem_cons_of_mem _ hvalue⟩

/-- What becomes of a call is no answer of a handler. -/
theorem outcome_ne_finished (call : Call) (answer : Option Answer) (response : Http.Response) :
    outcome call answer ≠ .finished (some response) := by
  cases answer with
  | none => exact nofun
  | some a => exact nofun

/-- Reading the clock leaves it settled. -/
theorem Settled.read {past : List Note} (h : Settled cfg key past) (now : Timestamp) :
    Settled cfg key (.read now :: past) :=
  h.cons nofun

/-- The notes of a call settle nothing and unsettle nothing. -/
theorem Settled.call {past : List Note} (h : Settled cfg key past) (call : Call)
    (answer : Option Answer) : Settled cfg key (outcome call answer :: .sent call :: past) := by
  have hsent : Settled cfg key (.sent call :: past) := h.cons nofun
  exact hsent.cons (outcome_ne_finished call answer)

/-- So does a call of the store. -/
theorem Settled.told {past : List Note} (h : Settled cfg key past) (call : Call)
    (answer : Option Answer) (result : Except Store.Error Answer) :
    Settled cfg key (.told call result :: outcome call answer :: .sent call :: past) :=
  (h.call call answer).cons nofun

/-- So does a release. -/
theorem Settled.released {past : List Note} {token : Token} (h : Settled cfg key past)
    (answer : Option Answer) (result : Except Store.Error Answer) :
    Settled cfg key (.told (.releaseLock key.lock token) result ::
      outcome (.releaseLock key.lock token) answer :: .sent (.releaseLock key.lock token) ::
      .unheld :: past) := by
  have hunheld : Settled cfg key (.unheld :: past) := h.cons nofun
  exact hunheld.told _ answer result

/-! ## The steps of a caller -/

/-- A look-up goes on with the record that it was answered, or with an error. -/
theorem keeps_lookup {past : List Note} {f : Except Store.Error (Option Record) → Program Result}
    (hpast : Settled cfg key past)
    (hfound : ∀ now answer,
      Keeps handler (policyRules cfg key) (lookedUp key now answer past) (f (cfg.found now answer)))
    (hfailed : ∀ now answer error, Keeps handler (policyRules cfg key)
      (.told (.get key.text) (.error error) :: outcome (.get key.text) answer ::
        .sent (.get key.text) :: .read now :: past) (f (.error error))) :
    Keeps handler (policyRules cfg key) past (lookup cfg key >>= f) := by
  rw [lookup_bind]
  intro now
  refine ⟨Or.inl rfl, ?_⟩
  intro answer
  refine ⟨Or.inl ((hpast.read now).call _ answer), ?_⟩
  intro result hreports
  cases result with
  | ok a =>
      have hanswer : answer = some a := hreports
      subst hanswer
      exact hfound now a
  | error error => exact hfailed now answer error

/-- A replay ends with the record that was found. -/
theorem keeps_replay {past : List Note} (newer : List Note) {older : List Note} {now : Timestamp}
    {answer : Answer} {record : Record} (hpast : past = newer ++ lookedUp key now answer older)
    (hnewer : ∀ n ∈ newer, ¬ n.EndsWait) (hquiet : ∀ request, .began request ∉ past)
    (hrecord : recordOf now answer = .ok (some record)) :
    Keeps handler (policyRules cfg key) past (replay key record) := by
  refine ⟨Or.inl trivial, Or.inl ⟨?_, .emitted (.cacheHit key.text) :: newer, now, answer, older,
    record, ?_, ?_, hrecord, rfl⟩⟩
  · intro request hmem
    rcases List.mem_cons.1 hmem with heq | hmem
    · exact nomatch heq
    · exact hquiet request hmem
  · rw [hpast]
    rfl
  · intro n hn
    rcases List.mem_cons.1 hn with rfl | hn
    · exact id
    · exact hnewer n hn

/-- Releasing a lock is done without a wait other than for its answer. -/
theorem not_endsWait_of_released {token : Token} {answer : Option Answer}
    {result : Except Store.Error Answer} {n : Note}
    (hn : n ∈ [.told (.releaseLock key.lock token) result,
      outcome (.releaseLock key.lock token) answer, .sent (.releaseLock key.lock token), .unheld]) :
    ¬ n.EndsWait := by
  simp only [List.mem_cons, List.not_mem_nil, or_false] at hn
  rcases hn with rfl | rfl | rfl | rfl
  · exact id
  · cases answer <;> exact id
  · exact id
  · exact id

/-- Where the store fails, a caller runs the handler without a lock or ends, as its
policy says. -/
theorem keeps_onStoreFailure {past : List Note} (hpast : Settled cfg key past)
    (error : Store.Error) (request : Http.Request) :
    Keeps handler (policyRules cfg key) past (onStoreFailure cfg error (served request)) := by
  rw [onStoreFailure_eq]
  refine ⟨Or.inl trivial, ?_⟩
  by_cases hopen : cfg.failurePolicy = .failOpen
  · rw [if_pos hopen]
    have hreported : ∀ event, Settled cfg key (.emitted event :: past) := fun _ => hpast.cons nofun
    have hbegan : ∀ event, Settled cfg key (.began request :: .emitted event :: past) :=
      fun event => (hreported event).cons nofun
    refine ⟨Or.inr ⟨hopen, request, rfl⟩, Or.inl ((hbegan _).cons nofun), ?_⟩
    intro response _
    exact Or.inr ⟨hopen, response, rfl⟩
  · rw [if_neg hopen]
    exact Or.inl trivial

/-- A caller lets go of its lock once there is nothing left to be written. -/
theorem keeps_release {past : List Note} {token : Token} {f : Unit → Program Result}
    (hgiven : WasGiven cfg key token past) (hsettled : Settled cfg key past)
    (hnext : ∀ answer result, Keeps handler (policyRules cfg key)
      (.told (.releaseLock key.lock token) result :: outcome (.releaseLock key.lock token) answer ::
        .sent (.releaseLock key.lock token) :: .unheld :: past) (f ())) :
    Keeps handler (policyRules cfg key) past (release cfg key token >>= f) := by
  rw [release_bind]
  have hunheld : Settled cfg key (.unheld :: past) := hsettled.cons nofun
  refine ⟨Or.inl hsettled, Or.inl ⟨rfl, List.mem_cons_of_mem _ hgiven, hunheld⟩, ?_⟩
  intro answer
  exact ⟨Or.inl (hunheld.call _ answer), fun result _ => hnext answer result⟩

/-- A response is recorded if it is to be, and there is nothing left to be written
afterwards. -/
theorem keeps_capture {past : List Note} {request : Http.Request} {response : Http.Response}
    {token : Token} {f : Http.Response → Program Result} (hcleared : Cleared cfg key token past)
    (hpast : Settled cfg key past)
    (hnext : ∀ newer given, Settled cfg key
        (newer ++ .finished (some response) :: .began request :: past) →
      Keeps handler (policyRules cfg key) (newer ++ .finished (some response) :: .began request :: past)
        (f given)) :
    Keeps handler (policyRules cfg key) (.finished (some response) :: .began request :: past)
      (capture cfg key response >>= f) := by
  have hbegan : Settled cfg key (.began request :: past) := hpast.cons nofun
  rcases capture_eq cfg key response with ⟨hnone, body, _, hcapture⟩ | ⟨bytes, hsome, hcapture⟩
  · have hfinished := (hbegan.cons_finished hnone).cons
      (n := .emitted (.responseNotCached key.text response.status)) nofun
    rw [hcapture]
    exact ⟨Or.inl trivial, hnext [_] { response with body := body } hfinished⟩
  · rw [hcapture]
    intro now
    have hcaptures : Captures cfg key
        (.read now :: .finished (some response) :: .began request :: past)
        (Record.capture response.status response.headers bytes now cfg.cacheTtl).render :=
      ⟨token, request, response, now, bytes, past, hcleared, rfl, hsome, rfl⟩
    refine ⟨Or.inl ⟨rfl, rfl, hcaptures⟩, ?_⟩
    intro answer
    refine ⟨Or.inl (settled_of_outcome List.mem_cons_self), ?_⟩
    intro result _
    refine ⟨Or.inl trivial, ?_⟩
    apply hnext [_, _, _, _, _]
    exact settled_of_outcome (List.mem_cons_of_mem _ (List.mem_cons_of_mem _ List.mem_cons_self))

/-! ## The whole caller -/

/-- Who has the lock and found nothing keeps the rules as it runs its handler. -/
theorem keeps_runHandler {past : List Note} {request : Http.Request} {token : Token}
    (hcleared : Cleared cfg key token past) (hgiven : WasGiven cfg key token past)
    (hpast : Settled cfg key past) :
    Keeps handler (policyRules cfg key) past (runHandler cfg key (served request) token) := by
  rw [runHandler_eq]
  have hbegan : Settled cfg key (.began request :: past) := hpast.cons nofun
  refine ⟨Or.inl ⟨token, hcleared⟩, Or.inl (hbegan.cons nofun), ?_⟩
  intro response _
  apply keeps_capture hcleared hpast
  intro newer given hsettled
  have hmem : ∀ n ∈ past, n ∈ newer ++ .finished (some response) :: .began request :: past :=
    fun n hn => List.mem_append_right _ (List.mem_cons_of_mem _ (List.mem_cons_of_mem _ hn))
  refine keeps_release (hmem _ hgiven) hsettled ?_
  intro answer result
  refine Or.inl ⟨request, ?_⟩
  simp

/-- Who has the lock keeps the rules as it looks again. -/
theorem keeps_afterRecheck {token : Token} {request : Http.Request} {now : Timestamp} {answer : Answer}
    (hfirst : recordOf now answer = .ok none) :
    Keeps handler (policyRules cfg key) (tookLock cfg key token (lookedUp key now answer [.resumed]))
      (lookup cfg key >>= afterRecheck cfg key (served request) token) := by
  have htook : Settled cfg key (tookLock cfg key token (lookedUp key now answer [.resumed])) := by
    apply settled_of_not_finished
    simp [tookLock, lookedUp]
  have hgiven : WasGiven cfg key token
      (tookLock cfg key token (lookedUp key now answer [.resumed])) := by
    simp [WasGiven, tookLock]
  have hgivenLater : ∀ newer, WasGiven cfg key token
      (newer ++ tookLock cfg key token (lookedUp key now answer [.resumed])) :=
    fun newer => List.mem_append_right _ hgiven
  apply keeps_lookup htook
  · intro now' answer'
    have hlooked : Settled cfg key
        (lookedUp key now' answer' (tookLock cfg key token (lookedUp key now answer [.resumed]))) :=
      Settled.told (htook.read now') _ (some answer') _
    cases hsecond : cfg.found now' answer' with
    | error error =>
        refine keeps_release (hgivenLater [_, _, _, _]) hlooked ?_
        intro released result
        exact keeps_onStoreFailure (hlooked.released released result) error request
    | ok found =>
        cases found with
        | none =>
            exact keeps_runHandler
              ⟨now, answer, now', answer', hfirst, Config.found_eq_ok.1 hsecond, rfl⟩
              (hgivenLater [_, _, _, _]) hlooked
        | some record =>
            refine keeps_release (hgivenLater [_, _, _, _]) hlooked ?_
            intro released result
            refine keeps_replay [_, _, _, _] rfl (fun _ => not_endsWait_of_released) ?_
              (Config.found_eq_ok.1 hsecond)
            cases released <;> simp [outcome, lookedUp, tookLock]
  · intro now' answer' error
    have hmissed : Settled cfg key (.told (.get key.text) (.error error) ::
        outcome (.get key.text) answer' :: .sent (.get key.text) :: .read now' ::
        tookLock cfg key token (lookedUp key now answer [.resumed])) :=
      Settled.told (htook.read now') _ answer' _
    refine keeps_release (hgivenLater [_, _, _, _]) hmissed ?_
    intro released result
    exact keeps_onStoreFailure (hmissed.released released result) error request

/-- Who waits for the holder keeps the rules. -/
theorem keeps_awaitHolder {past : List Note} (hpast : Settled cfg key past)
    (hquiet : ∀ request, .began request ∉ past) :
    Keeps handler (policyRules cfg key) past (awaitHolder cfg key) := by
  rw [awaitHolder_eq]
  have hemitted : Settled cfg key (.emitted (.lockContention key.text) :: past) := hpast.cons nofun
  have hpaused : Settled cfg key
      (.paused cfg.contentionWait :: .emitted (.lockContention key.text) :: past) :=
    hemitted.cons nofun
  have hresumed : Settled cfg key (.resumed :: .paused cfg.contentionWait ::
      .emitted (.lockContention key.text) :: past) := hpaused.cons nofun
  refine ⟨Or.inl trivial, Or.inl trivial, Or.inl hpaused, ?_⟩
  apply keeps_lookup hresumed
  · intro now answer
    cases hfound : cfg.found now answer with
    | error error => exact ⟨Or.inl trivial, Or.inl trivial⟩
    | ok found =>
        cases found with
        | none => exact ⟨Or.inl trivial, Or.inl trivial⟩
        | some record =>
            exact keeps_replay [] rfl (by simp) (by simp [lookedUp, hquiet])
              (Config.found_eq_ok.1 hfound)
  · intro now answer error
    exact ⟨Or.inl trivial, Or.inl trivial⟩

/-- Who found nothing keeps the rules as it asks for the lock. -/
theorem keeps_afterLookup {request : Http.Request} {now : Timestamp} {answer : Answer}
    (hfirst : recordOf now answer = .ok none) :
    Keeps handler (policyRules cfg key) (lookedUp key now answer [.resumed])
      (acquire cfg key >>= afterAcquire cfg key (served request)) := by
  rw [acquire_bind]
  have hlooked : Settled cfg key (lookedUp key now answer [.resumed]) := by
    apply settled_of_not_finished
    simp [lookedUp]
  refine ⟨Or.inl ⟨rfl, rfl⟩, ?_⟩
  intro given
  refine ⟨Or.inl (hlooked.call _ given), ?_⟩
  intro result hreports
  cases result with
  | error error => exact keeps_onStoreFailure (hlooked.told _ given _) error request
  | ok a =>
      have hgiven : given = some a := hreports
      subst hgiven
      have htold := hlooked.told (.acquireLock key.lock cfg.lockTtl) (some a) (.ok a)
      simp only [Except.map]
      cases htoken : tokenOf a with
      | none => exact keeps_awaitHolder htold (by simp [outcome, lookedUp])
      | some token =>
          have ha : a = .token (some token) := eq_token_of_tokenOf htoken
          subst ha
          refine ⟨Or.inl ⟨token, rfl, ?_⟩, keeps_afterRecheck hfirst⟩
          exact List.mem_cons_of_mem _ List.mem_cons_self

/-- A caller keeps the rules of its policy. -/
theorem guarded_keeps_policy (request : Http.Request) :
    KeepsFromStart handler (policyRules cfg key) (guarded cfg key (served request)) := by
  have hresumed : Settled cfg key [.resumed] := settled_of_not_finished (by simp)
  refine ⟨Or.inl (settled_of_not_finished (by simp)), ?_⟩
  apply keeps_lookup hresumed
  · intro now answer
    have hlooked : Settled cfg key (lookedUp key now answer [.resumed]) :=
      Settled.told (hresumed.read now) _ (some answer) _
    cases hfirst : cfg.found now answer with
    | error error => exact keeps_onStoreFailure hlooked error request
    | ok found =>
        cases found with
        | none => exact keeps_afterLookup (Config.found_eq_ok.1 hfirst)
        | some record =>
            exact keeps_replay [] rfl (by simp) (by simp [lookedUp]) (Config.found_eq_ok.1 hfirst)
  · intro now answer error
    exact keeps_onStoreFailure (Settled.told (hresumed.read now) _ answer _) error request

/-- A caller that must not go on without the store keeps the rules. -/
theorem guarded_keeps (hclosed : cfg.failurePolicy = .failClosed) (request : Http.Request) :
    KeepsFromStart handler (rules cfg key) (guarded cfg key (served request)) := by
  have hpolicy : ¬ cfg.failurePolicy = .failOpen := by
    rw [hclosed]
    exact nofun
  have hkeeps : KeepsFromStart handler (policyRules cfg key) (guarded cfg key (served request)) :=
    guarded_keeps_policy request
  refine ⟨hkeeps.quit.resolve_right fun h => hpolicy h.1, hkeeps.keeps.mono ?_ ?_⟩
  · intro past n hmay
    exact Or.resolve_right hmay fun h => hpolicy h.1
  · intro past result hends
    exact Or.resolve_right hends fun h => hpolicy h.1

/-! ## The way to a run -/

/-- A look-up that is answered leads on with the record. -/
theorem lookup_path {α : Type} {owed : Option Call}
    {f : Except Store.Error (Option Record) → Program α} (now : Timestamp) (answer : Answer) :
    Path handler ⟨.going (lookup cfg key >>= f), owed⟩ (lookedUp key now answer [])
      ⟨.going (f (cfg.found now answer)), owed⟩ := by
  have htold : Reports (some answer) (.ok answer) := rfl
  rw [lookup_bind]
  exact (((Path.single .read).step .sent).step .done).step (.told htold)

/-- Taking the lock leads to the second look-up. -/
theorem tookLock_path {owed : Option Call} {run : Program Http.Response} (token : Token) :
    Path handler ⟨.going (acquire cfg key >>= afterAcquire cfg key run), owed⟩
      (tookLock cfg key token [])
      ⟨.going (lookup cfg key >>= afterRecheck cfg key run token),
        some (.releaseLock key.lock token)⟩ := by
  have htold : Reports (some (.token (some token))) (.ok (.token (some token))) := rfl
  rw [acquire_bind]
  exact (((Path.single .sent).step .done).step (.told htold)).step .held

/-- A caller that is cleared is about to run its handler. -/
theorem cleared_path {token : Token} {run : Program Http.Response} {notes : List Note}
    (h : Cleared cfg key token notes) :
    Path handler ⟨.resting (guarded cfg key run), none⟩ notes
      ⟨.going (runHandler cfg key run token), some (.releaseLock key.lock token)⟩ := by
  rcases h with ⟨now, answer, now', answer', hfirst, hsecond, rfl⟩
  have hresumed : Path handler ⟨.resting (guarded cfg key run), none⟩ [.resumed]
      ⟨.going (lookup cfg key >>= afterLookup cfg key run), none⟩ := Path.single .resumed
  have hlooked := hresumed.append (lookup_path now answer)
  rw [Config.found_eq_ok.2 hfirst] at hlooked
  have htook := hlooked.append (tookLock_path token)
  have hlookedAgain := htook.append (lookup_path now' answer')
  rw [Config.found_eq_ok.2 hsecond] at hlookedAgain
  exact hlookedAgain

end

end Turnstile.Once

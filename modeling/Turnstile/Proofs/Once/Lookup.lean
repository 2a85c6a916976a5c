import Turnstile.Proofs.Once.Conduct

/-!
# What look-ups find

Whoever executes a request at most once writes nothing but the record of a
response that the handler may give.  If the handler gives one that is not
recorded, then the outcome is that response or a failure, unless a look-up was
told a record: then it is a replay of that.

Main results:

- Theorem `guarded_makes`: whatever is written is the record of a response of
  the handler.
- Theorem `guarded_ends`: without a record that was found, a handler with a
  response that is not recorded decides the outcome.
-/

namespace Turnstile.Once

open Run
open Store (Answer Call Token)

/-! ## The calls of an execution -/

/-- The record of a response of the handler. -/
def RecordsOne (cfg : Config) (run : Program Http.Response) (value : Bytes) : Prop :=
  ∃ response bytes now, Yields run response ∧ captured? cfg response = some bytes ∧
    value = (Record.capture response.status response.headers bytes now cfg.cacheTtl).render

/-- The calls that executing a handler at most once takes are among those that
are made and owed. -/
structure Covers (cfg : Config) (key : OperationKey) (run : Program Http.Response)
    (made owed : Call → Prop) : Prop where
  handler : Makes made owed run
  get : made (.get key.text)
  set : ∀ value, RecordsOne cfg run value → made (.set key.text value cfg.cacheTtl)
  acquire : made (.acquireLock key.lock cfg.lockTtl)
  release : ∀ token, made (.releaseLock key.lock token)
  owed : ∀ token, owed (.releaseLock key.lock token)

section

variable {cfg : Config} {key : OperationKey} {run : Program Http.Response} {made owed : Call → Prop}

/-- A look-up makes only calls that are covered. -/
theorem lookup_makes (h : Covers cfg key run made owed) : Makes made owed (lookup cfg key) :=
  fun _ => ⟨h.get, fun _ => trivial⟩

/-- So does a release. -/
theorem release_makes (h : Covers cfg key run made owed) (token : Token) :
    Makes made owed (release cfg key token) :=
  ⟨h.release token, fun _ => trivial⟩

/-- So does a run without a guard. -/
theorem bypass_makes (h : Covers cfg key run made owed) : Makes made owed (bypass run) :=
  h.handler.bind fun _ _ => trivial

/-- So does what follows a failure of the store. -/
theorem onStoreFailure_makes (h : Covers cfg key run made owed) (error : Store.Error) :
    Makes made owed (onStoreFailure cfg error run) := by
  rw [onStoreFailure_eq]
  by_cases hopen : cfg.failurePolicy = .failOpen
  · rw [if_pos hopen]
    exact bypass_makes h
  · rw [if_neg hopen]
    exact trivial

/-- A response is recorded under the key, if at all. -/
theorem capture_makes (h : Covers cfg key run made owed) {response : Http.Response}
    (hyields : Yields run response) : Makes made owed (capture cfg key response) := by
  rcases capture_eq cfg key response with ⟨_, body, _, hcapture⟩ | ⟨bytes, hsome, hcapture⟩
  · rw [hcapture]
    exact trivial
  · rw [hcapture]
    intro now
    exact ⟨h.set _ ⟨response, bytes, now, hyields, hsome, rfl⟩, fun _ => trivial⟩

/-- So does a run of the handler under the lock. -/
theorem runHandler_makes (h : Covers cfg key run made owed) (token : Token) :
    Makes made owed (runHandler cfg key run token) := by
  refine h.handler.bind fun response hyields => ?_
  refine (capture_makes h hyields).bind fun _ _ => ?_
  exact (release_makes h token).bind fun _ _ => trivial

/-- So does all that is done under the lock. -/
theorem underLock_makes (h : Covers cfg key run made owed) (token : Token) :
    Makes made owed (underLock cfg key run token) := by
  refine ⟨h.owed token, ?_⟩
  refine (lookup_makes h).bind fun found _ => ?_
  cases found with
  | error error => exact (release_makes h token).bind fun _ _ => onStoreFailure_makes h error
  | ok found =>
      cases found with
      | none => exact runHandler_makes h token
      | some record => exact (release_makes h token).bind fun _ _ => trivial

/-- So does waiting for the holder of the lock. -/
theorem awaitHolder_makes (h : Covers cfg key run made owed) :
    Makes made owed (awaitHolder cfg key) := by
  refine (lookup_makes h).bind fun found _ => ?_
  cases found with
  | error error => exact trivial
  | ok found => cases found <;> exact trivial

/-- Whatever is written is the record of a response of the handler. -/
theorem guarded_makes (h : Covers cfg key run made owed) :
    Makes made owed (guarded cfg key run) := by
  refine (lookup_makes h).bind fun found _ => ?_
  cases found with
  | error error => exact onStoreFailure_makes h error
  | ok found =>
      cases found with
      | some record => exact trivial
      | none =>
          refine ⟨h.acquire, fun result => ?_⟩
          cases result with
          | error error => exact onStoreFailure_makes h error
          | ok answer =>
              simp only [Except.map, Program.bind]
              cases tokenOf answer with
              | none => exact awaitHolder_makes h
              | some token => exact underLock_makes h token

end

/-! ## What was found -/

/-- A record that is found was stored, and is valid. -/
theorem recordOf_eq_some {now : Timestamp} {answer : Answer} {record : Record}
    (h : recordOf now answer = .ok (some record)) :
    ∃ stored, answer = .value (some stored) ∧ Record.ofStored? stored = some record ∧
      record.isExpired now = false := by
  unfold recordOf at h
  split at h
  · rename_i stored
    cases hstored : Record.ofStored? stored with
    | none =>
        rw [hstored] at h
        exact nomatch h
    | some found =>
        simp only [hstored, Except.ok.injEq] at h
        by_cases hexpired : found.isExpired now = true
        · rw [if_pos hexpired] at h
          exact nomatch h
        · rw [if_neg hexpired, Option.some.injEq] at h
          subst h
          exact ⟨stored, rfl, hstored, Bool.not_eq_true _ ▸ hexpired⟩
  · exact nomatch h

/-- A look-up was answered by the store right after it read the clock. -/
theorem exists_of_lookedUp {key : OperationKey} {now : Timestamp} {answer : Answer}
    {older : List Note} {i : Nat} {log : Log}
    (h : lookedUp key now answer older <:+ own i log) :
    ∃ got past, Tells log ⟨got, some i, .done (.get key.text) answer⟩ past ∧
      own i past = .sent (.get key.text) :: .read now :: older := by
  rcases h with ⟨newer, hown⟩
  have hsplit : own i log = (newer ++ [.told (.get key.text) (.ok answer)]) ++
      .done (.get key.text) answer :: .sent (.get key.text) :: .read now :: older := by
    rw [← hown, List.append_assoc]
    rfl
  exact exists_of_own _ hsplit

/-- A look-up of the key was told the record. -/
def Finds (key : OperationKey) (record : Record) (past : List Note) : Prop :=
  ∃ now answer older, lookedUp key now answer older <:+ past ∧
    recordOf now answer = .ok (some record)

/-- No look-up of the key was told a record. -/
def FindsNothing (key : OperationKey) (past : List Note) : Prop :=
  ∀ record, ¬ Finds key record past

/-- The store failed with the error, or it answered with a text that is no record, and
the error is that of the text. -/
def Failed (cfg : Config) (error : Store.Error) (past : List Note) : Prop :=
  (∃ call stored, .told call (.ok (.value (some stored))) ∈ past ∧
    Record.ofStored? stored = none ∧ error = cfg.unreadable stored) ∨
  ∃ call, .told call (.error error) ∈ past

/-- How an execution concludes whose handler gives a response that is not
recorded. -/
def concludes (cfg : Config) (key : OperationKey) (response : Http.Response) (past : List Note) : Result → Prop
  | .ok (.replayed replayed) => ∃ record, Finds key record past ∧ replayed = record.toResponse
  | .ok (.executed given) => FindsNothing key past ∧ given = response
  | .ok (.bypassed given) => FindsNothing key past ∧ given = response
  | .error (.invalidKey _) => False
  | .error .conflict => FindsNothing key past
  | .error (.store error) => FindsNothing key past ∧ Failed cfg error past

section

variable {key : OperationKey} {record : Record} {past : List Note}

/-- What was found was found in what happened since as well. -/
theorem Finds.of_suffix {older : List Note} (h : Finds key record older) (hs : older <:+ past) :
    Finds key record past := by
  rcases h with ⟨now, answer, earlier, hsuffix, hrecord⟩
  exact ⟨now, answer, earlier, hsuffix.trans hs, hrecord⟩

/-- A failure stays one, whatever is noted later. -/
theorem Failed.of_suffix {cfg : Config} {error : Store.Error} {older : List Note}
    (h : Failed cfg error older) (hs : older <:+ past) : Failed cfg error past := by
  rcases h with ⟨call, stored, htold, hunreadable⟩ | ⟨call, htold⟩
  · exact Or.inl ⟨call, stored, hs.mem htold, hunreadable⟩
  · exact Or.inr ⟨call, hs.mem htold⟩

/-- Only what a look-up is told makes a difference. -/
theorem FindsNothing.cons (h : FindsNothing key past) {n : Note}
    (hn : ∀ answer, n ≠ .told (.get key.text) (.ok answer)) : FindsNothing key (n :: past) := by
  intro record hfinds
  rcases hfinds with ⟨now, answer, older, hsuffix, hrecord⟩
  rcases List.suffix_cons_iff.1 hsuffix with heq | hsuffix
  · unfold lookedUp at heq
    rw [List.cons.injEq] at heq
    exact hn answer heq.1.symm
  · exact h record ⟨now, answer, older, hsuffix, hrecord⟩

/-- A look-up that is told no record finds nothing. -/
theorem FindsNothing.lookedUp (h : FindsNothing key past) {now : Timestamp} {answer : Answer}
    (hnone : ∀ record, recordOf now answer ≠ .ok (some record)) :
    FindsNothing key (lookedUp key now answer past) := by
  have hread : FindsNothing key (.read now :: past) := h.cons nofun
  have hsent : FindsNothing key (.sent (.get key.text) :: .read now :: past) := hread.cons nofun
  have hdone : FindsNothing key (.done (.get key.text) answer :: .sent (.get key.text) ::
      .read now :: past) := hsent.cons nofun
  intro record hfinds
  rcases hfinds with ⟨now', answer', older, hsuffix, hrecord⟩
  rcases List.suffix_cons_iff.1 hsuffix with heq | hsuffix
  · simp only [Once.lookedUp, List.cons.injEq, Note.told.injEq, Except.ok.injEq, Note.read.injEq]
      at heq
    rcases heq with ⟨⟨_, hanswer⟩, _, _, hnow, _⟩
    rw [hanswer, hnow] at hrecord
    exact hnone record hrecord
  · exact hdone record ⟨now', answer', older, hsuffix, hrecord⟩

/-- A call that fails, or that is no look-up, finds nothing. -/
theorem FindsNothing.call (h : FindsNothing key past) {call : Call} (answer : Option Answer)
    {result : Except Store.Error Answer} (hcall : call = .get key.text → ∃ error, result = .error error) :
    FindsNothing key (.told call result :: outcome call answer :: .sent call :: past) := by
  have hsent : FindsNothing key (.sent call :: past) := h.cons nofun
  have houtcome : FindsNothing key (outcome call answer :: .sent call :: past) := by
    cases answer with
    | none => exact hsent.cons nofun
    | some a => exact hsent.cons nofun
  apply houtcome.cons
  intro a heq
  simp only [Note.told.injEq] at heq
  rcases hcall heq.1 with ⟨error, herror⟩
  rw [herror] at heq
  exact nomatch heq.2

end

/-! ## A response that is not recorded -/

section

variable {cfg : Config} {key : OperationKey} {handler : Handler} {α : Type} {ends : List Note → α → Prop}

/-- A look-up goes on with a record that it found, without one, or with a
failure. -/
theorem lookup_ends {past : List Note} {f : Except Store.Error (Option Record) → Program α}
    (hpast : FindsNothing key past)
    (hfound : ∀ newer record, Finds key record newer →
      Keeps handler (.ending ends) newer (f (.ok (some record))))
    (hnone : ∀ newer, FindsNothing key newer → Keeps handler (.ending ends) newer (f (.ok none)))
    (hfailed : ∀ newer error, FindsNothing key newer → Failed cfg error newer →
      Keeps handler (.ending ends) newer (f (.error error))) :
    Keeps handler (.ending ends) past (lookup cfg key >>= f) := by
  rw [lookup_bind]
  intro now
  have hread : FindsNothing key (.read now :: past) := hpast.cons nofun
  refine ⟨trivial, ?_⟩
  intro answer
  refine ⟨trivial, ?_⟩
  intro result hreports
  cases result with
  | error error =>
      exact hfailed _ error (hread.call answer fun _ => ⟨error, rfl⟩)
        (Or.inr ⟨_, List.mem_cons_self⟩)
  | ok a =>
      have hanswer : answer = some a := hreports
      subst hanswer
      show Keeps handler (.ending ends) (lookedUp key now a past) (f (cfg.found now a))
      cases hlookup : cfg.found now a with
      | error error =>
          rcases Config.found_eq_error.1 hlookup with ⟨stored, rfl, hunreadable⟩
          have hrecord : recordOf now (.value (some stored)) = .error stored :=
            recordOf_eq_error.2 ⟨rfl, hunreadable.1⟩
          exact hfailed _ error (hpast.lookedUp (by simp [hrecord]))
            (Or.inl ⟨_, stored, List.mem_cons_self, hunreadable⟩)
      | ok found =>
          have hrecord := Config.found_eq_ok.1 hlookup
          cases found with
          | some record => exact hfound _ record ⟨now, a, past, List.suffix_refl _, hrecord⟩
          | none => exact hnone _ (hpast.lookedUp (by simp [hrecord]))

/-- A call that is no look-up leaves what was found as it is. -/
theorem call_ends {past : List Note} {call : Call} {deadline : Span}
    {next : Except Store.Error Answer → Program α} (hcall : call ≠ .get key.text)
    (hpast : FindsNothing key past)
    (hnext : ∀ newer result, FindsNothing key newer →
      (∀ error, result = .error error → Failed cfg error newer) →
      Keeps handler (.ending ends) newer (next result)) :
    Keeps handler (.ending ends) past (.call call deadline next) := by
  refine ⟨trivial, ?_⟩
  intro answer
  refine ⟨trivial, ?_⟩
  intro result _
  refine hnext _ result (hpast.call answer fun heq => absurd heq hcall) ?_
  intro error herror
  subst herror
  exact Or.inr ⟨call, List.mem_cons_self⟩

/-- A release leaves what was found, and what was not, as it is. -/
theorem release_ends {past : List Note} {token : Token} {f : Unit → Program α}
    (hnext : ∀ newer, past <:+ newer → (FindsNothing key past → FindsNothing key newer) →
      Keeps handler (.ending ends) newer (f ())) :
    Keeps handler (.ending ends) past (release cfg key token >>= f) := by
  rw [release_bind]
  refine ⟨trivial, trivial, ?_⟩
  intro answer
  refine ⟨trivial, ?_⟩
  intro result _
  apply hnext
  · exact List.suffix_append [_, _, _, _] past
  · intro hpast
    have hunheld : FindsNothing key (.unheld :: past) := hpast.cons nofun
    exact hunheld.call answer nofun

/-- A replay concludes with a record that was found. -/
theorem replay_ends {response : Http.Response} {past : List Note} {record : Record}
    (h : Finds key record past) :
    Keeps handler (.ending (concludes cfg key response)) past (replay key record) :=
  ⟨trivial, record, h.of_suffix (List.suffix_cons _ _), rfl⟩

/-- Who finds nothing and fails ends as the policy says. -/
theorem onStoreFailure_ends {response : Http.Response} {past : List Note} {error : Store.Error}
    (hpast : FindsNothing key past) (hfailed : Failed cfg error past) :
    Keeps handler (.ending (concludes cfg key response)) past
      (onStoreFailure cfg error (.done response)) := by
  rw [onStoreFailure_eq]
  have hemitted : FindsNothing key (.emitted (.storeFailure .idempotency error.message
      (cfg.failurePolicy = .failOpen)) :: past) := hpast.cons nofun
  refine ⟨trivial, ?_⟩
  by_cases hopen : cfg.failurePolicy = .failOpen
  · rw [if_pos hopen]
    exact ⟨hemitted, rfl⟩
  · rw [if_neg hopen]
    exact ⟨hemitted, hfailed.of_suffix (List.suffix_cons _ _)⟩

/-- A response that is no success is passed through. -/
theorem capture_of_not_success {response : Http.Response}
    (h : Http.isSuccess response.status = false) :
    capture cfg key response = passThrough key response := by
  unfold capture
  rw [h]
  rfl

/-- Who runs a handler that does not succeed ends with its response. -/
theorem runHandler_ends {response : Http.Response} (h : Http.isSuccess response.status = false)
    {past : List Note} (hpast : FindsNothing key past) (token : Token) :
    Keeps handler (.ending (concludes cfg key response)) past
      (runHandler cfg key (.done response) token) := by
  have hunfold : runHandler cfg key (.done response) token =
      (capture cfg key response >>= fun response =>
        release cfg key token >>= fun _ => .done (.ok (.executed response))) := rfl
  rw [hunfold, capture_of_not_success h]
  have hemitted : FindsNothing key
      (.emitted (.responseNotCached key.text response.status) :: past) := hpast.cons nofun
  refine ⟨trivial, ?_⟩
  apply release_ends
  intro newer _ hnewer
  exact ⟨hnewer hemitted, rfl⟩

/-- So does who looks again first, unless it finds a record then. -/
theorem underLock_ends {response : Http.Response} (h : Http.isSuccess response.status = false)
    {past : List Note} (hpast : FindsNothing key past) (token : Token) :
    Keeps handler (.ending (concludes cfg key response)) past
      (underLock cfg key (.done response) token) := by
  have hheld : FindsNothing key (.held (.releaseLock key.lock token) :: past) := hpast.cons nofun
  refine ⟨trivial, ?_⟩
  apply lookup_ends hheld
  · intro newer record hfinds
    apply release_ends
    intro later hsuffix _
    exact replay_ends (hfinds.of_suffix hsuffix)
  · intro newer hnewer
    exact runHandler_ends h hnewer token
  · intro newer error hnewer hfailed
    apply release_ends
    intro later hsuffix hlater
    exact onStoreFailure_ends (hlater hnewer) (hfailed.of_suffix hsuffix)

/-- Who waits for the holder ends with what it finds or with a failure. -/
theorem awaitHolder_ends {response : Http.Response} {past : List Note}
    (hpast : FindsNothing key past) :
    Keeps handler (.ending (concludes cfg key response)) past (awaitHolder cfg key) := by
  rw [awaitHolder_eq]
  have hemitted : FindsNothing key (.emitted (.lockContention key.text) :: past) := hpast.cons nofun
  have hpaused : FindsNothing key (.paused cfg.contentionWait ::
      .emitted (.lockContention key.text) :: past) := hemitted.cons nofun
  have hresumed : FindsNothing key (.resumed :: .paused cfg.contentionWait ::
      .emitted (.lockContention key.text) :: past) := hpaused.cons nofun
  refine ⟨trivial, trivial, trivial, ?_⟩
  apply lookup_ends hresumed
  · intro newer record hfinds
    exact replay_ends hfinds
  · intro newer hnewer
    exact ⟨trivial, hnewer.cons nofun⟩
  · intro newer error hnewer hfailed
    exact ⟨trivial, hnewer.cons nofun, hfailed.of_suffix (List.suffix_cons _ _)⟩

/-- Without a record that was found, a handler with a response that is not
recorded decides the outcome. -/
theorem guarded_ends {response : Http.Response} (h : Http.isSuccess response.status = false)
    {past : List Note} (hpast : FindsNothing key past) :
    Keeps handler (.ending (concludes cfg key response)) past (guarded cfg key (.done response)) := by
  apply lookup_ends hpast
  · intro newer record hfinds
    exact replay_ends hfinds
  · intro newer hnewer
    show Keeps handler (.ending (concludes cfg key response)) newer
      (acquire cfg key >>= afterAcquire cfg key (.done response))
    rw [acquire_bind]
    have hcall : Call.acquireLock key.lock cfg.lockTtl ≠ .get key.text := nofun
    apply call_ends hcall hnewer
    intro later result hlater hfailed
    cases result with
    | error error => exact onStoreFailure_ends hlater (hfailed error rfl)
    | ok answer =>
        simp only [Except.map]
        cases tokenOf answer with
        | none => exact awaitHolder_ends hlater
        | some token => exact underLock_ends h hlater token
  · intro newer error hnewer hfailed
    exact onStoreFailure_ends hnewer hfailed

end

end Turnstile.Once

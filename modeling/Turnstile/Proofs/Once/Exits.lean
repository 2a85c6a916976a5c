import Turnstile.Proofs.Once.AtMostOnce
import Turnstile.Proofs.Once.Lookup
import Turnstile.Proofs.Run.Calls

/-!
# The exits of an execution

An execution looks up a record up to three times, takes a lock, waits, runs the
handler and writes, and each of these can go wrong.  What its notes amount to is a
tally: what it reported, how often it ran the handler, whether it lost the lock to
somebody else, which look-ups and attempts to take the lock failed, and how its
write ended.  Each way out has one tally.

Whatever the store answers or fails to answer, a caller that comes to a result took
one of the ways out, so that the result and the events tell how often the handler
ran.

Main results:

- Theorem `guarded_exits`: an execution under a key takes one of the ways out.
- Theorem `Caller.keeps_exits`: every caller does, and one without a key calls no
  store.
- Theorem `every_exit_accounted`: so it is on every path of a caller, and in every
  run that it takes part in.
-/

namespace Turnstile.Once

open Run
open Store (Answer Call Token)

/-! ## Tallies -/

/-- What the notes of a caller amount to. -/
structure Tally where
  /-- The events that it reported, in their order. -/
  events : List Event := []
  /-- The requests that it handed to its handler, in their order. -/
  runs : List Http.Request := []
  /-- Whether it found the lock taken. -/
  lost : Bool := false
  /-- How its look-ups and its attempts to take the lock failed. -/
  failures : List Store.Error := []
  /-- How its writes ended. -/
  written : List (Except Store.Error Unit) := []

/-- The text that an answer holds and that is no record, if it holds one. -/
def textOnly? : Answer → Option Bytes
  | .value (some stored) => if (Record.ofStored? stored).isNone then some stored else none
  | _ => none

namespace Tally

/-- One more event. -/
def report (T : Tally) (event : Event) : Tally :=
  { T with events := T.events ++ [event] }

/-- One more run of the handler. -/
def run (T : Tally) (http : Http.Request) : Tally :=
  { T with runs := T.runs ++ [http] }

/-- The lock was found taken. -/
def lose (T : Tally) : Tally :=
  { T with lost := true }

/-- One more failure. -/
def fail (T : Tally) (error : Store.Error) : Tally :=
  { T with failures := T.failures ++ [error] }

/-- One more write. -/
def write (T : Tally) (stored : Except Store.Error Unit) : Tally :=
  { T with written := T.written ++ [stored] }

/-- What a note adds.  A look-up fails if the call does, and also if it is answered
with a text that is no record. -/
def note (T : Tally) (cfg : Config) : Note → Tally
  | .emitted event => T.report event
  | .began http => T.run http
  | .told (.get _) (.ok answer) =>
      match textOnly? answer with
      | some stored => T.fail (cfg.unreadable stored)
      | none => T
  | .told (.get _) (.error error) => T.fail error
  | .told (.acquireLock ..) (.ok answer) => if (tokenOf answer).isNone then T.lose else T
  | .told (.acquireLock ..) (.error error) => T.fail error
  | .told (.set ..) result => T.write (result.map fun _ => ())
  | _ => T

end Tally

/-- What notes amount to. -/
def tally (cfg : Config) : List Note → Tally
  | [] => {}
  | n :: past => (tally cfg past).note cfg n

/-- Every note adds to what those before it amount to. -/
@[simp]
theorem tally_cons (cfg : Config) (n : Note) (past : List Note) :
    tally cfg (n :: past) = (tally cfg past).note cfg n := rfl

/-- Of a call only what the caller is told of it counts. -/
theorem tally_told (cfg : Config) (past : List Note) (call : Call) (answer : Option Answer)
    (result : Except Store.Error Answer) :
    tally cfg (.told call result :: outcome call answer :: .sent call :: past) =
      (tally cfg past).note cfg (.told call result) := by
  cases answer <;> rfl

/-- A text without a record is told exactly if the look-up fails with it. -/
theorem textOnly?_eq_some (now : Timestamp) (answer : Answer) (stored : Bytes) :
    textOnly? answer = some stored ↔ recordOf now answer = .error stored := by
  match answer with
  | .value (some text) =>
      cases hstored : Record.ofStored? text <;> simp [textOnly?, recordOf, hstored]
  | .value none | .done | .token _ | .window _ | .count _ => simp [textOnly?, recordOf]

/-- The runs of a tally are the requests that were handed over. -/
theorem runs_tally (cfg : Config) (notes : List Note) : (tally cfg notes).runs = (handedOver notes).reverse := by
  induction notes with
  | nil => rfl
  | cons n past ih =>
      rw [tally_cons]
      unfold Tally.note
      split
      case h_2 request => simp [Tally.run, handedOver, ih]
      all_goals (try split) <;>
        simpa [handedOver, Tally.report, Tally.fail, Tally.lose, Tally.write] using ih

/-! ## The ways out -/

/-- The ways out of an execution under a key: what its notes amount to, and its
result. -/
inductive GuardedExit (cfg : Config) (key : OperationKey) (http : Http.Request) :
    Tally → Result → Prop where
  /-- A look-up found a record. -/
  | hit (r : Http.Response) : GuardedExit cfg key http
      { events := [.cacheHit key.text] } (.ok (.replayed r))
  /-- The lock was taken, and its holder left a record. -/
  | hitAfterWait (r : Http.Response) : GuardedExit cfg key http
      { events := [.lockContention key.text, .cacheHit key.text], lost := true } (.ok (.replayed r))
  /-- The lock was taken, and its holder left no record so far. -/
  | conflict : GuardedExit cfg key http
      { events := [.lockContention key.text, .concurrentConflict key.text], lost := true }
      (.error .conflict)
  /-- The lock was taken, and the look-up after the wait failed; the policy does not
  matter. -/
  | failedAfterWait (e : Store.Error) : GuardedExit cfg key http
      { events := [.lockContention key.text, .storeFailure .idempotency e.message false],
        lost := true, failures := [e] } (.error (.store e))
  /-- The store failed before the handler ran, and the policy is to refuse. -/
  | refused (e : Store.Error) (h : cfg.failurePolicy = .failClosed) : GuardedExit cfg key http
      { events := [.storeFailure .idempotency e.message false], failures := [e] }
      (.error (.store e))
  /-- The store failed before the handler ran, and the policy is to go on. -/
  | letThrough (e : Store.Error) (r : Http.Response) (h : cfg.failurePolicy = .failOpen) :
      GuardedExit cfg key http
      { events := [.storeFailure .idempotency e.message true], runs := [http], failures := [e] }
      (.ok (.bypassed r))
  /-- The handler ran and its response was recorded. -/
  | recorded (r : Http.Response) : GuardedExit cfg key http
      { events := [.responseCached key.text r.status], runs := [http], written := [.ok ()] }
      (.ok (.executed r))
  /-- The handler ran and its response was not to be recorded. -/
  | passedThrough (r : Http.Response) : GuardedExit cfg key http
      { events := [.responseNotCached key.text r.status], runs := [http] } (.ok (.executed r))
  /-- The handler ran and its response could not be recorded. -/
  | unrecorded (e : Store.Error) (r : Http.Response) : GuardedExit cfg key http
      { events := [.storeFailure .idempotency e.message true], runs := [http],
        written := [.error e] } (.ok (.executed r))

/-- The ways out of the execution of a request. -/
inductive Exit (cfg : Config) (request : Request) (http : Http.Request) :
    Tally → Result → Prop where
  /-- The request is not guarded. -/
  | plain (r : Http.Response)
      (h : request.token = none ∨ cfg.appliesTo request.method = false) :
      Exit cfg request http { runs := [http] } (.ok (.bypassed r))
  /-- The token of the request is invalid. -/
  | invalid (token : String) (fault : TokenFault) (htoken : request.token = some token)
      (happlies : cfg.appliesTo request.method = true) (hfault : validateToken token = some fault) :
      Exit cfg request http { events := [.invalidKey fault.message] } (.error (.invalidKey fault))
  /-- The request is executed under its key. -/
  | guarded (token : String) (T : Tally) (result : Result) (htoken : request.token = some token)
      (happlies : cfg.appliesTo request.method = true) (hvalid : validateToken token = none)
      (h : GuardedExit cfg (cfg.scheme.key token request.method request.path request.body) http
        T result) :
      Exit cfg request http T result

/-- Whether a result is the response of a run of the handler. -/
def ranHandler : Result → Bool
  | .ok (.bypassed _) => true
  | .ok (.executed _) => true
  | _ => false

/-- The handler ran for the request if the exit says so, and for no other. -/
theorem GuardedExit.runs_eq {cfg : Config} {key : OperationKey} {http : Http.Request} {T : Tally}
    {result : Result} (h : GuardedExit cfg key http T result) :
    T.runs = if ranHandler result then [http] else [] := by
  cases h <;> rfl

/-- The handler runs once where the result is a response of it, and else never. -/
theorem Exit.runs_eq {cfg : Config} {request : Request} {http : Http.Request} {T : Tally}
    {result : Result} (h : Exit cfg request http T result) :
    T.runs = if ranHandler result then [http] else [] := by
  cases h with
  | plain => rfl
  | invalid => rfl
  | guarded _ _ _ _ _ _ h => exact h.runs_eq

/-! ## The steps of an execution -/

section

variable {cfg : Config} {key : OperationKey} {handler : Handler} {α : Type}
  {ends : List Note → α → Prop} {past : List Note}

/-- A look-up adds its failure, if it fails. -/
theorem lookup_tallied {f : Except Store.Error (Option Record) → Program α}
    (hfound : ∀ newer found, tally cfg newer = tally cfg past →
      Keeps handler (.ending ends) newer (f (.ok found)))
    (hfailed : ∀ newer error, tally cfg newer = (tally cfg past).fail error →
      Keeps handler (.ending ends) newer (f (.error error))) :
    Keeps handler (.ending ends) past (lookup cfg key >>= f) := by
  rw [lookup_bind]
  intro now
  refine ⟨trivial, fun answer => ⟨trivial, fun result _ => ?_⟩⟩
  have htold := tally_told cfg (.read now :: past) (.get key.text) answer result
  cases result with
  | error error => exact hfailed _ error htold
  | ok a =>
      have hnoted : (tally cfg (.read now :: past)).note cfg (.told (.get key.text) (.ok a)) =
          match textOnly? a with
          | some stored => (tally cfg past).fail (cfg.unreadable stored)
          | none => tally cfg past := rfl
      show Keeps handler (.ending ends) _ (f (cfg.found now a))
      unfold Config.found
      cases hrecord : recordOf now a with
      | error stored =>
          rw [(textOnly?_eq_some now a stored).2 hrecord] at hnoted
          exact hfailed _ _ (htold.trans hnoted)
      | ok found =>
          have hnone : textOnly? a = none := by
            rw [Option.eq_none_iff_forall_ne_some]
            intro stored hstored
            rw [(textOnly?_eq_some now a stored).1 hstored] at hrecord
            simp at hrecord
          rw [hnone] at hnoted
          exact hfound _ found (htold.trans hnoted)

/-- An attempt to take the lock adds that it was taken, or its failure. -/
theorem acquire_tallied {f : Except Store.Error (Option Token) → Program α}
    (htook : ∀ newer token, tally cfg newer = tally cfg past →
      Keeps handler (.ending ends) newer (f (.ok (some token))))
    (hlost : ∀ newer, tally cfg newer = (tally cfg past).lose →
      Keeps handler (.ending ends) newer (f (.ok none)))
    (hfailed : ∀ newer error, tally cfg newer = (tally cfg past).fail error →
      Keeps handler (.ending ends) newer (f (.error error))) :
    Keeps handler (.ending ends) past (acquire cfg key >>= f) := by
  rw [acquire_bind]
  refine ⟨trivial, fun answer => ⟨trivial, fun result _ => ?_⟩⟩
  have htold := tally_told cfg past (.acquireLock key.lock cfg.lockTtl) answer result
  cases result with
  | error error => exact hfailed _ error htold
  | ok a =>
      simp only [Except.map]
      cases htoken : tokenOf a with
      | none => exact hlost _ (htold.trans (if_pos (by rw [htoken]; rfl)))
      | some token => exact htook _ token (htold.trans (if_neg (by rw [htoken]; exact nofun)))

/-- A release adds nothing, even if it fails. -/
theorem release_tallied {token : Token} {f : Unit → Program α}
    (hnext : ∀ newer, tally cfg newer = tally cfg past → Keeps handler (.ending ends) newer (f ())) :
    Keeps handler (.ending ends) past (release cfg key token >>= f) := by
  rw [release_bind]
  refine ⟨trivial, trivial, fun answer => ⟨trivial, fun result _ => ?_⟩⟩
  exact hnext _ (tally_told cfg (.unheld :: past) (.releaseLock key.lock token) answer result)

/-- A response is passed through, or written; either is reported. -/
theorem capture_tallied {response : Http.Response} {f : Http.Response → Program α}
    (hpassed : ∀ newer (given : Http.Response),
      tally cfg newer = (tally cfg past).report (.responseNotCached key.text given.status) →
      Keeps handler (.ending ends) newer (f given))
    (hwrote : ∀ newer (given : Http.Response) stored,
      tally cfg newer = ((tally cfg past).write stored).report (recordingEvent key given.status stored) →
      Keeps handler (.ending ends) newer (f given)) :
    Keeps handler (.ending ends) past (capture cfg key response >>= f) := by
  rcases capture_eq cfg key response with ⟨_, body, _, hcapture⟩ | ⟨bytes, _, hcapture⟩
  · rw [hcapture]
    exact ⟨trivial, hpassed _ { response with body := body } rfl⟩
  · rw [hcapture]
    intro now
    refine ⟨trivial, fun answer => ⟨trivial, fun result _ => ⟨trivial, ?_⟩⟩⟩
    refine hwrote _ { response with body := .ofBytes bytes } (result.map fun _ => ()) ?_
    rw [tally_cons, tally_told]
    rfl

end

/-! ## The ends of an execution -/

/-- To take one of the ways out of an execution under the key. -/
def exits (cfg : Config) (key : OperationKey) (http : Http.Request) (past : List Note)
    (result : Result) : Prop :=
  GuardedExit cfg key http (tally cfg past) result

section

variable {cfg : Config} {key : OperationKey} {http : Http.Request} {handler : Handler}
  {past : List Note}

/-- An exit that accounts for the tally accounts for what happened. -/
theorem exits_of_tally {T : Tally} {result : Result} (h : tally cfg past = T)
    (hexit : GuardedExit cfg key http T result) : exits cfg key http past result := by
  unfold exits
  rw [h]
  exact hexit

/-- After a failure before the handler ran, the policy decides. -/
theorem onStoreFailure_exits {error : Store.Error} (hpast : tally cfg past = { failures := [error] }) :
    Keeps handler (.ending (exits cfg key http)) past (onStoreFailure cfg error (served http)) := by
  rw [onStoreFailure_eq]
  refine ⟨trivial, ?_⟩
  cases hpolicy : cfg.failurePolicy with
  | failOpen =>
      refine ⟨trivial, trivial, fun response _ => ?_⟩
      exact exits_of_tally (by rw [tally_cons, tally_cons, tally_cons, hpast]; rfl)
        (.letThrough error response hpolicy)
  | failClosed =>
      exact exits_of_tally (by rw [tally_cons, hpast]; rfl) (.refused error hpolicy)

/-- A run of the handler under the lock is accounted for. -/
theorem runHandler_exits (hpast : tally cfg past = {}) (token : Token) :
    Keeps handler (.ending (exits cfg key http)) past (runHandler cfg key (served http) token) := by
  rw [runHandler_eq]
  refine ⟨trivial, trivial, fun response _ => ?_⟩
  have hran : tally cfg (.finished (some response) :: .began http :: past) = { runs := [http] } := by
    rw [tally_cons, tally_cons, hpast]
    rfl
  apply capture_tallied
  · intro newer given hpassed
    refine release_tallied fun later hlater => ?_
    rw [hpassed, hran] at hlater
    exact exits_of_tally hlater (.passedThrough given)
  · intro newer given stored hwrote
    refine release_tallied fun later hlater => ?_
    rw [hwrote, hran] at hlater
    cases stored with
    | ok stored => exact exits_of_tally hlater (.recorded given)
    | error error => exact exits_of_tally hlater (.unrecorded error given)

/-- So is all that is done under the lock. -/
theorem underLock_exits (hpast : tally cfg past = {}) (token : Token) :
    Keeps handler (.ending (exits cfg key http)) past (underLock cfg key (served http) token) := by
  have hheld : tally cfg (.held (.releaseLock key.lock token) :: past) = {} := hpast
  refine ⟨trivial, ?_⟩
  apply lookup_tallied
  · intro newer found hfound
    rw [hheld] at hfound
    cases found with
    | none => exact runHandler_exits hfound token
    | some record =>
        refine release_tallied fun later hlater => ⟨trivial, ?_⟩
        rw [hfound] at hlater
        exact exits_of_tally (by rw [tally_cons, hlater]; rfl) (.hit record.toResponse)
  · intro newer error hfailed
    rw [hheld] at hfailed
    refine release_tallied fun later hlater => onStoreFailure_exits ?_
    rw [hlater, hfailed]
    rfl

/-- Who lost the lock waits once, and never runs the handler. -/
theorem awaitHolder_exits (hpast : tally cfg past = { lost := true }) :
    Keeps handler (.ending (exits cfg key http)) past (awaitHolder cfg key) := by
  rw [awaitHolder_eq]
  have hwaited : tally cfg (.resumed :: .paused cfg.contentionWait ::
      .emitted (.lockContention key.text) :: past) =
      { events := [.lockContention key.text], lost := true } := by
    rw [tally_cons, tally_cons, tally_cons, hpast]
    rfl
  refine ⟨trivial, trivial, trivial, ?_⟩
  apply lookup_tallied
  · intro newer found hfound
    rw [hwaited] at hfound
    cases found with
    | none =>
        exact ⟨trivial, exits_of_tally (by rw [tally_cons, hfound]; rfl) .conflict⟩
    | some record =>
        exact ⟨trivial, exits_of_tally (by rw [tally_cons, hfound]; rfl)
          (.hitAfterWait record.toResponse)⟩
  · intro newer error hfailed
    rw [hwaited] at hfailed
    exact ⟨trivial, exits_of_tally (by rw [tally_cons, hfailed]; rfl) (.failedAfterWait error)⟩

/-- An execution under a key takes one of the ways out. -/
theorem guarded_exits (hpast : tally cfg past = {}) :
    Keeps handler (.ending (exits cfg key http)) past (guarded cfg key (served http)) := by
  apply lookup_tallied
  · intro newer found hfound
    rw [hpast] at hfound
    cases found with
    | some record =>
        exact ⟨trivial, exits_of_tally (by rw [tally_cons, hfound]; rfl) (.hit record.toResponse)⟩
    | none =>
        apply acquire_tallied
        · intro later token htook
          exact underLock_exits (htook.trans hfound) token
        · intro later hlost
          rw [hfound] at hlost
          exact awaitHolder_exits hlost
        · intro later error hfailed
          rw [hfound] at hfailed
          exact onStoreFailure_exits hfailed
  · intro newer error hfailed
    rw [hpast] at hfailed
    exact onStoreFailure_exits hfailed

end

/-! ## Every caller -/

namespace Caller

/-- What is said of a caller with these notes that came to the result. -/
structure Accounts (c : Caller) (notes : List Note) (result : Result) : Prop where
  /-- The handler ran once where the result is a response of it, and else never. -/
  runs : handedOver notes = if ranHandler result then [c.http] else []
  /-- A caller without a key calls no store. -/
  quiet : c.key? = none → callsOf notes = []
  /-- The caller took one of the ways out. -/
  exit : Exit c.config c.request c.http (tally c.config notes) result

/-- To call no store without a key, and to take one of the ways out. -/
def exitRules (c : Caller) : Pact Result where
  may _ n := c.key? = none → n.call? = none
  ends past result := Exit c.config c.request c.http (tally c.config past) result

/-- Every caller takes one of the ways out, and calls no store without a key. -/
theorem keeps_exits (c : Caller) : KeepsFromStart c.handler c.exitRules c.program := by
  refine ⟨fun _ => rfl, ?_⟩
  have hbypass (h : c.request.token = none ∨ c.config.appliesTo c.request.method = false) :
      Keeps c.handler c.exitRules [.resumed] (bypass (served c.http)) :=
    ⟨fun _ => rfl, fun _ => rfl, fun response _ => .plain response h⟩
  unfold Caller.program execute
  cases htoken : c.request.token with
  | none => exact hbypass (Or.inl htoken)
  | some token =>
      dsimp only
      cases happlies : c.config.appliesTo c.request.method with
      | false => exact hbypass (Or.inr happlies)
      | true =>
          cases hfault : validateToken token with
          | some fault =>
              exact ⟨fun _ => rfl, .invalid token fault htoken happlies hfault⟩
          | none =>
              have hkey : c.key? ≠ none := by
                unfold Caller.key?
                simp [htoken, happlies, hfault]
              -- With a key any call is allowed, and only the end matters.
              refine Keeps.mono (fun past n _ hnone => absurd hnone hkey) ?_ (guarded_exits rfl)
              intro past result hexit
              exact .guarded token _ result htoken happlies hfault hexit

/-- Whatever the caller was told on its way to a result, it is accounted for. -/
theorem accounts_of_path {c : Caller} {notes : List Note} {result : Result} {owed : Option Call}
    (h : Path c.handler ⟨.resting c.program, none⟩ notes ⟨.ended result, owed⟩) :
    c.Accounts notes result := by
  rcases conduct_of_path c.keeps_exits h with ⟨hlawful, older, hnotes, hexit⟩
  have hexits : Exit c.config c.request c.http (tally c.config notes) result := by
    rw [hnotes]
    exact hexit
  refine ⟨?_, ?_, hexits⟩
  · -- At most one request was handed over, so their order does not matter.
    have hruns := (runs_tally c.config notes).symm.trans hexits.runs_eq
    rw [← List.reverse_reverse (handedOver notes), hruns]
    cases ranHandler result <;> rfl
  · intro hnone
    refine List.filterMap_eq_nil_iff.2 fun n hn => ?_
    rcases List.append_of_mem hn with ⟨newer, past, rfl⟩
    have hmay := (hlawful n past (List.suffix_append _ _)).2
    cases n with
    | sent call => exact hmay trivial hnone
    | quit owed => exact hmay trivial hnone
    | _ => rfl

end Caller

/-- Every exit is accounted for.  On every path of a caller to a result, whatever the
store answers, fails or is too slow to answer, and in every run in which the caller
comes to a result: the handler ran exactly once if the result is its response, and
otherwise never; without a key no store was called; and the events are those of the
one way out that the caller took. -/
theorem every_exit_accounted (c : Caller) :
    (∀ notes result owed,
      Path c.handler ⟨.resting c.program, none⟩ notes ⟨.ended result, owed⟩ →
      c.Accounts notes result) ∧
    ∀ (s : State Result) (happenings : List Happening) (i : Nat) (t : Run.Task Result)
      (result : Result) (time : Nat), (∀ t ∈ s.tasks, t.Fits) → s.tasks[i]? = some c.task →
      (Chronicle.of s happenings).state.tasks[i]? = some t →
      t.wait = .nothing (.result result) time →
      c.Accounts (own i (Chronicle.of s happenings).log) result := by
  refine ⟨fun notes result owed hpath => Caller.accounts_of_path hpath, ?_⟩
  intro s happenings i t result time hfits htask ht hwait
  rcases (chronicle_path hfits happenings).path i c.task t htask ht with ⟨_, _, hpath⟩
  rw [Task.stage_of_result hwait] at hpath
  exact Caller.accounts_of_path hpath

/-! ## A payer that is overtaken -/

/-- The error of a look-up that took too long. -/
def tooSlow (cfg : Config) : Store.Error :=
  .timeout .get cfg.storeTimeout

/-- The notes of a caller that found no record and then the lock taken, and whose
look-up after the wait took too long. -/
def overtakenNotes (cfg : Config) (key : OperationKey) : List Note :=
  .ended :: .emitted (.storeFailure .idempotency (tooSlow cfg).message false) ::
    .told (.get key.text) (.error (tooSlow cfg)) :: .lost (.get key.text) ::
    .sent (.get key.text) :: .read .epoch :: .resumed :: .paused cfg.contentionWait ::
    .emitted (.lockContention key.text) ::
    .told (.acquireLock key.lock cfg.lockTtl) (.ok (.token none)) ::
    .done (.acquireLock key.lock cfg.lockTtl) (.token none) ::
    .sent (.acquireLock key.lock cfg.lockTtl) :: lookedUp key .epoch (.value none) [.resumed]

/-- Such a caller ends with the failure. -/
theorem overtaken_path (cfg : Config) (key : OperationKey) (handler : Handler)
    (run : Program Http.Response) :
    Path handler ⟨.resting (guarded cfg key run), none⟩ (overtakenNotes cfg key)
      ⟨.ended (.error (.store (tooSlow cfg))), none⟩ := by
  have hresumed : Path handler ⟨.resting (guarded cfg key run), none⟩ [.resumed]
      ⟨.going (lookup cfg key >>= afterLookup cfg key run), none⟩ := Path.single .resumed
  have hlooked : Path handler ⟨.resting (guarded cfg key run), none⟩
      (lookedUp key .epoch (.value none) [.resumed])
      ⟨.going (acquire cfg key >>= afterAcquire cfg key run), none⟩ :=
    hresumed.append (lookup_path .epoch (.value none))
  rw [acquire_bind] at hlooked
  have htaken : Reports (some (.token none)) (.ok (.token none)) := rfl
  have hlost := ((hlooked.step .sent).step .done).step (.told htaken)
  have hwaited := ((hlost.step .emitted).step .paused).step .resumed
  have hlate : Reports none (.error (tooSlow cfg)) := trivial
  have hread := hwaited.step (.read (t := .epoch))
  have hfailed := ((hread.step .sent).step .lost).step (.told hlate)
  exact (hfailed.step .emitted).step .ended

/-- A payer that would rather pay twice than not at all. -/
def carefreePayer : Caller :=
  { promptPayer with config := { Config.standard with failurePolicy := .failOpen } }

/-- The key of the payer does not depend on its policy. -/
theorem carefreePayer_key : carefreePayer.key? = some orderKey := payer_key

/-- A payer that is overtaken does not pay, whatever its policy, and the second of two
payers gets a replay: both are accounted for. -/
theorem overtaken_accounted :
    carefreePayer.Accounts (overtakenNotes carefreePayer.config orderKey)
      (.error (.store (tooSlow carefreePayer.config))) ∧
    promptPayer.Accounts (own 1 twoPayments.log) (.ok (.replayed receipt.toResponse)) := by
  have hpath := overtaken_path carefreePayer.config orderKey carefreePayer.handler
    (served carefreePayer.http)
  rw [← Caller.program_of_key carefreePayer_key] at hpath
  rcases twoPayments_ended with ⟨_, t, time, ht, hwait⟩
  exact ⟨(every_exit_accounted carefreePayer).1 _ _ _ hpath,
    (every_exit_accounted promptPayer).2 _ _ 1 t _ time (begins _ _ _).fits rfl ht hwait⟩

-- The failure is reported as one after which nothing goes on, under either policy.
example : (tally .standard (overtakenNotes .standard orderKey)).events =
    [.lockContention orderKey.text,
      .storeFailure .idempotency (tooSlow .standard).message false] := rfl

end Turnstile.Once

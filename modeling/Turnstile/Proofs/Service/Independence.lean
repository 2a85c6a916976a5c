import Turnstile.Proofs.Limiter.Conduct
import Turnstile.Proofs.Limiter.Namespaces
import Turnstile.Proofs.Once.Provenance
import Turnstile.Proofs.Run.Separation

/-!
# Limiters and coordinators that share a store

A limiter for all requests, a limiter for one endpoint, and coordinators share one
local store.  Whatever texts the subjects have, no two of them are counted under one
key, no window stands under the key of a record, and no limiter takes a lock.  So what
a limiter answers for one subject is what it would answer if nobody asked for another
subject, nobody asked the other limiter, and no request were executed, and what becomes
of a request is what would become of it if nobody asked a limiter.

Main results:

- Theorem `keyFor_injective`: no two subjects are counted under one key.
- Theorem `execute_matches`: a request is executed alike whatever tokens its locks are
  held under.
- Theorem `answers_stand_alone`: the answers of either part do not depend on the
  other.
-/

namespace Turnstile.Sharing

open Run
open Store (Answer Call Sight Token)

/-! ## Who shares the store -/

/-- The two limiters. -/
inductive Gate where
  /-- The limiter for all requests. -/
  | main
  /-- The limiter for the endpoint. -/
  | endpoint
  deriving DecidableEq

/-- The settings of the two limiters. -/
structure Limiters where
  main : LimiterConfig
  /-- The name of the endpoint. -/
  name : String
  endpoint : LimiterConfig

/-- One of the two limiters. -/
def Limiters.limiter (l : Limiters) : Gate → Limiter
  | .main => .standard l.main
  | .endpoint => ⟨l.endpoint, .ofEndpoint l.name⟩

/-- What a limiter is asked about a subject. -/
inductive Query where
  /-- Asks for room. -/
  | allow
  /-- Asks for room under a limit of one's own. -/
  | allowWithLimit (limit : Nat)
  /-- Counts the requests. -/
  | usage
  /-- Asks how much room is left. -/
  | remaining
  /-- Has the requests forgotten. -/
  | reset

/-- What somebody wants. -/
inductive Errand where
  | ask (gate : Gate) (subject : Subject) (query : Query)
  /-- Has a request executed at most once. -/
  | execute (config : Once.Config) (request : Once.Request) (http : Http.Request)

/-- What somebody is told. -/
inductive Reply where
  | decided (result : Except Store.Error Decision)
  | counted (result : Except Store.Error Nat)
  | forgotten (result : Except Store.Error Unit)
  | executed (result : Once.Result)

/-- A query as a program. -/
def Query.program (l : Limiter) (subject : Subject) : Query → Program Reply
  | .allow => l.allow subject >>= fun result => pure (.decided result)
  | .allowWithLimit limit => l.allowWithLimit subject limit >>= fun result => pure (.decided result)
  | .usage => l.usage subject >>= fun result => pure (.counted result)
  | .remaining => l.remaining subject >>= fun result => pure (.counted result)
  | .reset => l.reset subject >>= fun result => pure (.forgotten result)

namespace Errand

/-- An errand as a program. -/
def program (l : Limiters) : Errand → Program Reply
  | .ask gate subject query => query.program (l.limiter gate) subject
  | .execute config request http =>
      Once.execute config request (Once.served http) >>= fun result => pure (.executed result)

/-- Whether the errand is to ask a limiter about a subject. -/
def asksAbout (gate : Gate) (subject : Subject) : Errand → Bool
  | .ask gate' subject' _ => gate' = gate ∧ subject' = subject
  | .execute _ _ _ => false

/-- Whether the errand is to have a request executed. -/
def executes : Errand → Bool
  | .ask _ _ _ => false
  | .execute _ _ _ => true

end Errand

/-- Somebody who shares the store. -/
structure Client where
  errand : Errand
  handler : Handler
  /-- When the client starts, by the monotonic clock. -/
  time : Nat
  /-- When the client gives up, if it has not been answered by then. -/
  cancelAt : Option Nat

/-- The client as a task. -/
def Client.task (l : Limiters) (c : Client) : Run.Task Reply :=
  .start (c.errand.program l) c.handler c.time c.cancelAt

/-- A run of clients over one store without entries. -/
def begin (l : Limiters) (clocks : Clocks) (plan : Plan) (clients : List Client) : State Reply :=
  ⟨.start clocks plan, clients.map (Client.task l), []⟩

/-- What is left of a run when nobody asks but those who ask one limiter about one
subject, and nothing is purged. -/
def onlyAbout (clients : List Client) (gate : Gate) (subject : Subject)
    (happenings : List Happening) : List Happening :=
  happenings.filter
    (·.stays (fun i => clients[i]?.any (·.errand.asksAbout gate subject)) false false)

/-- What is left of a run when nobody asks a limiter. -/
def onlyExecuted (clients : List Client) (happenings : List Happening) : List Happening :=
  happenings.filter (·.stays (fun i => clients[i]?.any (·.errand.executes)) true true)

/-! ## Keys -/

/-- No two subjects are counted under one key. -/
theorem keyFor_injective (l : Limiters) {gate gate' : Gate} {subject subject' : Subject}
    (h : (l.limiter gate).keyFor subject = (l.limiter gate').keyFor subject') :
    gate = gate' ∧ subject = subject' := by
  cases gate with
  | main =>
      cases gate' with
      | main => exact ⟨rfl, Namespace.key_injective _ h⟩
      | endpoint => exact absurd h (Namespace.standard_ne_ofEndpoint _ _ _)
  | endpoint =>
      cases gate' with
      | main => exact absurd h.symm (Namespace.standard_ne_ofEndpoint _ _ _)
      | endpoint => exact ⟨rfl, Namespace.key_injective _ h⟩

/-- Whether a key is one of a record. -/
def isRecordKey (key : String) : Bool :=
  Once.keyPrefix.toList.isPrefixOf key.toList

/-- The key of an operation is told apart by its prefix. -/
theorem isRecordKey_of_key (scheme : KeyScheme) (token : String) (method : Http.Method)
    (path : String) (body : Option Bytes) :
    isRecordKey (scheme.key token method path body).text = true := by
  simp [isRecordKey, KeyScheme.key, Once.keyPrefix]

/-- No window stands under the key of a record. -/
theorem isRecordKey_keyFor (l : Limiters) (gate : Gate) (subject : Subject) :
    isRecordKey ((l.limiter gate).keyFor subject) = false := by
  have hname : ∃ rest, (l.limiter gate).ns.text = "rate_limit:" ++ rest := by
    cases gate with
    | main => exact ⟨"", rfl⟩
    | endpoint =>
        have hstart : "rate_limit:endpoint:" = "rate_limit:" ++ "endpoint:" := by decide
        refine ⟨"endpoint:" ++ l.name ++ ":", ?_⟩
        show "rate_limit:endpoint:" ++ l.name ++ ":" = _
        rw [hstart, String.append_assoc, String.append_assoc, String.append_assoc]
  have hbegins : ∀ rest, isRecordKey ("rate_limit:" ++ rest) = false := by
    intro rest
    simp [isRecordKey, Once.keyPrefix, List.isPrefixOf]
  rcases hname with ⟨rest, hname⟩
  unfold Limiter.keyFor
  cases subject with
  | address text =>
      rw [Namespace.key, hname, String.append_assoc, String.append_assoc]
      exact hbegins _
  | identity text =>
      rw [Namespace.key, hname, String.append_assoc, String.append_assoc]
      exact hbegins _

/-! ## Asking -/

section

variable {b : Border} {f : Token → Token} {α : Type}

/-- Another token makes no difference to a limiter. -/
theorem outcomeOf_rename (f : Token → Token) (answer : Answer) :
    Limiter.outcomeOf (answer.rename f) = Limiter.outcomeOf answer := by
  cases answer <;> rfl

/-- What a count answers holds no token. -/
theorem countOf_rename (f : Token → Token) (answer : Answer) :
    Limiter.countOf (answer.rename f) = Limiter.countOf answer := by
  cases answer <;> rfl

/-- Asking for room makes one call, and then none. -/
theorem allowWithLimit_eq (l : Limiter) (subject : Subject) (limit : Nat) :
    l.allowWithLimit subject limit = .now fun now =>
      match l.config.window.add? l.config.safetyMargin with
      | none => .crash
      | some ttl => .call (.recordInWindow (l.keyFor subject) now.stamp l.config.window limit ttl)
          l.config.storeTimeout fun answer =>
            match answer with
            | .error error => l.onStoreFailure limit now error
            | .ok answer => l.decide subject limit now (Limiter.outcomeOf answer) >>= fun decision =>
                pure (.ok decision) := rfl

/-- A charge of a window that is kept goes the same way on both sides. -/
theorem allowWithLimit_matches (l : Limiter) (subject : Subject) (limit : Nat)
    (hrecord : ∀ now window limit ttl,
      b.kept (.recordInWindow (l.keyFor subject) now window limit ttl)) :
    Matches b f (l.allowWithLimit subject limit) (l.allowWithLimit subject limit) := by
  rw [allowWithLimit_eq]
  refine ⟨_, rfl, fun now => ?_⟩
  cases l.config.window.add? l.config.safetyMargin with
  | none => exact rfl
  | some ttl =>
      refine ⟨hrecord _ _ _ _, _, rfl, fun result => ?_⟩
      cases result with
      | error error =>
          rcases l.onStoreFailure_eq limit now error with ⟨event, result, heq⟩
          simp only [Except.map, heq]
          exact ⟨_, rfl, rfl⟩
      | ok answer =>
          simp only [Except.map, outcomeOf_rename]
          rcases l.decide_eq subject limit now (Limiter.outcomeOf answer) with
            ⟨decision, heq⟩ | ⟨event, decision, heq⟩
          · rw [heq]
            exact rfl
          · rw [heq]
            exact ⟨_, rfl, rfl⟩

/-- A charge of a window that is not kept goes on aside. -/
theorem allowWithLimit_aside (l : Limiter) (subject : Subject) (limit : Nat)
    (hrecord : ∀ now window limit ttl,
      b.others (.recordInWindow (l.keyFor subject) now window limit ttl)) :
    Aside b (l.allowWithLimit subject limit) := by
  rw [allowWithLimit_eq]
  intro now
  cases l.config.window.add? l.config.safetyMargin with
  | none => exact trivial
  | some ttl =>
      refine ⟨hrecord _ _ _ _, fun result => ?_⟩
      cases result with
      | error error =>
          rcases l.onStoreFailure_eq limit now error with ⟨event, result, heq⟩
          simp only [heq]
          exact trivial
      | ok answer =>
          rcases l.decide_eq subject limit now (Limiter.outcomeOf answer) with
            ⟨decision, heq⟩ | ⟨event, decision, heq⟩
          · simp only [heq]
            exact trivial
          · simp only [heq]
            exact trivial

/-- What those who ask about a subject do is the same with other tokens. -/
theorem Query.matches {l : Limiter} {subject : Subject}
    (hrecord : ∀ now window limit ttl,
      b.kept (.recordInWindow (l.keyFor subject) now window limit ttl))
    (hcount : ∀ now window, b.kept (.countInWindow (l.keyFor subject) now window))
    (hdelete : b.kept (.delete (l.keyFor subject))) (query : Query) :
    Matches b f (query.program l subject) (query.program l subject) := by
  cases query with
  | allow => exact (allowWithLimit_matches l subject _ hrecord).bind fun _ => rfl
  | allowWithLimit limit => exact (allowWithLimit_matches l subject limit hrecord).bind fun _ => rfl
  | usage =>
      refine ⟨_, rfl, fun now => ⟨hcount _ _, _, rfl, fun result => ?_⟩⟩
      cases result with
      | error error => exact rfl
      | ok answer =>
          simp only [Except.map, Program.bind, countOf_rename]
          exact rfl
  | remaining =>
      refine ⟨_, rfl, fun now => ⟨hcount _ _, _, rfl, fun result => ?_⟩⟩
      cases result with
      | error error => exact rfl
      | ok answer =>
          simp only [Except.map, Program.bind, countOf_rename]
          exact rfl
  | reset =>
      refine ⟨hdelete, _, rfl, fun result => ?_⟩
      cases result with
      | error error => exact rfl
      | ok answer => exact rfl

/-- Those who ask about a subject keep to the others. -/
theorem Query.aside {l : Limiter} {subject : Subject}
    (hrecord : ∀ now window limit ttl,
      b.others (.recordInWindow (l.keyFor subject) now window limit ttl))
    (hcount : ∀ now window, b.others (.countInWindow (l.keyFor subject) now window))
    (hdelete : b.others (.delete (l.keyFor subject))) (query : Query) :
    Aside b (query.program l subject) := by
  cases query with
  | allow => exact (allowWithLimit_aside l subject _ hrecord).bind fun _ => trivial
  | allowWithLimit limit => exact (allowWithLimit_aside l subject limit hrecord).bind fun _ => trivial
  | usage => exact fun now => ⟨hcount _ _, fun result => trivial⟩
  | remaining => exact fun now => ⟨hcount _ _, fun result => trivial⟩
  | reset => exact ⟨hdelete, fun result => trivial⟩

end

/-! ## Executing -/

section

variable {b : Border} {f : Token → Token} {α : Type}

/-- Those who execute requests serve, and their calls are those of executions. -/
structure Serves (b : Border) (key : OperationKey) : Prop where
  serving : b.serving = true
  get : b.kept (.get key.text)
  set : ∀ value ttl, b.kept (.set key.text value ttl)
  acquire : ∀ ttl, b.kept (.acquireLock key.lock ttl)
  release : ∀ token, b.kept (.releaseLock key.lock token)

/-- Another token makes no difference to a look-up. -/
theorem recordOf_rename (f : Token → Token) (now : Timestamp) (answer : Answer) :
    Once.recordOf now (answer.rename f) = Once.recordOf now answer := by
  cases answer <;> rfl

/-- The token that an answer gives is renamed with it. -/
theorem tokenOf_rename (f : Token → Token) (answer : Answer) :
    Once.tokenOf (answer.rename f) = (Once.tokenOf answer).map f := by
  cases answer <;> rfl

variable {config : Once.Config} {key : OperationKey} {http : Http.Request}

/-- A look-up goes the same way on both sides, up to what follows it. -/
theorem lookup_matches (h : Serves b key)
    {next next' : Except Store.Error (Option Record) → Program α}
    (hnext : ∀ found, Matches b f (next found) (next' found)) :
    Matches b f (Once.lookup config key >>= next) (Once.lookup config key >>= next') := by
  rw [Once.lookup_bind, Once.lookup_bind]
  refine ⟨_, rfl, fun now => ⟨h.get, _, rfl, fun result => ?_⟩⟩
  cases result with
  | error error => exact hnext _
  | ok answer =>
      simp only [Except.map, Except.bind, Once.Config.found, recordOf_rename]
      exact hnext _

/-- So does a release, of the tokens that belong together. -/
theorem release_matches (h : Serves b key) (token : Token) {next next' : Unit → Program α}
    (hnext : Matches b f (next ()) (next' ())) :
    Matches b f (Once.release config key token >>= next)
      (Once.release config key (f token) >>= next') := by
  rw [Once.release_bind, Once.release_bind]
  exact ⟨_, rfl, h.release token, _, rfl, fun _ => hnext⟩

/-- So does a replay, which asks the store for nothing. -/
theorem replay_matches (key : OperationKey) (record : Record) :
    Matches b f (Once.replay key record) (Once.replay key record) :=
  ⟨_, rfl, rfl⟩

/-- So does a run without a guard. -/
theorem bypass_matches (h : b.serving = true) (http : Http.Request) :
    Matches b f (Once.bypass (Once.served http)) (Once.bypass (Once.served http)) :=
  ⟨h, _, rfl, fun _ => rfl⟩

/-- So does what follows a failure of the store. -/
theorem storeFailure_matches (h : b.serving = true) (error : Store.Error) :
    Matches b f (Once.onStoreFailure config error (Once.served http))
      (Once.onStoreFailure config error (Once.served http)) := by
  refine ⟨_, rfl, ?_⟩
  by_cases hopen : config.failurePolicy = .failOpen
  · simp only [hopen, if_true]
    exact bypass_matches h http
  · simp only [hopen, if_false]
    exact rfl

/-- So does recording a response. -/
theorem capture_matches (h : Serves b key) (response : Http.Response) :
    Matches b f (Once.capture config key response) (Once.capture config key response) := by
  rcases Once.capture_eq config key response with ⟨_, body, _, heq⟩ | ⟨bytes, _, heq⟩
  · rw [heq]
    exact ⟨_, rfl, rfl⟩
  · rw [heq]
    refine ⟨_, rfl, fun now => ⟨h.set _ _, _, rfl, fun result => ?_⟩⟩
    cases result with
    | error error => exact ⟨_, rfl, rfl⟩
    | ok answer => exact ⟨_, rfl, rfl⟩

/-- So does a run of the handler under the lock. -/
theorem runHandler_matches (h : Serves b key) (token : Token) :
    Matches b f (Once.runHandler config key (Once.served http) token)
      (Once.runHandler config key (Once.served http) (f token)) := by
  refine ⟨h.serving, _, rfl, fun response => ?_⟩
  exact (capture_matches h response).bind fun _ => release_matches h token rfl

/-- So does all that is done under the lock. -/
theorem underLock_matches (h : Serves b key) (token : Token) :
    Matches b f (Once.underLock config key (Once.served http) token)
      (Once.underLock config key (Once.served http) (f token)) := by
  refine ⟨⟨h.serving, h.release token⟩, _, rfl, ?_⟩
  apply lookup_matches h
  intro found
  cases found with
  | error error => exact release_matches h token (storeFailure_matches h.serving error)
  | ok found =>
      cases found with
      | some record => exact release_matches h token (replay_matches key record)
      | none => exact runHandler_matches h token

/-- So does waiting for the holder of the lock. -/
theorem awaitHolder_matches (h : Serves b key) :
    Matches b f (Once.awaitHolder config key) (Once.awaitHolder config key) := by
  refine ⟨_, rfl, _, rfl, lookup_matches h fun found => ?_⟩
  cases found with
  | error error => exact ⟨_, rfl, rfl⟩
  | ok found =>
      cases found with
      | some record => exact replay_matches key record
      | none => exact ⟨_, rfl, rfl⟩

/-- What is done under the key of an operation is the same with other tokens. -/
theorem guarded_matches (h : Serves b key) :
    Matches b f (Once.guarded config key (Once.served http))
      (Once.guarded config key (Once.served http)) := by
  apply lookup_matches h
  intro found
  cases found with
  | error error => exact storeFailure_matches h.serving error
  | ok found =>
      cases found with
      | some record => exact replay_matches key record
      | none =>
          show Matches b f (Once.acquire config key >>= Once.afterAcquire config key (Once.served http))
            (Once.acquire config key >>= Once.afterAcquire config key (Once.served http))
          rw [Once.acquire_bind]
          refine ⟨h.acquire _, _, rfl, fun result => ?_⟩
          cases result with
          | error error => exact storeFailure_matches h.serving error
          | ok answer =>
              simp only [Except.map, tokenOf_rename]
              cases Once.tokenOf answer with
              | none => exact awaitHolder_matches h
              | some token => exact underLock_matches h token

/-- A request is executed alike whatever tokens its locks are held under. -/
theorem execute_matches {request : Once.Request} (hserving : b.serving = true)
    (h : ∀ token, Serves b (config.scheme.key token request.method request.path request.body)) :
    Matches b f (Once.execute config request (Once.served http))
      (Once.execute config request (Once.served http)) := by
  unfold Once.execute
  cases request.token with
  | none => exact bypass_matches hserving http
  | some token =>
      dsimp only
      by_cases happlies : config.appliesTo request.method = true
      · rw [if_pos happlies]
        cases Once.validateToken token with
        | some fault => exact ⟨_, rfl, rfl⟩
        | none => exact guarded_matches (h token)
      · rw [if_neg happlies]
        exact bypass_matches hserving http

/-- Whoever executes a request makes the calls of the operation. -/
theorem execute_makes {request : Once.Request} {run : Program Http.Response}
    {made owed : Call → Prop}
    (h : ∀ token, Once.Covers config
      (config.scheme.key token request.method request.path request.body) run made owed) :
    Makes made owed (Once.execute config request run) := by
  unfold Once.execute
  cases request.token with
  | none => exact Once.bypass_makes (h "")
  | some token =>
      dsimp only
      by_cases happlies : config.appliesTo request.method = true
      · rw [if_pos happlies]
        cases Once.validateToken token with
        | some fault => exact trivial
        | none => exact Once.guarded_makes (h token)
      · rw [if_neg happlies]
        exact Once.bypass_makes (h token)

end

/-! ## The border around a subject -/

/-- However many calls of a kind there were, the next one is treated alike. -/
def Uniform (plan : Plan) (operation : Store.Operation) : Prop :=
  ∀ n n', plan operation n = plan operation n'

/-- A call that a limiter makes for the window under a key. -/
def IsUnder (key : String) : Call → Prop
  | .recordInWindow key' _ _ _ _ => key' = key
  | .countInWindow key' _ _ => key' = key
  | .delete key' => key' = key
  | _ => False

/-- Those who ask about a subject see the window of the subject, and nothing else. -/
def around (key : String) : Border where
  sight := ⟨fun _ => false, fun _ => false, fun key' => decide (key' = key)⟩
  kept := IsUnder key
  others := Sight.Misses ⟨fun _ => false, fun _ => false, fun key' => decide (key' = key)⟩
  serving := false

/-- A plan that numbers these faults by what they are about is parted by the window. -/
theorem around_parts {plan : Plan} (hrecord : Uniform plan .recordInWindow)
    (hcount : Uniform plan .countInWindow) (hdelete : Uniform plan .delete) (key : String) :
    (around key).Parts plan := by
  refine ⟨fun call hkept => ?_, fun call hothers => hothers, fun call hkept => Or.inr ?_⟩
  · cases call with
    | recordInWindow key' stamp window limit ttl => exact decide_eq_true hkept
    | countInWindow key' stamp window => exact decide_eq_true hkept
    | delete key' => exact trivial
    | _ => exact hkept.elim
  · cases call with
    | recordInWindow key' stamp window limit ttl => exact hrecord
    | countInWindow key' stamp window => exact hcount
    | delete key' => exact hdelete
    | _ => exact hkept.elim

/-- Whoever asks for something else, or has a request executed, does not touch the window
of the subject. -/
theorem program_around (l : Limiters) {gate : Gate} {subject : Subject} {errand : Errand}
    (h : errand.asksAbout gate subject = false) :
    Aside (around ((l.limiter gate).keyFor subject)) (errand.program l) := by
  cases errand with
  | ask gate' subject' query =>
      have hne : (l.limiter gate').keyFor subject' ≠ (l.limiter gate).keyFor subject := by
        intro heq
        exact absurd (keyFor_injective l heq) (of_decide_eq_false h)
      have hunseen := decide_eq_false hne
      have hdelete : (around ((l.limiter gate).keyFor subject)).others
          (.delete ((l.limiter gate').keyFor subject')) := ⟨rfl, hunseen⟩
      exact query.aside (fun _ _ _ _ => hunseen) (fun _ _ => trivial) hdelete
  | execute config request http =>
      have hmakes : Makes (around ((l.limiter gate).keyFor subject)).others
          (around ((l.limiter gate).keyFor subject)).others
          (Once.execute config request (Once.served http)) :=
        execute_makes fun token => ⟨fun _ => trivial, trivial, fun _ _ => rfl, rfl, fun _ => rfl, fun _ => rfl⟩
      exact (hmakes.aside rfl).bind fun _ => trivial

/-- An errand about a window goes the same way on both sides of its border. -/
theorem program_about (l : Limiters) {gate : Gate} {subject : Subject} {errand : Errand}
    {f : Token → Token} (h : errand.asksAbout gate subject = true) :
    Matches (around ((l.limiter gate).keyFor subject)) f (errand.program l) (errand.program l) := by
  cases errand with
  | ask gate' subject' query =>
      rcases of_decide_eq_true h with ⟨rfl, rfl⟩
      exact query.matches (fun _ _ _ _ => rfl) (fun _ _ => rfl) rfl
  | execute config request http => exact nomatch h

/-! ## The border around executions -/

/-- A call of an execution: it reads or writes a record, or it is about a lock. -/
def IsOfExecution : Call → Prop
  | .get key => isRecordKey key = true
  | .set key _ _ => isRecordKey key = true
  | .acquireLock _ _ => True
  | .releaseLock _ _ => True
  | _ => False

/-- A call of a limiter: it is about a window, or removes what is no record. -/
def IsOfLimiter : Call → Prop
  | .recordInWindow _ _ _ _ _ => True
  | .countInWindow _ _ _ => True
  | .delete key => isRecordKey key = false
  | _ => False

/-- Those who have requests executed see the records and the locks, and no window. -/
def amongExecutions : Border where
  sight := ⟨isRecordKey, fun _ => true, fun _ => false⟩
  kept := IsOfExecution
  others := IsOfLimiter
  serving := true

/-- Every plan is parted into what executions ask for and the rest. -/
theorem amongExecutions_parts (plan : Plan) : amongExecutions.Parts plan := by
  refine ⟨fun call hkept => ?_, fun call hothers => ?_, fun call hkept => Or.inl ?_⟩
  · cases call with
    | get key => exact hkept
    | set key value ttl => exact hkept
    | acquireLock key ttl => exact rfl
    | releaseLock key token => exact rfl
    | _ => exact hkept.elim
  · cases call with
    | recordInWindow key stamp window limit ttl => exact rfl
    | countInWindow key stamp window => exact trivial
    | delete key => exact ⟨hothers, rfl⟩
    | _ => exact hothers.elim
  · intro other hother heq
    cases call <;> cases other <;> first | exact hkept.elim | exact hother.elim | exact nomatch heq

/-- An errand that executes nothing goes on beside the executions. -/
theorem program_beside_executions (l : Limiters) {errand : Errand} (h : errand.executes = false) :
    Aside amongExecutions (errand.program l) := by
  cases errand with
  | ask gate subject query =>
      exact query.aside (fun _ _ _ _ => trivial) (fun _ _ => trivial)
        (isRecordKey_keyFor l gate subject)
  | execute config request http => exact nomatch h

/-- An execution goes the same way on both sides. -/
theorem program_executes (l : Limiters) {errand : Errand} {f : Token → Token}
    (h : errand.executes = true) : Matches amongExecutions f (errand.program l) (errand.program l) := by
  cases errand with
  | ask gate subject query => exact nomatch h
  | execute config request http =>
      refine (execute_matches rfl fun token => ?_).bind fun _ => rfl
      have hkey := isRecordKey_of_key config.scheme token request.method request.path request.body
      exact ⟨rfl, hkey, fun _ _ => hkey, fun _ => trivial, fun _ => trivial⟩

/-! ## Runs -/

section

variable (l : Limiters) (clocks : Clocks) (plan : Plan) (clients : List Client)

/-- To those who are kept a run begins as it does. -/
theorem begin_beside {b : Border} (hparts : b.Parts plan) (mine : Errand → Bool)
    {f : Token → Token}
    (hkept : ∀ errand, mine errand = true → Matches b f (errand.program l) (errand.program l))
    (hothers : ∀ errand, mine errand = false → Aside b (errand.program l)) :
    (begin l clocks plan clients).Beside b (fun i => clients[i]?.any (mine ·.errand)) f
      (begin l clocks plan clients) := by
  have hclient : ∀ (i : Nat) t, (begin l clocks plan clients).tasks[i]? = some t →
      ∃ c : Client, clients[i]? = some c ∧ t = c.task l := by
    intro i t ht
    have hmap : (clients.map (Client.task l))[i]? = some t := ht
    rw [List.getElem?_map, Option.map_eq_some_iff] at hmap
    rcases hmap with ⟨c, hc, rfl⟩
    exact ⟨c, hc, rfl⟩
  refine ⟨⟨hparts, (Store.Ran.start clocks.mono).distinct, rfl, rfl, fun _ _ => rfl, fun _ => rfl,
    Store.AlikeWithin.empty _ _ _⟩, rfl, ?_, ?_, ?_⟩
  · intro i t t' hi ht ht'
    rcases hclient i t ht with ⟨c, hc, rfl⟩
    rw [ht] at ht'
    rw [← Option.some.inj ht']
    have hmine : mine c.errand = true := by simpa [hc] using hi
    exact ⟨⟨_, rfl, hkept _ hmine⟩, owesAlike_none, rfl⟩
  · intro i t' hi ht'
    rcases hclient i t' ht' with ⟨c, hc, rfl⟩
    have hmine : mine c.errand = false := by simpa [hc] using hi
    exact ⟨hothers _ hmine, owesAside_none⟩
  · split
    · exact ⟨rfl, fun flight hmem => nomatch hmem⟩
    · exact ⟨rfl, fun flight hmem => nomatch hmem⟩

/-- What either limiter answers for a subject is what it would answer if nobody asked
about another subject or the other limiter, no request were executed and nothing were
purged; and what becomes of the requests that are executed is what would become of them
if nobody asked a limiter. -/
theorem answers_stand_alone (happenings : List Happening) :
    (Uniform plan .recordInWindow → Uniform plan .countInWindow → Uniform plan .delete →
      ∀ gate subject i c, clients[i]? = some c → c.errand.asksAbout gate subject = true →
        (Chronicle.of (begin l clocks plan clients) happenings).state.ended? i =
          (Chronicle.of (begin l clocks plan clients)
            (onlyAbout clients gate subject happenings)).state.ended? i) ∧
    ∀ i c, clients[i]? = some c → c.errand.executes = true →
      (Chronicle.of (begin l clocks plan clients) happenings).state.ended? i =
        (Chronicle.of (begin l clocks plan clients)
          (onlyExecuted clients happenings)).state.ended? i := by
  constructor
  · intro hrecord hcount hdelete gate subject i c hc hasks
    have hparts := around_parts hrecord hcount hdelete ((l.limiter gate).keyFor subject)
    have hdivides := separates (fun f _ => begin_beside l clocks plan clients hparts
      (·.asksAbout gate subject) (f := f) (fun _ => program_about l) fun _ => program_around l)
      happenings false
    exact hdivides.ended (by simpa [hc] using hasks)
  · intro i c hc hexecutes
    have hdivides := separates (fun f _ => begin_beside l clocks plan clients
      (amongExecutions_parts plan) Errand.executes (f := f) (fun _ => program_executes l)
      fun _ => program_beside_executions l) happenings true
    exact hdivides.ended (by simpa [hc] using hexecutes)

end

/-- Everybody is let through twice. -/
def twoEach : Limiters :=
  ⟨{ LimiterConfig.standard with limit := 2 }, "pay", { LimiterConfig.standard with limit := 2 }⟩

/-- Somebody who comes at the start, and whose requests are answered with `ok`. -/
def visitor (errand : Errand) : Client :=
  ⟨errand, ⟨none, fun _ _ => some ⟨200, .empty, .ofBytes (Bytes.ofText "ok")⟩⟩, 0, none⟩

/-- A payment under one token. -/
def payment : Errand :=
  .execute .standard ⟨some "k", .post, "/pay", none⟩ ⟨.post, "/pay", .empty, .empty, none⟩

/-- One payment is made twice, subjects of one text ask either limiter, and one of them
is forgotten. -/
def crowd : List Client :=
  [.ask .main (.address "a") .allow, payment, .ask .main (.identity "a") .allow,
    .ask .endpoint (.address "a") .allow, .ask .main (.identity "a") .reset,
    .ask .main (.address "a") .remaining, payment].map visitor

/-- They come one after the other, and the store is purged once. -/
def crowdComes : List Happening :=
  [.move (.resume 0), .move (.resume 1), .move (.resume 2), .move (.resume 3), .purge,
    .move (.resume 4), .move (.resume 5), .move (.resume 6)]

/-- What happens to them over one store. -/
def crowded (happenings : List Happening) : State Reply :=
  (Chronicle.of (begin twoEach (.start ⟨1704067200, 0⟩ none) .faultless crowd) happenings).state

/-- The number that somebody was told in the end. -/
def told? : Ending Reply × Nat → Option Nat
  | (.result (.counted (.ok n)), _) => some n
  | _ => none

/-- Whether somebody was answered with a replay in the end. -/
def isReplayed : Ending Reply × Nat → Bool
  | (.result (.executed (.ok outcome)), _) => outcome.isReplay
  | _ => false

/-- The address may ask once more, although an identity of the same text was let through
and forgotten and the other limiter let the address through; and the second payment is a
replay of the first. -/
theorem crowded_alone :
    (crowded crowdComes).ended? 5 =
        (crowded (onlyAbout crowd .main (.address "a") crowdComes)).ended? 5 ∧
      (crowded crowdComes).ended? 6 = (crowded (onlyExecuted crowd crowdComes)).ended? 6 ∧
      ((crowded crowdComes).ended? 5).bind told? = some 1 ∧
      ((crowded crowdComes).ended? 6).any isReplayed = true := by
  rcases answers_stand_alone twoEach (.start ⟨1704067200, 0⟩ none) .faultless crowd crowdComes with
    ⟨hasked, hexecuted⟩
  have hasker := hasked (fun _ _ => rfl) (fun _ _ => rfl) (fun _ _ => rfl) .main (.address "a") 5 _ rfl
    (by decide)
  have hpayer := hexecuted 6 _ rfl rfl
  exact ⟨hasker, hpayer, by decide +kernel, by decide +kernel⟩

end Turnstile.Sharing

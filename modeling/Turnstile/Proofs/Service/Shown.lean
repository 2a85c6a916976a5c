import Turnstile.Proofs.Service.Conduct

/-!
# What callers are shown

The admission shows its caller either the response that its handler has just given
or a record that a look-up has found, and adds nothing to either but its own four
headers.  Which of the two it is it tells in one of them.

Buffering the body of a response changes its frames and not what it delivers, so
two responses are compared by their status, by what their bodies deliver, and by
their headers in order but for those four.

Main results:

- Theorem `Http.Headers.others_insert`: the four headers leave the others as they
  are.
- Theorem `Once.guarded_knows`: an execution ends with what its caller knows.
- Theorem `Admission.guard_keeps`: the admission keeps its rules.
-/

namespace Turnstile

open Run
open Once (Finds lookedUp recordOf captured?)
open Store (Answer Call Token)

/-! ## Headers -/

/-- The headers in which the admission speaks of itself. -/
def Admission.isOwn (name : String) : Bool :=
  name = "idempotent-replayed" || name = "x-ratelimit-limit" ||
    name = "x-ratelimit-remaining" || name = "x-ratelimit-reset"

namespace Http.Headers

/-- The headers in their order, but for those in which the admission speaks of
itself. -/
def others (h : Headers) : List (String × Bytes) :=
  h.toList.filter fun header => !Admission.isOwn header.1

/-- The other headers of a map are those of its first name and those of the rest. -/
theorem others_cons (group : String × List Bytes) (groups : List (String × List Bytes)) :
    (Headers.mk (group :: groups)).others =
      (if Admission.isOwn group.1 then [] else group.2.map fun value => (group.1, value)) ++
        (Headers.mk groups).others := by
  unfold others toList
  rw [List.flatMap_cons, List.filter_append]
  congr 1
  by_cases hown : Admission.isOwn group.1 = true
  · simp [hown]
  · simp [hown]

/-- The other headers of two maps follow each other. -/
theorem others_append (groups more : List (String × List Bytes)) :
    (Headers.mk (groups ++ more)).others = (Headers.mk groups).others ++ (Headers.mk more).others := by
  unfold others toList
  rw [List.flatMap_append, List.filter_append]

/-- Setting a header of the admission leaves the other headers as they are. -/
theorem others_replace {name : String} (hown : Admission.isOwn name = true) (value : Bytes)
    (groups : List (String × List Bytes)) :
    (Headers.mk (groups.map fun group => if group.1 = name then (name, [value]) else group)).others =
      (Headers.mk groups).others := by
  induction groups with
  | nil => rfl
  | cons group groups ih =>
      rw [List.map_cons, others_cons, others_cons, ih]
      by_cases hname : group.1 = name
      · simp [hname, hown]
      · simp [hname]

/-- The headers of the admission leave the others as they are. -/
theorem others_insert (h : Headers) {name : String} (hown : Admission.isOwn name = true)
    (value : Bytes) : (h.insert name value).others = h.others := by
  unfold insert
  split
  · exact others_replace hown value h.groups
  · rw [others_append, others_cons, if_pos hown]
    exact List.append_nil _

end Http.Headers

/-! ## Responses -/

/-- A response shows another one: it has the same status, a body that delivers the
same, and the same headers in the same order but for those of the admission. -/
structure Shows (told given : Http.Response) : Prop where
  status : given.status = told.status
  body : given.body.delivered = told.body.delivered
  headers : given.headers.others = told.headers.others

/-- The response says whether it is replayed. -/
def IsMarked (replayed : Bool) (given : Http.Response) : Prop :=
  given.headers.values "idempotent-replayed" =
    [Bytes.ofText (if replayed then "true" else "false")]

namespace Shows

variable {told given other : Http.Response}

/-- A response shows itself. -/
theorem refl (told : Http.Response) : Shows told told := ⟨rfl, rfl, rfl⟩

/-- What shows a response is shown by it. -/
theorem symm (h : Shows told given) : Shows given told :=
  ⟨h.status.symm, h.body.symm, h.headers.symm⟩

/-- What shows a response shows what that shows. -/
theorem trans (h : Shows told given) (h' : Shows given other) : Shows told other :=
  ⟨h'.status.trans h.status, h'.body.trans h.body, h'.headers.trans h.headers⟩

/-- A header of the admission changes nothing of what a response shows. -/
theorem withHeader (h : Shows told given) {name : String} (hown : Admission.isOwn name = true)
    (value : Bytes) : Shows told (given.withHeader name value) :=
  ⟨h.status, h.body, (Http.Headers.others_insert _ hown value).trans h.headers⟩

/-- Neither does the mark that says whether it is a replay. -/
theorem markReplayed (h : Shows told given) (replayed : Bool) :
    Shows told (Admission.markReplayed replayed given) :=
  h.withHeader (by decide) _

/-- Nor do the headers that tell a decision. -/
theorem mark (h : Shows told given) (d : Decision) : Shows told (d.mark given) := by
  refine ⟨h.status, h.body, ?_⟩
  have hheaders := h.headers
  unfold Decision.mark Decision.describe
  rw [Http.Headers.others_insert _ (by decide), Http.Headers.others_insert _ (by decide),
    Http.Headers.others_insert _ (by decide)]
  exact hheaders

end Shows

/-- A response that is marked has the mark. -/
theorem isMarked_markReplayed (replayed : Bool) (given : Http.Response) :
    IsMarked replayed (Admission.markReplayed replayed given) :=
  Http.Headers.values_insert_self _ _ _

/-- The limit of the caller is told in other headers. -/
theorem IsMarked.mark {replayed : Bool} {given : Http.Response} (h : IsMarked replayed given)
    (d : Decision) : IsMarked replayed (d.mark given) := by
  unfold IsMarked Decision.mark Decision.describe
  rw [Http.Headers.values_insert_of_ne _ _ (by decide), Http.Headers.values_insert_of_ne _ _ (by decide),
    Http.Headers.values_insert_of_ne _ _ (by decide)]
  exact h

/-- No response has both marks. -/
theorem IsMarked.unique {given : Http.Response} (h : IsMarked true given) :
    ¬ IsMarked false given := by
  intro h'
  have heq := h.symm.trans h'
  exact absurd heq (by decide)

/-! ## What a caller knows -/

/-- The response of the handler, once it has given one. -/
def responseOf (notes : List Note) : Option Http.Response :=
  notes.findSome? fun n =>
    match n with
    | .finished response => response
    | _ => none

/-- Only what a handler ends with tells a response. -/
theorem responseOf_cons {n : Note} (hn : ∀ response, n ≠ .finished (some response))
    (past : List Note) : responseOf (n :: past) = responseOf past := by
  unfold responseOf
  cases n with
  | finished response =>
      cases response with
      | none => rfl
      | some r => exact absurd rfl (hn r)
  | _ => rfl

/-- Only an answer to a look-up makes a difference to what was found. -/
theorem finds_cons {key : OperationKey} {record : Record} {n : Note}
    (hn : ∀ answer, n ≠ .told (.get key.text) (.ok answer)) (past : List Note) :
    Finds key record (n :: past) ↔ Finds key record past := by
  constructor
  · rintro ⟨now, answer, older, hsuffix, hrecord⟩
    have hbehind : lookedUp key now answer older <:+ past :=
      suffix_of_head_ne hsuffix fun heq => hn answer heq.symm
    exact ⟨now, answer, older, hbehind, hrecord⟩
  · exact fun hfinds => hfinds.of_suffix (List.suffix_cons _ _)

/-- A caller knows the record that its look-ups found, if they found one, and the
response of its handler, if that has given one. -/
structure Knows (key : OperationKey) (found : Option Record) (response : Option Http.Response)
    (past : List Note) : Prop where
  found : ∀ record, Finds key record past ↔ found = some record
  response : responseOf past = response

namespace Knows

variable {key : OperationKey} {found : Option Record} {response : Option Http.Response}
  {past : List Note}

/-- Only look-ups and handlers tell a caller more. -/
theorem cons (h : Knows key found response past) {n : Note}
    (hn : ∀ answer, n ≠ .told (.get key.text) (.ok answer))
    (hn' : ∀ response, n ≠ .finished (some response)) : Knows key found response (n :: past) := by
  refine ⟨?_, (responseOf_cons hn' past).trans h.response⟩
  exact fun record => (finds_cons hn past).trans (h.found record)

/-- A call that fails, or that is no look-up, tells a caller nothing. -/
theorem call (h : Knows key found response past) {call : Call} (answer : Option Answer)
    {result : Except Store.Error Answer}
    (hcall : call = .get key.text → ∃ error, result = .error error) :
    Knows key found response (.told call result :: outcome call answer :: .sent call :: past) := by
  have hsent : Knows key found response (.sent call :: past) := h.cons nofun nofun
  have houtcome : Knows key found response (outcome call answer :: .sent call :: past) := by
    cases answer with
    | none => exact hsent.cons nofun nofun
    | some a => exact hsent.cons nofun nofun
  refine houtcome.cons ?_ nofun
  intro a heq
  rw [Note.told.injEq] at heq
  rcases hcall heq.1 with ⟨error, herror⟩
  rw [herror] at heq
  exact nomatch heq.2

/-- A look-up tells the record that it finds. -/
theorem lookedUp (h : Knows key none response past) (now : Timestamp) (answer : Answer) :
    Knows key (match recordOf now answer with
      | .ok record => record
      | .error _ => none) response (Once.lookedUp key now answer past) := by
  have hread : Knows key none response (.read now :: past) := h.cons nofun nofun
  have hsent : Knows key none response (.sent (.get key.text) :: .read now :: past) :=
    hread.cons nofun nofun
  have hdone : Knows key none response (.done (.get key.text) answer ::
      .sent (.get key.text) :: .read now :: past) := hsent.cons nofun nofun
  have htold : responseOf (Once.lookedUp key now answer past) = responseOf _ :=
    responseOf_cons (n := .told (.get key.text) (.ok answer)) nofun _
  refine ⟨?_, htold.trans hdone.response⟩
  intro record
  constructor
  · rintro ⟨now', answer', older, hsuffix, hrecord⟩
    rcases List.suffix_cons_iff.1 hsuffix with heq | hsuffix
    · simp only [Once.lookedUp, List.cons.injEq, Note.told.injEq, Except.ok.injEq,
        Note.read.injEq] at heq
      rcases heq with ⟨⟨_, rfl⟩, _, _, rfl, _⟩
      rw [hrecord]
    · have hfound := (hdone.found record).1 ⟨now', answer', older, hsuffix, hrecord⟩
      cases hfound
  · intro heq
    refine ⟨now, answer, past, List.suffix_rfl, ?_⟩
    cases hrecord : recordOf now answer with
    | error error =>
        rw [hrecord] at heq
        cases heq
    | ok record' =>
        rw [hrecord] at heq
        rw [show record' = some record from heq]

/-- A handler tells its response. -/
theorem served (h : Knows key found none past) (request : Http.Request) (given : Http.Response) :
    Knows key found (some given) (.finished (some given) :: .began request :: past) := by
  have hbegan : Knows key found none (.began request :: past) := h.cons nofun nofun
  refine ⟨fun record => ?_, rfl⟩
  exact (finds_cons (n := .finished (some given)) nofun _).trans (hbegan.found record)

end Knows

/-! ## Executions -/

namespace Once

/-- The value is the record of the response. -/
def IsRecordOf (cfg : Config) (response : Http.Response) (value : Bytes) : Prop :=
  ∃ bytes now, captured? cfg response = some bytes ∧
    value = (Record.capture response.status response.headers bytes now cfg.cacheTtl).render

/-- Whoever executes a request runs its handler once, and writes nothing but the
record of its response. -/
def mayServe (cfg : Config) (key : OperationKey) (past : List Note) : Note → Prop
  | .began _ => responseOf past = none
  | .sent (.set k value _) =>
      k = key.text ∧ ∃ response, responseOf past = some response ∧ IsRecordOf cfg response value
  | .held call => ∃ lock token, call = .releaseLock lock token
  | _ => True

/-- An execution ends with what its caller knows. -/
def endsWith (key : OperationKey) (past : List Note) : Result → Prop
  | .ok (.replayed given) => ∃ record, Knows key (some record) none past ∧ given = record.toResponse
  | .ok (.executed given) => ∃ response, Knows key none (some response) past ∧ Shows response given
  | .ok (.bypassed given) => ∃ response, Knows key none (some response) past ∧ Shows response given
  | .error _ => Knows key none none past

section

variable {cfg : Config} {key : OperationKey} {handler : Handler} {past : List Note}
  {found : Option Record} {response : Option Http.Response}

/-- A look-up goes on with a record that it found, without one, or with a
failure. -/
theorem lookup_knows {f : Except Store.Error (Option Record) → Program Result}
    (hpast : Knows key none response past)
    (hfound : ∀ newer record, Knows key (some record) response newer →
      Keeps handler ⟨mayServe cfg key, endsWith key⟩ newer (f (.ok (some record))))
    (hnone : ∀ newer, Knows key none response newer →
      Keeps handler ⟨mayServe cfg key, endsWith key⟩ newer (f (.ok none)))
    (hfailed : ∀ newer error, Knows key none response newer →
      Keeps handler ⟨mayServe cfg key, endsWith key⟩ newer (f (.error error))) :
    Keeps handler ⟨mayServe cfg key, endsWith key⟩ past (lookup cfg key >>= f) := by
  rw [lookup_bind]
  intro now
  have hread : Knows key none response (.read now :: past) := hpast.cons nofun nofun
  refine ⟨trivial, fun answer => ⟨trivial, ?_⟩⟩
  intro result hreports
  cases result with
  | error error => exact hfailed _ error (hread.call answer fun _ => ⟨error, rfl⟩)
  | ok a =>
      have hanswer : answer = some a := hreports
      subst hanswer
      have hlooked := hpast.lookedUp now a
      show Keeps handler _ (Once.lookedUp key now a past) (f (cfg.found now a))
      unfold Config.found
      cases hrecord : recordOf now a with
      | error stored =>
          rw [hrecord] at hlooked
          exact hfailed _ (cfg.unreadable stored) hlooked
      | ok found =>
          rw [hrecord] at hlooked
          cases found with
          | some record => exact hfound _ record hlooked
          | none => exact hnone _ hlooked

/-- A release tells its caller nothing. -/
theorem release_knows {token : Token} {f : Unit → Program Result} (hpast : Knows key found response past)
    (hnext : ∀ newer, Knows key found response newer →
      Keeps handler ⟨mayServe cfg key, endsWith key⟩ newer (f ())) :
    Keeps handler ⟨mayServe cfg key, endsWith key⟩ past (release cfg key token >>= f) := by
  have hunheld : Knows key found response (.unheld :: past) := hpast.cons nofun nofun
  rw [release_bind]
  refine ⟨trivial, trivial, fun answer => ⟨trivial, ?_⟩⟩
  exact fun result _ => hnext _ (hunheld.call answer nofun)

/-- A replay ends with the record that was found. -/
theorem replay_knows {record : Record} (hpast : Knows key (some record) none past) :
    Keeps handler ⟨mayServe cfg key, endsWith key⟩ past (replay key record) :=
  ⟨trivial, record, hpast.cons nofun nofun, rfl⟩

/-- A run without a guard ends with what its handler told. -/
theorem bypass_knows (hpast : Knows key none none past) (request : Http.Request) :
    Keeps handler ⟨mayServe cfg key, endsWith key⟩ past (bypass (served request)) := by
  refine ⟨hpast.response, trivial, fun response _ => ?_⟩
  exact ⟨response, hpast.served request response, Shows.refl response⟩

/-- So does what follows a failure of the store. -/
theorem onStoreFailure_knows (hpast : Knows key none none past) (error : Store.Error)
    (request : Http.Request) :
    Keeps handler ⟨mayServe cfg key, endsWith key⟩ past
      (onStoreFailure cfg error (served request)) := by
  rw [onStoreFailure_eq]
  have hemitted : Knows key none none (.emitted (.storeFailure .idempotency error.message
      (cfg.failurePolicy = .failOpen)) :: past) := hpast.cons nofun nofun
  refine ⟨trivial, ?_⟩
  by_cases hopen : cfg.failurePolicy = .failOpen
  · rw [if_pos hopen]
    exact bypass_knows hemitted request
  · rw [if_neg hopen]
    exact hemitted

/-- A response that is not recorded is passed through as it is. -/
theorem capture_of_none (key : OperationKey) {response : Http.Response}
    (h : captured? cfg response = none) :
    ∃ passed, capture cfg key response = passThrough key passed ∧ Shows response passed := by
  unfold captured? Http.Body.bytesWithin? at h
  unfold capture
  by_cases hskip : (!Http.isSuccess response.status || isKnownTooLong cfg response.body) = true
  · rw [if_pos hskip]
    exact ⟨response, rfl, Shows.refl response⟩
  · rw [if_neg hskip] at h ⊢
    have hdelivered := Http.Body.delivered_collectLimited response.body cfg.maxBodyBytes
    cases hbody : response.body.collectLimited cfg.maxBodyBytes with
    | passthrough body =>
        rw [hbody] at hdelivered
        exact ⟨{ response with body := body }, rfl, rfl, hdelivered, rfl⟩
    | complete bytes =>
        rw [hbody] at h
        exact nomatch h

/-- Whether a response is recorded or not, its caller is shown it. -/
theorem capture_knows {response : Http.Response} {f : Http.Response → Program Result}
    (hpast : Knows key none (some response) past)
    (hnext : ∀ newer given, Knows key none (some response) newer → Shows response given →
      Keeps handler ⟨mayServe cfg key, endsWith key⟩ newer (f given)) :
    Keeps handler ⟨mayServe cfg key, endsWith key⟩ past (capture cfg key response >>= f) := by
  rcases capture_eq cfg key response with ⟨hnone, _⟩ | ⟨bytes, hsome, hcapture⟩
  · rcases capture_of_none key hnone with ⟨passed, hcapture, hshows⟩
    rw [hcapture]
    exact ⟨trivial, hnext _ passed (hpast.cons nofun nofun) hshows⟩
  · rw [hcapture]
    intro now
    have hread : Knows key none (some response) (.read now :: past) := hpast.cons nofun nofun
    refine ⟨⟨rfl, response, hread.response, bytes, now, hsome, rfl⟩, fun answer => ⟨trivial, ?_⟩⟩
    intro result _
    let record := Record.capture response.status response.headers bytes now cfg.cacheTtl
    have hcall : Call.set key.text record.render cfg.cacheTtl = .get key.text →
        ∃ error, result = .error error := nofun
    refine ⟨trivial, hnext _ _ ((hread.call answer hcall).cons nofun nofun) ⟨rfl, ?_, rfl⟩⟩
    rw [(captured?_eq_some hsome).2]
    exact Http.Body.delivered_ofBytes bytes

/-- So does a run of the handler under the lock. -/
theorem runHandler_knows (hpast : Knows key none none past) (request : Http.Request) (token : Token) :
    Keeps handler ⟨mayServe cfg key, endsWith key⟩ past
      (runHandler cfg key (served request) token) := by
  rw [runHandler_eq]
  refine ⟨hpast.response, trivial, fun response _ => ?_⟩
  apply capture_knows (hpast.served request response)
  intro newer given hnewer hshows
  apply release_knows hnewer
  intro later hlater
  exact ⟨response, hlater, hshows⟩

/-- Under the lock a caller ends with what it found or with what its handler told. -/
theorem underLock_knows (hpast : Knows key none none past) (request : Http.Request) (token : Token) :
    Keeps handler ⟨mayServe cfg key, endsWith key⟩ past
      (underLock cfg key (served request) token) := by
  have hheld : Knows key none none (.held (.releaseLock key.lock token) :: past) :=
    hpast.cons nofun nofun
  refine ⟨⟨key.lock, token, rfl⟩, ?_⟩
  apply lookup_knows hheld
  · intro newer record hnewer
    exact release_knows hnewer fun later hlater => replay_knows hlater
  · intro newer hnewer
    exact runHandler_knows hnewer request token
  · intro newer error hnewer
    exact release_knows hnewer fun later hlater => onStoreFailure_knows hlater error request

/-- Who waits for the holder ends with what it found. -/
theorem awaitHolder_knows (hpast : Knows key none none past) :
    Keeps handler ⟨mayServe cfg key, endsWith key⟩ past (awaitHolder cfg key) := by
  rw [awaitHolder_eq]
  have hemitted : Knows key none none (.emitted (.lockContention key.text) :: past) :=
    hpast.cons nofun nofun
  have hpaused : Knows key none none (.paused cfg.contentionWait ::
      .emitted (.lockContention key.text) :: past) := hemitted.cons nofun nofun
  refine ⟨trivial, trivial, trivial, ?_⟩
  apply lookup_knows (hpaused.cons (n := .resumed) nofun nofun)
  · intro newer record hnewer
    exact replay_knows hnewer
  · intro newer hnewer
    exact ⟨trivial, hnewer.cons nofun nofun⟩
  · intro newer error hnewer
    exact ⟨trivial, hnewer.cons nofun nofun⟩

/-- An execution ends with what its caller knows. -/
theorem guarded_knows (hpast : Knows key none none past) (request : Http.Request) :
    Keeps handler ⟨mayServe cfg key, endsWith key⟩ past (guarded cfg key (served request)) := by
  apply lookup_knows hpast
  · intro newer record hnewer
    exact replay_knows hnewer
  · intro newer hnewer
    show Keeps handler _ newer (acquire cfg key >>= afterAcquire cfg key (served request))
    rw [acquire_bind]
    refine ⟨trivial, fun answer => ⟨trivial, ?_⟩⟩
    intro result _
    have hlater : Knows key none none (.told (.acquireLock key.lock cfg.lockTtl) result ::
        outcome (.acquireLock key.lock cfg.lockTtl) answer ::
        .sent (.acquireLock key.lock cfg.lockTtl) :: newer) := hnewer.call answer nofun
    cases result with
    | error error => exact onStoreFailure_knows hlater error request
    | ok a =>
        simp only [Except.map]
        cases tokenOf a with
        | none => exact awaitHolder_knows hlater
        | some token => exact underLock_knows hlater request token
  · intro newer error hnewer
    exact onStoreFailure_knows hnewer error request

end

end Once

/-! ## The admission -/

namespace Admission

/-- Whoever is admitted has its handler run once, and writes nothing but the record
of its response, under the key of its operation. -/
def mayWork (a : Admission) (request : Http.Request) (past : List Note) : Note → Prop
  | .began _ => responseOf past = none
  | .sent (.set k value _) =>
      ∃ key response, a.keyOf request = some key ∧ k = key.text ∧
        responseOf past = some response ∧ Once.IsRecordOf a.once response value
  | .held call => ∃ lock token, call = .releaseLock lock token
  | _ => True

/-- Whoever is answered is shown a record that it found, which is marked as a replay,
or else what its handler gave, if it gave anything. -/
def answersWith (a : Admission) (request : Http.Request) (past : List Note)
    (given : Http.Response) : Prop :=
  (∃ key record, a.keyOf request = some key ∧ Knows key (some record) none past ∧
    Shows record.toResponse given ∧ IsMarked true given) ∨
  ((∀ key, a.keyOf request = some key → Knows key none (responseOf past) past) ∧
    IsMarked false given ∧ ∀ response, responseOf past = some response → Shows response given)

/-- The rules of the admission. -/
def showing (a : Admission) (request : Http.Request) : Pact Http.Response :=
  ⟨a.mayWork request, a.answersWith request⟩

section

variable {a : Admission} {request : Http.Request} {handler : Handler} {past : List Note}

/-- What is marked stays so as it is told to its caller. -/
theorem answersWith.mark {given : Http.Response} (h : a.answersWith request past given)
    (d : Decision) : a.answersWith request past (d.mark given) := by
  rcases h with ⟨key, record, hkey, hknows, hshows, hmarked⟩ | ⟨hknows, hmarked, hshows⟩
  · exact Or.inl ⟨key, record, hkey, hknows, hshows.mark d, hmarked.mark d⟩
  · exact Or.inr ⟨hknows, hmarked.mark d, fun response h => (hshows response h).mark d⟩

/-- A failure shows nothing that is known. -/
theorem answersWith_refusal (hpast : ∀ key, a.keyOf request = some key → Knows key none none past)
    (hnone : responseOf past = none) (given : Http.Response) :
    a.answersWith request past (markReplayed false given) := by
  refine Or.inr ⟨?_, isMarked_markReplayed false given, ?_⟩
  · rw [hnone]
    exact hpast
  · intro response hgiven
    rw [hnone] at hgiven
    exact nomatch hgiven

/-- What the handler gave is shown. -/
theorem answersWith_given {response given : Http.Response}
    (hpast : ∀ key, a.keyOf request = some key → Knows key none (some response) past)
    (hresponse : responseOf past = some response) (hshows : Shows response given) :
    a.answersWith request past (markReplayed false given) := by
  refine Or.inr ⟨?_, isMarked_markReplayed false given, ?_⟩
  · rw [hresponse]
    exact hpast
  · intro response' hgiven
    rw [hresponse, Option.some.injEq] at hgiven
    rw [← hgiven]
    exact hshows.markReplayed false

/-- The end of an execution is told as what its caller knows. -/
theorem answersWith_conclude {key : OperationKey} (hkey : a.keyOf request = some key)
    {result : Once.Result} (h : Once.endsWith key past result) :
    a.answersWith request past (conclude result) := by
  have hown : ∀ {response}, Knows key none response past →
      ∀ k, a.keyOf request = some k → Knows k none response past := by
    intro response hknows k hk
    rw [← Option.some.inj (hkey.symm.trans hk)]
    exact hknows
  cases result with
  | error error => exact answersWith_refusal (hown h) h.response _
  | ok outcome =>
      cases outcome with
      | replayed given =>
          rcases h with ⟨record, hknows, rfl⟩
          exact Or.inl ⟨key, record, hkey, hknows, (Shows.refl _).markReplayed true,
            isMarked_markReplayed true _⟩
      | executed given =>
          rcases h with ⟨response, hknows, hshows⟩
          exact answersWith_given (hown hknows) hknows.response hshows
      | bypassed given =>
          rcases h with ⟨response, hknows, hshows⟩
          exact answersWith_given (hown hknows) hknows.response hshows

/-- Whatever an execution may do the admission may do. -/
theorem mayWork_of_mayServe {key : OperationKey} (hkey : a.keyOf request = some key) {n : Note}
    (h : Once.mayServe a.once key past n) : a.mayWork request past n := by
  cases n with
  | sent call =>
      cases call with
      | set k value ttl =>
          rcases h with ⟨hk, response, hresponse, hrecord⟩
          exact ⟨key, response, hkey, hk, hresponse, hrecord⟩
      | _ => exact trivial
  | began request' => exact h
  | held call => exact h
  | _ => exact trivial

/-- Executing a request keeps the rules. -/
theorem coordinate_shows (hpast : ∀ key, Knows key none none past) :
    Keeps handler (a.showing request) past (a.coordinate Once.served request) := by
  have hown : ∀ key, a.keyOf request = some key → Knows key none none past := fun key _ => hpast key
  have hnone : responseOf past = none := (hpast ⟨""⟩).response
  rcases a.coordinate_cases Once.served request with
    ⟨f, _, heq | ⟨event, heq⟩⟩ | ⟨body, heq⟩ | ⟨key, body, hkey, heq⟩
  · rw [heq]
    exact answersWith_refusal hown hnone _
  · rw [heq]
    have hemitted : responseOf (.emitted event :: past) = none := (responseOf_cons (n := .emitted event) nofun past).trans hnone
    refine ⟨trivial, answersWith_refusal ?_ hemitted _⟩
    exact fun key hkey => (hown key hkey).cons nofun nofun
  · rw [heq]
    refine ⟨hnone, trivial, fun response _ => ?_⟩
    exact answersWith_given (fun key _ => (hpast key).served _ response) rfl (Shows.refl response)
  · rw [heq]
    have hguarded : Keeps handler ⟨Once.mayServe a.once key, Once.endsWith key⟩ past
        (Once.guarded a.once key (Once.served { request with body := body })) :=
      Once.guarded_knows (hpast key) _
    refine Keeps.map (P := ⟨a.mayWork request, Once.endsWith key⟩) ?_ conclude rfl ?_
    · refine hguarded.mono ?_ ?_
      · exact fun newer n hmay => mayWork_of_mayServe hkey hmay
      · exact fun newer result hends => hends
    · exact fun newer result hends => answersWith_conclude hkey hends

/-- Asking for room tells a caller nothing. -/
theorem allow_shows (a : Admission) (request : Http.Request) (l : Limiter) (subject : Subject)
    (hpast : ∀ key, Knows key none none past) :
    Keeps handler ⟨a.mayWork request, fun newer _ => ∀ key, Knows key none none newer⟩ past
      (l.allow subject) := by
  rw [Limiter.allow_eq]
  intro now
  cases l.config.window.add? l.config.safetyMargin with
  | none => exact trivial
  | some ttl =>
      refine ⟨trivial, fun answer => ⟨trivial, ?_⟩⟩
      intro result _
      have htold : ∀ key, Knows key none none (.told (l.asking subject now ttl) result ::
          outcome (l.asking subject now ttl) answer :: .sent (l.asking subject now ttl) ::
          .read now :: past) := by
        intro key
        have hread : Knows key none none (.read now :: past) := (hpast key).cons nofun nofun
        have hcall : l.asking subject now ttl = .get key.text → ∃ error, result = .error error := nofun
        exact hread.call answer hcall
      cases result with
      | error error =>
          refine ⟨trivial, ?_⟩
          by_cases hopen : l.config.failurePolicy = .failOpen
          · simp only [hopen, if_true]
            exact fun key => (htold key).cons nofun nofun
          · simp only [hopen, if_false]
            exact fun key => (htold key).cons nofun nofun
      | ok answer =>
          dsimp only
          unfold Limiter.decide
          by_cases hadmitted : (Limiter.outcomeOf answer).admitted = true
          · rw [if_pos hadmitted]
            exact htold
          · rw [if_neg hadmitted]
            exact ⟨trivial, fun key => (htold key).cons nofun nofun⟩

/-- The admission keeps its rules. -/
theorem guard_keeps (a : Admission) (request : Http.Request) :
    KeepsFromStart handler (a.showing request) (a.guard Once.served request) := by
  have hresumed : ∀ key, Knows key none none [.resumed] := by
    intro key
    refine ⟨fun record => ⟨?_, ?_⟩, rfl⟩
    · rintro ⟨now, answer, older, hsuffix, _⟩
      have hlength := hsuffix.length_le
      simp [Once.lookedUp] at hlength
    · intro hnone
      cases hnone
  refine ⟨trivial, ?_⟩
  intro now
  let subject := a.resolver.subject a.perIdentity now request
  show Keeps handler _ _ (a.limiter.allow subject >>= a.afterLimiter subject Once.served request)
  have hread : ∀ key, Knows key none none [.read now, .resumed] := by
    intro key
    refine (hresumed key).cons (fun answer htold => ?_) (fun response hfinished => ?_)
    · cases htold
    · cases hfinished
  refine keeps_bind.2 (Keeps.mono ?_ ?_ (allow_shows a request a.limiter subject hread))
  · exact fun newer n hmay => hmay
  intro newer answer hknows
  have hnone : responseOf newer = none := (hknows ⟨""⟩).response
  cases answer with
  | error error => exact answersWith_refusal (fun key _ => hknows key) hnone _
  | ok decision =>
      show Keeps handler _ newer (if decision.allowed then
        (a.coordinate Once.served request).bind fun response => .done (decision.mark response)
        else .done (markReplayed false decision.rejection))
      by_cases hallowed : decision.allowed = true
      · rw [if_pos hallowed]
        exact (coordinate_shows hknows).map decision.mark rfl fun _ _ hends => hends.mark decision
      · rw [if_neg hallowed]
        exact answersWith_refusal (fun key _ => hknows key) hnone _

end

end Admission

end Turnstile

import Turnstile.Proofs.Key.Operation
import Turnstile.Proofs.Service.Conduct

/-!
# Refused requests

A request for the administration that does not present its token is refused by
its handler.  The admission stands before the administration, though, and it
replays a record to whoever names the key of that.  So a refused request is
denied, with a failure that tells nothing of what others were answered, unless a
look-up of its own was told a record.

Main results:

- Theorem `presents_iff`: who presents the token of the administration, as long as
  digests tell tokens apart.
- Theorem `coordinate_ends`: the admission denies a refused request or replays
  a record that it found.
- Theorem `respond_ends`: so does the service.
-/

namespace Turnstile

open Run
open Once (Finds FindsNothing Failed concludes)
open Store (Answer Call)

/-! ## What a caller gets -/

/-- The headers in which the admission speaks of itself. -/
def Admission.ownHeaders : List String :=
  ["idempotent-replayed", "x-ratelimit-limit", "x-ratelimit-remaining", "x-ratelimit-reset"]

/-- The headers are those of a response but for what the admission says of
itself. -/
def Admission.Adds (told : Http.Response) (headers : Http.Headers) : Prop :=
  ∃ added : List (String × Bytes), (∀ header ∈ added, header.1 ∈ ownHeaders) ∧
    headers = added.foldl (fun h header => h.insert header.1 header.2) told.headers

/-- A response bears another one: it differs in what the admission says of
itself only. -/
structure Bears (told given : Http.Response) : Prop where
  status : given.status = told.status
  body : given.body = told.body
  headers : Admission.Adds told given.headers

/-- What the caller of a method gets conveys a response: its status, its body if
the method gets one, and its headers but for what the admission says of
itself. -/
structure Conveys (method : Http.Method) (told given : Http.Response) : Prop where
  status : given.status = told.status
  body : given.body.delivered = (told.forMethod method).body.delivered
  headers : Admission.Adds told given.headers

/-- A header of the admission may be set on top of what was added. -/
theorem Admission.Adds.insert {told : Http.Response} {headers : Http.Headers} {name : String}
    (h : Adds told headers) (hname : name ∈ ownHeaders) (value : Bytes) :
    Adds told (headers.insert name value) := by
  rcases h with ⟨added, hadded, rfl⟩
  refine ⟨added ++ [(name, value)], ?_, ?_⟩
  · intro header hmem
    rcases List.mem_append.1 hmem with hmem | hmem
    · exact hadded header hmem
    · rw [List.mem_singleton.1 hmem]
      exact hname
  · rw [List.foldl_append]
    rfl

namespace Bears

variable {told given : Http.Response}

/-- A response bears itself. -/
theorem refl (told : Http.Response) : Bears told told :=
  ⟨rfl, rfl, [], nofun, rfl⟩

/-- It is borne with a header of the admission. -/
theorem withHeader (h : Bears told given) {name : String} (hname : name ∈ Admission.ownHeaders)
    (value : Bytes) : Bears told (given.withHeader name value) :=
  ⟨h.status, h.body, h.headers.insert hname value⟩

/-- So it is with the mark that says whether it is a replay. -/
theorem markReplayed (h : Bears told given) (replayed : Bool) :
    Bears told (Admission.markReplayed replayed given) :=
  h.withHeader (by simp [Admission.ownHeaders]) _

/-- So it is with the headers that tell a decision. -/
theorem mark (h : Bears told given) (d : Decision) : Bears told (d.mark given) := by
  refine ⟨h.status, h.body, ?_⟩
  apply Admission.Adds.insert
  · apply Admission.Adds.insert
    · apply Admission.Adds.insert h.headers
      simp [Admission.ownHeaders]
    · simp [Admission.ownHeaders]
  · simp [Admission.ownHeaders]

/-- A response reaches its caller through the log. -/
theorem conveys (h : Bears told given) (method : Http.Method) (path : String) :
    Conveys method told ((ErrorLog.observe method path given).response.forMethod method) := by
  have hobserved : (ErrorLog.observe method path given).response.status = given.status ∧
      (ErrorLog.observe method path given).response.headers = given.headers := by
    unfold ErrorLog.observe
    by_cases hfailed : Http.isServerError given.status = true
    · rw [if_pos hfailed]
      exact ⟨rfl, rfl⟩
    · rw [if_neg hfailed]
      exact ⟨rfl, rfl⟩
  have hbody := ErrorLog.delivered_observe method path given
  rw [h.body] at hbody
  unfold Http.Response.forMethod
  by_cases hhead : method = .head
  · refine ⟨?_, ?_, ?_⟩
    · rw [if_pos hhead]
      exact hobserved.1.trans h.status
    · rw [if_pos hhead]
      unfold Http.Response.forMethod
      rw [if_pos hhead]
    · rw [if_pos hhead]
      show Admission.Adds told (ErrorLog.observe method path given).response.headers
      rw [hobserved.2]
      exact h.headers
  · refine ⟨?_, ?_, ?_⟩
    · rw [if_neg hhead]
      exact hobserved.1.trans h.status
    · rw [if_neg hhead]
      unfold Http.Response.forMethod
      rw [if_neg hhead]
      exact hbody
    · rw [if_neg hhead, hobserved.2]
      exact h.headers

end Bears

/-! ## Refusals -/

/-- As long as its digest tells the token from the one that is presented, a request
presents the token just where its credential is that token. -/
theorem Administration.presents_iff {token : String} {request : Http.Request}
    (happart : ∀ given, Http.bearer? request.headers = some given →
      KeyScheme.HasNoCollision [Bytes.ofText given, Bytes.ofText token]) :
    presents token request = true ↔ Http.bearer? request.headers = some token := by
  refine ⟨fun h => ?_, presents_of_bearer⟩
  unfold presents at h
  cases hbearer : Http.bearer? request.headers with
  | none =>
      rw [hbearer] at h
      exact nomatch h
  | some given =>
      rw [hbearer] at h
      have hdigests : Digest.Sha256.digest (Bytes.ofText given) =
          Digest.Sha256.digest (Bytes.ofText token) := of_decide_eq_true h
      have hbytes := happart given hbearer _ (by simp) _ (by simp) hdigests
      rw [Bytes.ofText_injective hbytes]

/-- The administration refuses the request, which does not present its token. -/
def Service.Refuses (s : Service) (request : Http.Request) : Prop :=
  ∃ segment token, s.route request = .subject segment ∧ s.adminToken = some token ∧
    Administration.presents token request = false

/-- The request is denied: what its caller gets conveys a failure that speaks of
the request, the limit and the store only. -/
def Denied (cfg : Once.Config) (past : List Note) (method : Http.Method) (given : Http.Response) : Prop :=
  ∃ f : Failure, f.IsPlain cfg past ∧ Conveys method f.response given

/-- The response bears a record that was found under the key of the operation, or
nothing was found and the response bears a plain failure. -/
def Admission.Resolves (cfg : Once.Config) (operation : Option OperationKey) (key : OperationKey)
    (past : List Note) (given : Http.Response) : Prop :=
  (∃ record, operation = some key ∧ Finds key record past ∧ Bears record.toResponse given) ∨
    (FindsNothing key past ∧ ∃ f : Failure, f.IsPlain cfg past ∧ Bears f.response given)

/-- A plain failure stays one, whatever is noted later. -/
theorem Failure.IsPlain.of_suffix {cfg : Once.Config} {f : Failure} {older past : List Note}
    (h : f.IsPlain cfg older) (hs : older <:+ past) : f.IsPlain cfg past := by
  cases f with
  | storeUnavailable error => exact Once.Failed.of_suffix h hs
  | invalidToken reason => exact h
  | internal => exact h
  | _ => exact trivial

/-- Asking for room finds nothing, and fails as the store does. -/
theorem Limiter.allow_ends (l : Limiter) (subject : Subject) (cfg : Once.Config)
    {handler : Handler} {key : OperationKey} {past : List Note} (hpast : FindsNothing key past) :
    Keeps handler (.ending fun newer result => FindsNothing key newer ∧
      ∀ error, result = .error error → Failed cfg error newer) past (l.allow subject) := by
  rw [allow_eq]
  intro now
  have hread : FindsNothing key (.read now :: past) := hpast.cons nofun
  cases l.config.window.add? l.config.safetyMargin with
  | none => exact trivial
  | some ttl =>
      have hcall : l.asking subject now ttl ≠ .get key.text := nofun
      apply Once.call_ends hcall hread
      intro newer result hnewer hfailed
      cases result with
      | error error =>
          refine ⟨trivial, ?_⟩
          by_cases hopen : l.config.failurePolicy = .failOpen
          · simp only [hopen, if_true]
            exact ⟨hnewer.cons nofun, nofun⟩
          · simp only [hopen, if_false]
            refine ⟨hnewer.cons nofun, ?_⟩
            intro error' heq
            rw [← Except.error.inj heq]
            exact (hfailed error rfl).of_suffix (List.suffix_cons _ _)
      | ok answer =>
          dsimp only
          unfold decide
          by_cases hadmitted : (outcomeOf answer).admitted = true
          · rw [if_pos hadmitted]
            exact ⟨hnewer, nofun⟩
          · rw [if_neg hadmitted]
            exact ⟨trivial, hnewer.cons nofun, nofun⟩

namespace Service

variable {s : Service} {request : Http.Request} {handler : Handler} {key : OperationKey}
  {past : List Note}

/-- The handler of a refused request reports that. -/
theorem handle_of_refuses (h : s.Refuses request) (body : Http.Body) :
    s.handle { request with body := body } = .done Failure.unauthorized.response := by
  rcases h with ⟨segment, token, hroute, htoken, hpresents⟩
  have hroute' : s.route { request with body := body } = .subject segment := hroute
  have hpresents' : Administration.presents token { request with body := body } = false := hpresents
  unfold handle Administration.guarded
  rw [hroute', htoken]
  simp only [hpresents']
  rfl

/-- An execution of a refused request is told as it concludes. -/
theorem resolves_of_concludes {operation : Option OperationKey} {result : Once.Result}
    (hkey : operation = some key)
    (h : concludes s.admission.once key Failure.unauthorized.response past result) :
    Admission.Resolves s.admission.once operation key past (Admission.conclude result) := by
  have hrefused : ∀ f : Failure, FindsNothing key past → f.IsPlain s.admission.once past →
      Admission.Resolves s.admission.once operation key past
        (Admission.markReplayed false f.response) :=
    fun f hnothing hplain => Or.inr ⟨hnothing, f, hplain, (Bears.refl _).markReplayed _⟩
  cases result with
  | error error =>
      cases error with
      | invalidKey fault => exact h.elim
      | conflict => exact hrefused .concurrentDuplicate h trivial
      | store error => exact hrefused (.storeUnavailable error) h.1 h.2
  | ok outcome =>
      cases outcome with
      | replayed response =>
          rcases h with ⟨record, hfinds, rfl⟩
          exact Or.inl ⟨record, hkey, hfinds, (Bears.refl _).markReplayed _⟩
      | executed response =>
          rcases h with ⟨hnothing, rfl⟩
          exact hrefused .unauthorized hnothing trivial
      | bypassed response =>
          rcases h with ⟨hnothing, rfl⟩
          exact hrefused .unauthorized hnothing trivial

/-- The admission denies a refused request, or replays a record that it found. -/
theorem coordinate_ends (h : s.Refuses request)
    (hkey : ∀ k, s.admission.keyOf request = some k → k = key) (hpast : FindsNothing key past) :
    Keeps handler (.ending (Admission.Resolves s.admission.once (s.admission.keyOf request) key))
      past (s.admission.coordinate s.handle request) := by
  rcases s.admission.coordinate_cases s.handle request with
    ⟨f, hplain, heq | ⟨event, heq⟩⟩ | ⟨body, heq⟩ | ⟨k, body, hk, heq⟩
  · rw [heq]
    refine Or.inr ⟨hpast, f, hplain.of_suffix List.nil_suffix, (Bears.refl _).markReplayed _⟩
  · rw [heq]
    have hemitted : FindsNothing key (.emitted event :: past) := hpast.cons nofun
    exact ⟨trivial, Or.inr
      ⟨hemitted, f, hplain.of_suffix List.nil_suffix, (Bears.refl _).markReplayed _⟩⟩
  · rw [heq, handle_of_refuses h]
    exact Or.inr ⟨hpast, .unauthorized, trivial, (Bears.refl _).markReplayed _⟩
  · rw [heq, handle_of_refuses h]
    have hsame := hkey k hk
    subst hsame
    exact (Once.guarded_ends rfl hpast).map Admission.conclude rfl fun past result =>
      resolves_of_concludes hk

/-- A refused request goes on after the limiter's answer to a denial, or to a
record that it found. -/
theorem afterLimiter_ends (h : s.Refuses request)
    (hkey : ∀ k, s.admission.keyOf request = some k → k = key) (hpast : FindsNothing key past)
    (subject : Subject) (answer : Except Store.Error Decision)
    (hfailed : ∀ error, answer = .error error → Failed s.admission.once error past) :
    Keeps handler (.ending (Admission.Resolves s.admission.once (s.admission.keyOf request) key))
      past (s.admission.afterLimiter subject s.handle request answer) := by
  cases answer with
  | error error =>
      refine Or.inr ⟨hpast, .storeUnavailable error, hfailed error rfl, ?_⟩
      apply Bears.markReplayed
      exact (Bears.refl _).withHeader (by simp [Admission.ownHeaders]) _
  | ok decision =>
      unfold Admission.afterLimiter
      by_cases hallowed : decision.allowed = true
      · simp only [hallowed, if_true]
        refine (coordinate_ends h hkey hpast).map decision.mark rfl ?_
        intro newer response hresolves
        rcases hresolves with ⟨record, hown, hfinds, hbears⟩ | ⟨hnothing, f, hplain, hbears⟩
        · exact Or.inl ⟨record, hown, hfinds, hbears.mark decision⟩
        · exact Or.inr ⟨hnothing, f, hplain, hbears.mark decision⟩
      · simp only [hallowed]
        refine Or.inr ⟨hpast, .rateLimited (Decision.roundUp (decision.retryAfter.getD (.ofSeconds 1))),
          trivial, ?_⟩
        exact ((Bears.refl _).mark decision).markReplayed _

/-- A refused request is denied, or it is answered with a record that it
found. -/
theorem respond_ends (h : s.Refuses request)
    (hkey : ∀ k, s.admission.keyOf request = some k → k = key) (hpast : FindsNothing key past) :
    Keeps handler (.ending fun newer observed =>
      (∃ record, s.admission.keyOf request = some key ∧ Finds key record newer ∧
        Conveys request.method record.toResponse observed.response) ∨
      (FindsNothing key newer ∧
        Denied s.admission.once newer request.method observed.response)) past
      (s.respond request) := by
  have hhealth : s.route request ≠ .health := by
    rcases h with ⟨segment, token, hroute, _⟩
    rw [hroute]
    exact nofun
  have hanswer : Keeps handler
      (.ending (Admission.Resolves s.admission.once (s.admission.keyOf request) key)) past
      (s.answer request) := by
    unfold answer
    rw [if_neg hhealth]
    intro now
    have hread : FindsNothing key (.read now :: past) := hpast.cons nofun
    let subject := s.admission.resolver.subject s.admission.perIdentity now request
    show Keeps handler _ _
      (s.admission.limiter.allow subject >>= s.admission.afterLimiter subject s.handle request)
    refine keeps_bind.2 (Keeps.mono ?_ ?_ (Limiter.allow_ends _ subject s.admission.once hread))
    · exact fun _ _ _ => trivial
    · intro newer answer hends
      exact afterLimiter_ends h hkey hends.1 _ answer hends.2
  refine hanswer.map _ rfl ?_
  intro newer response hresolves
  rcases hresolves with ⟨record, hown, hfinds, hbears⟩ | ⟨hnothing, f, hplain, hbears⟩
  · exact Or.inl ⟨record, hown, hfinds, hbears.conveys request.method request.path⟩
  · exact Or.inr ⟨hnothing, f, hplain, hbears.conveys request.method request.path⟩

end Service

end Turnstile

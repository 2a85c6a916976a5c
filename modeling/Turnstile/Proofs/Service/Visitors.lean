import Turnstile.Proofs.Once.Calm
import Turnstile.Proofs.Run.Account
import Turnstile.Proofs.Service.Refusal
import Turnstile.Proofs.Store.Sliding

/-!
# Visitors of the service

Any number of visitors send requests to the service, which keeps its records in
one local store.  A visitor whom the administration refuses is denied, with a
failure that tells nothing of what others were answered, if and only if it is
not answered with the record of a response to another visitor, who named the
same key and was not refused.

Main results:

- Theorem `Account.written_of_found`: a record that was found is one of a
  response to a visitor with the same key.
- Theorem `denied_iff_not_exposed`: a refused visitor is denied unless it is
  answered with such a record.
-/

namespace Turnstile.Service

open Run
open Once (Finds FindsNothing captured?)
open Store (Answer Call)

/-! ## Visitors -/

/-- Somebody who sends a request. -/
structure Visitor where
  request : Http.Request
  /-- When the request arrives, by the monotonic clock. -/
  time : Nat
  /-- When the visitor goes away, if it has not been answered by then. -/
  cancelAt : Option Nat

/-- The service hands no request on. -/
def noHandler : Handler := ⟨none, fun _ _ => none⟩

/-- How a request may be answered after what was noted for it: a refused one is
denied, or it is answered with a record that was found. -/
def mayAnswer (s : Service) (request : Http.Request) (past : List Note) (observed : Observed) : Prop :=
  s.Refuses request →
    (∃ key record, s.admission.keyOf request = some key ∧ Finds key record past ∧
      Conveys request.method record.toResponse observed.response) ∨
    ((∀ key, s.admission.keyOf request = some key → FindsNothing key past) ∧
      Denied s.admission.once past request.method observed.response)

/-- The rules by which a request is answered. -/
def rules (s : Service) (request : Http.Request) : Pact Observed :=
  .onlyCalls (s.mayCall request) mayOwe (s.mayAnswer request)

/-- Every request is answered by the rules. -/
theorem respond_keeps (s : Service) (request : Http.Request) :
    KeepsFromStart noHandler (s.rules request) (s.respond request) := by
  refine ⟨trivial, ?_⟩
  have hmakes : Keeps noHandler (.onlyCalls (s.mayCall request) mayOwe fun _ _ => True) [.resumed]
      (s.respond request) := (s.respond_makes request).keeps [.resumed]
  by_cases hrefuses : s.Refuses request
  · let key := (s.admission.keyOf request).getD ⟨""⟩
    have hkey : ∀ k, s.admission.keyOf request = some k → k = key := by
      intro k hk
      simp only [key, hk, Option.getD_some]
    have hfresh : FindsNothing key [.resumed] := by
      intro record hfinds
      rcases hfinds with ⟨now, answer, older, hsuffix, _⟩
      have hlength := hsuffix.length_le
      simp [Once.lookedUp] at hlength
    refine Keeps.mono ?_ ?_ (hmakes.and (respond_ends hrefuses hkey hfresh))
    · exact fun past n hmay => hmay.1
    · intro past observed hends _
      rcases hends.2 with ⟨record, hown, hfinds, hconveys⟩ | ⟨hnothing, hdenied⟩
      · exact Or.inl ⟨key, record, hown, hfinds, hconveys⟩
      · refine Or.inr ⟨?_, hdenied⟩
        intro k hk
        rw [hkey k hk]
        exact hnothing
  · refine Keeps.mono ?_ ?_ hmakes
    · exact fun past n hmay => hmay
    · exact fun past observed _ h => absurd h hrefuses

/-- The visitor as a party that is answered by the rules. -/
def party (s : Service) (v : Visitor) : Party Observed :=
  ⟨s.respond v.request, noHandler, v.time, v.cancelAt, s.rules v.request⟩

/-- A run of visitors over one store without entries. -/
def begin (s : Service) (clocks : Clocks) (plan : Plan) (visitors : List Visitor) : State Observed :=
  ⟨.start clocks plan, visitors.map fun v => (s.party v).task, []⟩

/-- What can be said of every log of visitors. -/
abbrev Account (s : Service) (visitors : List Visitor) (log : Log) : Prop :=
  Run.Account (visitors.map s.party) log

section

variable {s : Service} {clocks : Clocks} {plan : Plan} {visitors : List Visitor}

/-- Every visitor begins with its own program. -/
theorem begins (s : Service) (clocks : Clocks) (plan : Plan) (visitors : List Visitor) :
    Begins (visitors.map s.party) (s.begin clocks plan visitors) :=
  .of_members _ _ rfl rfl rfl

/-- Every visitor keeps its rules. -/
theorem parties_keep (s : Service) (visitors : List Visitor) :
    ∀ p ∈ visitors.map s.party, p.Keeps :=
  List.forall_mem_map.2 fun v _ => s.respond_keeps v.request

/-- Every chronicle of visitors has an account. -/
theorem account (s : Service) (clocks : Clocks) (plan : Plan) (visitors : List Visitor)
    (happenings : List Happening) :
    s.Account visitors (Chronicle.of (s.begin clocks plan visitors) happenings).log :=
  Run.account (s.begins clocks plan visitors) (s.parties_keep visitors) happenings

/-! ## Where records come from -/

/-- The record holds a response that the service may give to the visitor, who
named the key and was not refused. -/
structure IsOf (s : Service) (w : Visitor) (key : OperationKey) (record : Record) : Prop where
  key : s.admission.keyOf w.request = some key
  admitted : ¬ s.Refuses w.request
  response : ∃ body response bytes, Yields (s.handle { w.request with body := body }) response ∧
    captured? s.admission.once response = some bytes ∧ record.status = response.status ∧
    record.headers = response.headers.toList ∧ record.body = bytes

/-- The record of a response to a visitor was written under the key. -/
def Wrote (s : Service) (visitors : List Visitor) (log : Log) (key : OperationKey)
    (record : Record) : Prop :=
  ∃ j w t value ttl answer past, visitors[j]? = some w ∧ s.IsOf w key record ∧
    Record.ofStored? value = some record ∧
    Run.Tells log ⟨t, some j, .done (.set key.text value ttl) answer⟩ past

/-- The statuses of success end before 300. -/
theorem lt_of_isSuccess {status : Nat} (h : Http.isSuccess status = true) : status < 300 := by
  unfold Http.isSuccess at h
  simp only [Bool.and_eq_true, decide_eq_true_eq] at h
  exact h.2

/-- Nothing is written for a request that is refused. -/
theorem not_refuses_of_records {request : Http.Request} {key : OperationKey} {value : Bytes}
    (h : s.Records request key value) : ¬ s.Refuses request := by
  intro hrefuses
  rcases h.2 with ⟨body, response, bytes, now, hyields, hcaptured, _⟩
  rw [handle_of_refuses hrefuses] at hyields
  have hresponse : response = Failure.unauthorized.response := hyields
  have hsuccess := (Once.captured?_eq_some hcaptured).1
  rw [hresponse] at hsuccess
  exact nomatch hsuccess

/-- What is read back for a visitor holds a response to it. -/
theorem isOf_of_records {w : Visitor} {key : OperationKey} {value : Bytes} {record : Record}
    (h : s.Records w.request key value) (hstored : Record.ofStored? value = some record) :
    s.IsOf w key record := by
  have hadmitted := not_refuses_of_records h
  rcases h with ⟨hkey, body, response, bytes, now, hyields, hcaptured, rfl⟩
  have hstatus := lt_of_isSuccess (Once.captured?_eq_some hcaptured).1
  have hsmall : (Record.capture response.status response.headers bytes now
      s.admission.once.cacheTtl).status < 65536 := Nat.lt_trans hstatus (by decide)
  exact ⟨hkey, hadmitted, body, response, bytes, hyields, hcaptured,
    Record.content_of_ofStored?_render hsmall hstored⟩

/-- A record of a response to a visitor is replayed as a success. -/
theorem IsOf.isSuccess {w : Visitor} {key : OperationKey} {record : Record}
    (h : s.IsOf w key record) : Http.isSuccess record.toResponse.status = true := by
  rcases h.response with ⟨_, response, _, _, hcaptured, hstatus, _⟩
  have hsuccess := (Once.captured?_eq_some hcaptured).1
  rw [← hstatus] at hsuccess
  have hshown : Record.isStatus record.status = true := by
    unfold Http.isSuccess at hsuccess
    unfold Record.isStatus
    simp only [Bool.and_eq_true, decide_eq_true_eq] at hsuccess ⊢
    omega
  unfold Record.toResponse
  rw [if_pos hshown]
  exact hsuccess

/-- A call that is no release was made for a visitor. -/
theorem exists_visitor {log past : Log} (h : s.Account visitors log) {t : Nat} {who : Option Nat}
    {call : Call} {answer : Answer} (htold : Run.Tells log ⟨t, who, .done call answer⟩ past)
    (howed : ¬ mayOwe call) :
    ∃ j w, who = some j ∧ visitors[j]? = some w ∧ s.mayCall w.request call := by
  rcases h.origin htold with ⟨j, p, older, hwho, hp, _, hmay⟩ | ⟨t', j, behind, hquit⟩
  · rw [List.getElem?_map] at hp
    rcases Option.map_eq_some_iff.1 hp with ⟨w, hw, rfl⟩
    exact ⟨j, w, hwho, hw, hmay⟩
  · -- What is left behind is a release.
    rcases (Run.Account.of_suffix h htold.suffix).held_of_quit hquit with ⟨p, _, hp, _, hmay⟩
    rw [List.getElem?_map] at hp
    rcases Option.map_eq_some_iff.1 hp with ⟨w, _, rfl⟩
    exact absurd hmay howed

/-- Whatever was set was set for a visitor, and records a response to it. -/
theorem records_of_set {log past : Log} (h : s.Account visitors log) {t : Nat} {who : Option Nat}
    {k : String} {value : Bytes} {ttl : Span} {answer : Answer}
    (htold : Run.Tells log ⟨t, who, .done (.set k value ttl) answer⟩ past) :
    ∃ j w key, who = some j ∧ visitors[j]? = some w ∧ k = key.text ∧
      s.Records w.request key value := by
  rcases exists_visitor h htold id with ⟨j, w, hwho, hw, key, hk, hrecords⟩
  exact ⟨j, w, key, hwho, hw, hk, hrecords⟩

/-- Whatever was recorded in a window was recorded in that of somebody, by the limit of
that. -/
theorem limit_of_record {log past : Log} (h : s.Account visitors log) {t : Nat} {who : Option Nat}
    {k : String} {stamp : Int} {window ttl : Span} {limit : Nat} {answer : Answer}
    (htold : Run.Tells log ⟨t, who, .done (.recordInWindow k stamp window limit ttl) answer⟩ past) :
    ∃ subject, k = s.admission.limiter.keyFor subject ∧
      limit = s.admission.limiter.limitFor subject := by
  rcases exists_visitor h htold id with ⟨_, _, _, _, hcharged⟩
  exact hcharged

/-- A record that was found is one of a response to a visitor with the same
key. -/
theorem written_of_found {log : Log} (h : s.Account visitors log) {i : Nat} {key : OperationKey}
    {record : Record} (hfinds : Finds key record (own i log)) : s.Wrote visitors log key record := by
  rcases hfinds with ⟨now, answer, older, hlooked, hrecord⟩
  rcases Once.recordOf_eq_some hrecord with ⟨stored, rfl, hread, _⟩
  rcases Once.exists_of_lookedUp hlooked with ⟨t, past, hgot, _⟩
  rcases h.set_of_found hgot with ⟨t', who, ttl, answer, past', hset, _⟩
  have hnow := hset.of_suffix hgot.suffix
  rcases records_of_set h hnow with ⟨j, w, key', rfl, hw, hkey, hrecords⟩
  have hsame : key = key' := by
    cases key
    cases key'
    exact congrArg OperationKey.mk hkey
  subst hsame
  exact ⟨j, w, t', stored, ttl, answer, past', hw, isOf_of_records hrecords hread, hread, hnow⟩

/-! ## Who is denied -/

/-- The `i`-th visitor is exposed to the record of a response to a visitor who
named the same key: its own look-up was told that record. -/
def Exposed (s : Service) (visitors : List Visitor) (log : Log) (i : Nat) (v : Visitor) : Prop :=
  ∃ key record, s.admission.keyOf v.request = some key ∧ Finds key record (own i log) ∧
    s.Wrote visitors log key record

/-- Who is denied gets no success. -/
theorem Denied.not_success {cfg : Once.Config} {past : List Note} {method : Http.Method}
    {given : Http.Response} (h : Denied cfg past method given) : Http.isSuccess given.status = false := by
  rcases h with ⟨f, _, hconveys⟩
  have hstatus := f.status_ge
  rw [hconveys.status, f.status_response]
  unfold Http.isSuccess
  simp only [Bool.and_eq_false_iff, decide_eq_false_iff_not]
  omega

/-- A refused visitor that was answered found nothing and is denied, or it is
answered with a record that it found. -/
theorem denied_or_found (happenings : List Happening) {i : Nat} {v : Visitor}
    {run : Chronicle Observed} (hrun : run = .of (s.begin clocks plan visitors) happenings)
    (hv : visitors[i]? = some v) (hrefuses : s.Refuses v.request) {task : Run.Task Observed}
    (htask : run.state.tasks[i]? = some task) {observed : Observed} {time : Nat}
    (hended : task.wait = .nothing (.result observed) time) :
    ((∀ key, s.admission.keyOf v.request = some key → FindsNothing key (own i run.log)) ∧
      Denied s.admission.once (own i run.log) v.request.method observed.response) ∨
    ∃ key record, s.admission.keyOf v.request = some key ∧ Finds key record (own i run.log) ∧
      s.Wrote visitors run.log key record ∧
      Conveys v.request.method record.toResponse observed.response := by
  subst hrun
  have hparty : (visitors.map s.party)[i]? = some (s.party v) := by simp [hv]
  rcases ends_of_conduct (s.begins clocks plan visitors) (s.parties_keep visitors) hparty htask hended
    with ⟨older, hown, hends⟩
  have hsuffix : older <:+ own i (Chronicle.of (s.begin clocks plan visitors) happenings).log := by
    rw [hown]
    exact List.suffix_cons _ _
  rcases hends hrefuses with ⟨key, record, hkey, hfinds, hconveys⟩ | ⟨hnothing, f, hplain, hconveys⟩
  · have hfound := hfinds.of_suffix hsuffix
    have hwrote := written_of_found (s.account clocks plan visitors happenings) hfound
    exact Or.inr ⟨key, record, hkey, hfound, hwrote, hconveys⟩
  · refine Or.inl ⟨?_, f, hplain.of_suffix hsuffix, hconveys⟩
    intro key hkey
    rw [hown]
    exact (hnothing key hkey).cons nofun

/-- A refused visitor is denied, and gets no success, if and only if it is not
exposed to the record of a response to another visitor. -/
theorem denied_iff_not_exposed (happenings : List Happening) {i : Nat} {v : Visitor}
    {run : Chronicle Observed} (hrun : run = .of (s.begin clocks plan visitors) happenings)
    (hv : visitors[i]? = some v) (hrefuses : s.Refuses v.request) {task : Run.Task Observed}
    (htask : run.state.tasks[i]? = some task) {observed : Observed} {time : Nat}
    (hended : task.wait = .nothing (.result observed) time) :
    (Http.isSuccess observed.response.status = false ∧
      Denied s.admission.once (own i run.log) v.request.method observed.response) ↔
    ¬ s.Exposed visitors run.log i v := by
  rcases denied_or_found happenings hrun hv hrefuses htask hended with
    ⟨hnothing, hdenied⟩ | ⟨key, record, hkey, hfinds, hwrote, hconveys⟩
  · constructor
    · rintro _ ⟨key, record, hkey, hfinds, _⟩
      exact hnothing key hkey record hfinds
    · intro _
      exact ⟨Denied.not_success hdenied, hdenied⟩
  · constructor
    · rintro ⟨hfailed, _⟩
      rcases hwrote with ⟨_, _, _, _, _, _, _, _, hof, _⟩
      rw [hconveys.status, hof.isSuccess] at hfailed
      exact nomatch hfailed
    · intro hnot
      exact absurd ⟨key, record, hkey, hfinds, hwrote⟩ hnot

end

/-! ## A stranger in the office -/

/-- How a request is answered after its response was made. -/
def finish (request : Http.Request) (response : Http.Response) : Observed :=
  let observed := ErrorLog.observe request.method request.path response
  { observed with response := observed.response.forMethod request.method }

/-- A request other than for the health of the service is counted first. -/
theorem respond_eq {s : Service} {request : Http.Request} (h : s.route request ≠ .health) :
    s.respond request = .now fun now =>
      (s.admission.limiter.allow (s.admission.resolver.subject s.admission.perIdentity now request) >>=
        s.admission.afterLimiter (s.admission.resolver.subject s.admission.perIdentity now request)
          s.handle request) >>= fun response => pure (finish request response) := by
  unfold respond answer
  rw [if_neg h]
  rfl

/-- The service with the usual settings and an administration. -/
def office : Service := .ofConfig { Config.standard with adminToken := some "admin-secret" }

/-- The key that both visitors name. -/
def sharedKey : String × Bytes := ("idempotency-key", Bytes.ofText "k")

/-- An operator asks for the use that a subject makes of its limit. -/
def operatorRequest : Http.Request :=
  ⟨.get, "/admin/rate-limit/127.0.0.1",
    .ofList [("authorization", Bytes.ofText "Bearer admin-secret"), sharedKey], .empty, none⟩

/-- A stranger asks for the same, and names the same key. -/
def strangerRequest : Http.Request :=
  ⟨.get, "/admin/rate-limit/127.0.0.1", .ofList [sharedKey], .empty, none⟩

/-- The two come at the beginning of 2024. -/
def newYear : Timestamp := ⟨1704067200, 0⟩

/-- Where both are counted. -/
def callerKey : String := office.admission.limiter.keyFor (.address "unknown")

/-- The key of the operation that both ask for. -/
def officeKey : OperationKey :=
  office.admission.once.scheme.key "k" .get "/admin/rate-limit/127.0.0.1" none

/-- How long the requests of a caller are kept. -/
def officeTtl : Span := .ofSeconds 61

/-- The call that counts a request. -/
def counting : Call :=
  office.admission.limiter.asking (.address "unknown") newYear officeTtl

/-- The call that asks for the use of the subject. -/
def consulting : Call :=
  .countInWindow "rate_limit:ip:127.0.0.1" newYear.stamp office.admission.limiter.config.window

/-- What the operator is shown. -/
def shown : Bytes :=
  envelope (Usage.render ⟨"127.0.0.1", "rate_limit:ip:127.0.0.1", 100, 0, 100,
    newYear.addSaturating (.ofSeconds 60)⟩)

/-- The record of what the operator is shown. -/
def shownRecord : Record :=
  .capture 200 (Http.Response.json 200 shown).headers shown newYear office.admission.once.cacheTtl

/-- The administration refuses the stranger. -/
theorem stranger_refused : office.Refuses strangerRequest :=
  ⟨"127.0.0.1".toList, "admin-secret", by decide, rfl, by decide⟩

/-- A request with the key is executed under the key of its operation. -/
theorem coordinate_office {request : Http.Request}
    (hcarried : Admission.carried request.headers = .token "k") (hmethod : request.method = .get)
    (hpath : request.path = "/admin/rate-limit/127.0.0.1") :
    office.admission.coordinate office.handle request =
      Once.guarded office.admission.once officeKey (office.handle request) >>= fun result =>
        pure (Admission.conclude result) := by
  have hbody : ¬ office.admission.once.scheme.hashesBody request.method = true := by
    rw [hmethod]
    decide
  have happlies : office.admission.once.appliesTo request.method = true := rfl
  have hvalid : Once.validateToken "k" = none := by decide
  unfold Admission.coordinate
  rw [hcarried]
  dsimp only
  rw [if_neg hbody]
  unfold Admission.execute Once.execute
  dsimp only
  rw [if_pos happlies, hvalid, hmethod, hpath]
  rfl

/-- The decision on a request that was admitted. -/
def granted (outcome : Store.WindowOutcome) : Decision :=
  Limiter.admission 100 (100 - outcome.count) (office.admission.limiter.resetFrom newYear)

/-- How an outcome is told. -/
def telling (request : Http.Request) (outcome : Store.WindowOutcome) (result : Once.Result) :
    Program Observed :=
  pure (finish request ((granted outcome).mark (Admission.conclude result)))

/-- A request that is counted and admitted goes on to be executed. -/
theorem settles_counted {request : Http.Request} (hroute : office.route request ≠ .health)
    (hsubject : office.admission.resolver.subject office.admission.perIdentity newYear request =
      .address "unknown") (hcarried : Admission.carried request.headers = .token "k")
    (hmethod : request.method = .get) (hpath : request.path = "/admin/rate-limit/127.0.0.1")
    {w : World} (hplan : w.plan = .faultless) (hnow : w.clocks.now = newYear)
    {outcome : Store.WindowOutcome} {store : Store.LocalStore}
    (hdone : w.store.perform w.mono (.issued (w.tokens + 1)) counting = .ok (.window outcome, store))
    (hadmitted : outcome.admitted = true) {notes : List Note} {standing : Standing Observed}
    (h : Settles noHandler (w.afterCall counting store) none
      (Once.guarded office.admission.once officeKey (office.handle request) >>= telling request outcome)
      notes standing) :
    Settles noHandler w none (office.respond request)
      ((notes ++ [.told counting (.ok (.window outcome)), .done counting (.window outcome),
        .sent counting]) ++ [.read newYear] ++ [.read newYear]) standing := by
  have httl : office.admission.limiter.config.window.add? office.admission.limiter.config.safetyMargin =
      some officeTtl := by decide
  have hdecide : office.admission.limiter.decide (.address "unknown") 100 newYear outcome =
      pure (granted outcome) := by
    unfold Limiter.decide
    rw [if_pos hadmitted]
    rfl
  rw [respond_eq hroute]
  apply Settles.now hnow
  rw [hsubject, Limiter.allow_eq, httl]
  apply Settles.now hnow
  apply Settles.call (World.serves_of_faultless hplan _) hdone
  show Settles _ _ _ (((office.admission.limiter.decide (.address "unknown") 100 newYear outcome >>=
    fun decision => pure (Except.ok decision)) >>=
      office.admission.afterLimiter (.address "unknown") office.handle request) >>=
    fun response => pure (finish request response)) _ _
  rw [hdecide]
  show Settles _ _ _ ((office.admission.coordinate office.handle request >>= fun response =>
    pure ((granted outcome).mark response)) >>= fun response => pure (finish request response)) _ _
  rw [coordinate_office hcarried hmethod hpath]
  show Settles _ _ _ (((Once.guarded _ _ _).bind _).bind _ |>.bind _) _ _
  rw [Program.bind_assoc, Program.bind_assoc]
  exact h

/-- The operator asks what an address has used. -/
theorem handle_operator :
    office.handle operatorRequest = Administration.showUsage office.admission.limiter "127.0.0.1" := by
  have hroute : office.route operatorRequest = .subject "127.0.0.1".toList := by decide
  have hpresents : Administration.presents "admin-secret" operatorRequest = true :=
    Administration.presents_of_bearer (by decide)
  have hget : operatorRequest.method = .get ∨ operatorRequest.method = .head := Or.inl rfl
  have htext : Http.Percent.decodeText? "127.0.0.1".toList = some "127.0.0.1" := by decide
  unfold handle
  rw [hroute]
  show Administration.guarded "admin-secret" _ _ _ = _
  unfold Administration.guarded Administration.handle Administration.withText
  rw [if_pos hpresents, if_pos hget, htext]

/-- What the operator is shown is recorded. -/
theorem captured_shown : captured? office.admission.once (.json 200 shown) = some shown := by
  have hshort : shown.length ≤ office.admission.once.maxBodyBytes := by decide +kernel
  exact Once.captured?_of_ofBytes rfl rfl hshort

/-- The operator is shown the use of the subject, and what it is shown is
recorded. -/
theorem settles_operator {w : World} (hw : w = .start (.start newYear none) .faultless) :
    ∃ notes st, Settles noHandler w none (office.respond operatorRequest) notes st ∧
      st.owed = none ∧ st.world.plan = .faultless ∧ st.world.clocks = .start newYear none ∧
      (∃ expiresAt, 0 < expiresAt ∧
        st.world.store.values.lookup officeKey.text = some ⟨shownRecord.render, expiresAt⟩) ∧
      (∃ expiresAt, 0 < expiresAt ∧ st.world.store.windows.lookup callerKey =
        some ⟨[newYear.stamp], some expiresAt⟩) ∧
      ∃ observed, st.wait = .nothing (.result observed) 0 ∧ observed.response.status = 200 ∧
        observed.response.body.delivered = (shown, none) := by
  have hwindow : Store.expiry 0 officeTtl = .ok (0 + officeTtl.nanos) := Store.expiry_ok (by decide)
  have hlock : Store.expiry 0 office.admission.once.lockTtl =
      .ok (0 + office.admission.once.lockTtl.nanos) := Store.expiry_ok (by decide)
  have hcache : Store.expiry 0 office.admission.once.cacheTtl =
      .ok (0 + office.admission.once.cacheTtl.nanos) := Store.expiry_ok (by decide)
  have hnow : (Clocks.start newYear none).now = newYear := by decide
  let counted : Store.LocalStore :=
    { Store.LocalStore.empty with
      windows := Store.Table.empty.insert callerKey ⟨[newYear.stamp], some (0 + officeTtl.nanos)⟩ }
  let admitted : World := (World.start (.start newYear none) .faultless).afterCall counting counted
  let cleared : World := Once.clearedWorld admitted office.admission.once officeKey
    (0 + office.admission.once.lockTtl.nanos)
  let responded : World := cleared.afterCall consulting cleared.store
  let recorded : World := Once.recordedWorld responded office.admission.once officeKey shownRecord
    (.issued 3) (0 + office.admission.once.cacheTtl.nanos)
  have hdone : Store.LocalStore.empty.perform 0 (.issued 1) counting =
      .ok (.window ⟨true, 1, some newYear.stamp⟩, counted) :=
    Store.LocalStore.perform_record_first rfl (by decide) (by decide) hwindow _
  have huse : cleared.store.perform 0 (.issued (cleared.tokens + 1)) consulting =
      .ok (.count 0, cleared.store) := by
    have hother : "rate_limit:ip:127.0.0.1" ≠ callerKey := by decide
    have hnone : cleared.store.windows.lookup "rate_limit:ip:127.0.0.1" = none :=
      Store.Table.lookup_insert_of_ne _ _ hother
    simp only [consulting, Store.LocalStore.perform, Store.LocalStore.count, hnone]
  have hrecorded : Settles noHandler responded (some (.releaseLock officeKey.lock (.issued 3)))
      (Once.runHandler office.admission.once officeKey (pure (.json 200 shown)) (.issued 3) >>=
        telling operatorRequest ⟨true, 1, some newYear.stamp⟩) _ _ :=
    Once.settles_recorded (fun _ => rfl) (fun _ => rfl) hnow captured_shown hcache (Settles.done _ recorded _ _)
  have hshown : Settles noHandler cleared (some (.releaseLock officeKey.lock (.issued 3)))
      (Once.runHandler office.admission.once officeKey
          (Administration.showUsage office.admission.limiter "127.0.0.1") (.issued 3) >>=
        telling operatorRequest ⟨true, 1, some newYear.stamp⟩) _ _ :=
    Settles.now hnow (Settles.call (fun _ => rfl) huse (Settles.now hnow hrecorded))
  have hexecuted : Settles noHandler admitted none
      (Once.guarded office.admission.once officeKey
          (Administration.showUsage office.admission.limiter "127.0.0.1") >>=
        telling operatorRequest ⟨true, 1, some newYear.stamp⟩) _ _ :=
    Once.settles_cleared (fun _ => rfl) (fun _ => rfl) hnow rfl rfl hlock hshown
  rw [← handle_operator] at hexecuted
  subst hw
  refine ⟨_, _, settles_counted (by decide) (by decide) (by decide) rfl rfl rfl hnow hdone rfl
    hexecuted, rfl, rfl, rfl, ⟨0 + office.admission.once.cacheTtl.nanos, by decide, ?_⟩,
    ⟨0 + officeTtl.nanos, by decide, ?_⟩, _, rfl, rfl, ?_⟩
  · exact Once.lookup_recordedWorld _ _ _ _ _ _
  · show recorded.store.windows.lookup callerKey = _
    rw [Once.windows_recordedWorld]
    exact Store.Table.lookup_insert_self _ _ _
  · exact Http.Body.delivered_ofBytes shown

/-- What the operator is shown can be stored. -/
theorem storable_shown : shownRecord.Storable where
  status := by decide
  created := ⟨by decide, by decide, by decide⟩
  expires := ⟨by decide, by decide, by decide⟩

/-- The stranger is shown the same. -/
theorem settles_stranger {w : World} (hplan : w.plan = .faultless)
    (hclocks : w.clocks = .start newYear none) {recordedUntil countedUntil : Nat}
    (hrecorded : 0 < recordedUntil)
    (hvalue : w.store.values.lookup officeKey.text = some ⟨shownRecord.render, recordedUntil⟩)
    (hcounted : 0 < countedUntil)
    (hwindow : w.store.windows.lookup callerKey = some ⟨[newYear.stamp], some countedUntil⟩) :
    ∃ notes st, Settles noHandler w none (office.respond strangerRequest) notes st ∧
      st.owed = none ∧ ∃ observed, st.wait = .nothing (.result observed) 0 ∧
        observed.response.status = 200 ∧ observed.response.body.delivered = (shown, none) := by
  have hnow : w.clocks.now = newYear := by
    rw [hclocks]
    decide
  have hmono : w.mono = 0 := mono_of_start hclocks
  have hdone : ∃ windows, w.store.perform w.mono (.issued (w.tokens + 1)) counting =
      .ok (.window ⟨true, 2, some newYear.stamp⟩, { w.store with windows := windows }) := by
    have hexpiry : Store.expiry 0 officeTtl = .ok (0 + officeTtl.nanos) := Store.expiry_ok (by decide)
    have hstamps : w.store.stampsAt 0 callerKey = [newYear.stamp] :=
      Store.LocalStore.stampsAt_of_lookup hwindow hcounted
    have hlive : (w.store.stampsAt 0 callerKey).filter (Store.windowStart newYear.stamp
        office.admission.limiter.config.window ≤ ·) = [newYear.stamp] := by
      rw [hstamps]
      decide
    rw [hmono]
    exact ⟨_, Store.LocalStore.perform_record_admitted hlive (by decide) (by decide) hexpiry _⟩
  rcases hdone with ⟨windows, hdone⟩
  have hlive : w.mono < recordedUntil := by
    rw [hmono]
    exact hrecorded
  have hreplayed : Settles noHandler (w.afterCall counting { w.store with windows := windows }) none
      (Once.guarded office.admission.once officeKey (office.handle strangerRequest) >>=
        telling strangerRequest ⟨true, 2, some newYear.stamp⟩) _ _ :=
    Once.settles_replayed (World.serves_of_faultless hplan _) hnow hvalue hlive storable_shown
      (by decide) (Settles.done _ _ _ _)
  have hbody : (finish strangerRequest ((granted ⟨true, 2, some newYear.stamp⟩).mark
      (Admission.conclude (.ok (.replayed shownRecord.toResponse))))).response.body.delivered =
        (shown, none) := Http.Body.delivered_ofBytes shown
  exact ⟨_, _, settles_counted (by decide) (by decide) (by decide) rfl rfl hplan hnow hdone rfl
    hreplayed, rfl, _, congrArg (Wait.nothing _) hmono, rfl, hbody⟩

/-- A visitor with a request, who comes at the start and stays. -/
def visiting (request : Http.Request) : Visitor := ⟨request, 0, none⟩

/-- The operator comes, and then the stranger. -/
def twoVisits : Chronicle Observed :=
  .of (office.begin (.start newYear none) .faultless
      [visiting operatorRequest, visiting strangerRequest])
    [.move (.resume 0), .move (.resume 1)]

/-- The `i`-th visitor was shown the use of the subject. -/
def IsShown (run : Chronicle Observed) (i : Nat) : Prop :=
  ∃ task observed, run.state.tasks[i]? = some task ∧ task.wait = .nothing (.result observed) 0 ∧
    observed.response.status = 200 ∧ observed.response.body.delivered = (shown, none)

/-- Both visitors are shown the same. -/
theorem twoVisits_shown : IsShown twoVisits 0 ∧ IsShown twoVisits 1 := by
  let first : State Observed := office.begin (.start newYear none) .faultless
    [visiting operatorRequest, visiting strangerRequest]
  rcases settles_operator (w := first.world) rfl with
    ⟨_, st, hsettles, howed, hplan, hclocks, ⟨recordedUntil, hrecorded, hvalue⟩,
      ⟨countedUntil, hcounted, hwindow⟩, observed, hwait, hstatus, hbody⟩
  rcases settles_stranger hplan hclocks hrecorded hvalue hcounted hwindow with
    ⟨_, st', hsettles', howed', observed', hwait', hstatus', hbody'⟩
  rcases resume_two (s := first) (t := (office.party (visiting operatorRequest)).task) rfl rfl
    hsettles howed rfl hsettles' howed' with ⟨_, hstate⟩
  unfold IsShown twoVisits
  rw [hstate]
  exact ⟨⟨_, observed, rfl, hwait, hstatus, hbody⟩, ⟨_, observed', rfl, hwait', hstatus', hbody'⟩⟩

/-- A stranger without the token is shown what the operator was shown. -/
theorem stranger_is_shown :
    office.adminToken = some "admin-secret" ∧
      Administration.presents "admin-secret" operatorRequest = true ∧
      office.Refuses strangerRequest ∧ IsShown twoVisits 0 ∧ IsShown twoVisits 1 :=
  ⟨rfl, Administration.presents_of_bearer (by decide), stranger_refused, twoVisits_shown⟩

/-- The stranger is not denied, since it is exposed to the record of what the
operator was shown. -/
theorem stranger_is_exposed :
    office.Refuses strangerRequest ∧
      office.Exposed [visiting operatorRequest, visiting strangerRequest] twoVisits.log 1
        (visiting strangerRequest) := by
  refine ⟨stranger_refused, ?_⟩
  rcases twoVisits_shown.2 with ⟨task, observed, htask, hwait, hstatus, _⟩
  have hiff := denied_iff_not_exposed [.move (.resume 0), .move (.resume 1)]
    (rfl : twoVisits = .of _ _) rfl stranger_refused htask hwait
  apply Classical.byContradiction
  intro hunexposed
  have hfailed := (hiff.2 hunexposed).1
  rw [hstatus] at hfailed
  exact nomatch hfailed

end Turnstile.Service

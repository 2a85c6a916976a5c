import Turnstile.Proofs.Json.Values
import Turnstile.Proofs.Limiter.Namespaces
import Turnstile.Proofs.Run.Prompt
import Turnstile.Proofs.Service.Charging
import Turnstile.Proofs.Service.Range
import Turnstile.Proofs.Store.Purging

/-!
# The view of the administration

An operator asks for a subject by a text in the path, and is itself counted like any
other caller before it is answered.  What it is shown is the counter that the limiter
charges for that subject, read at that instant: the stamps that still count, the one of
the operator's own request among them if it is the subject.  What it has forgotten is
that counter and no other.  This holds after any history of requests, whatever bytes the
name of the subject has, as long as the store answers.

Main results:

- Theorem `Subject.ofText_inFull`: the text of a subject, after its scope, is read back as
  the subject.
- Theorem `Usage.shownBy_of_body`: what is written of a use is read back, member for
  member.
- Theorem `usage_of_admitted`: an admitted request costs its caller one and nobody else
  anything.
- Theorem `used_le_limit`: in no run has anybody ever used more than its limit.
- Theorem `answered_once_charged`: an admitted operator is answered as its request is
  handled once it is charged.
- Theorem `operator_sees_counters`: what an operator is shown, and what it has forgotten.
-/

namespace Turnstile

open Run
open Store (Answer Call LocalStore)

/-! ## Subjects in paths -/

namespace Subject

/-- The text by which a subject is asked for: its scope, a colon and its text. -/
def inFull (s : Subject) : String :=
  s.scope ++ ":" ++ s.text

/-- A subject is named in full by its scope and its text, a colon between them. -/
theorem toList_inFull (s : Subject) : s.inFull.toList = s.scope.toList ++ ':' :: s.text.toList := by
  simp [inFull]

/-- The text of a subject after its scope is read back as the subject, whatever it
begins with. -/
theorem ofText_inFull (s : Subject) : ofText s.inFull = s := by
  cases s with
  | address text => simp [ofText, afterStart?, toList_inFull, scope, Subject.text]
  | identity text => simp [ofText, afterStart?, toList_inFull, scope, Subject.text]

end Subject

/-! ## What a response shows -/

/-- What a response shows under a name: the values under it in the data of the envelope
that its body is. -/
def Http.Response.shown (given : Http.Response) (name : String) : List Json.Value :=
  match Json.readAll (Json.readValue 128) given.body.bytes with
  | .ok whole => (whole.under "resp_data").flatMap (Json.Value.under name)
  | .error _ => []

/-- An envelope is read back with the data in it. -/
theorem reads_envelope {data : Bytes} {value : Json.Value} {depth : Nat}
    (h : Json.Reads (Json.readValue depth) data value) :
    Json.Reads (Json.readValue (depth + 1)) (envelope data) (.object
      [("code", .number (.natural 0)), ("msg", .text "success"), ("resp_data", value)]) :=
  Json.reads_object_value (.cons (Json.reads_number_value (Nat.zero_le _) depth)
    (.cons (Json.reads_text_value _ depth) (.cons h .nil)))

/-- What a response with an envelope shows is in its data. -/
theorem shown_envelope {data : Bytes} {value : Json.Value}
    (h : Json.Reads (Json.readValue 127) data value) {given : Http.Response}
    (hbody : given.body = .ofBytes (envelope data)) (name : String) :
    given.shown name = value.under name := by
  have hread := Json.readAll_of_reads (reads_envelope h)
  have hbytes : given.body.bytes = envelope data := by
    rw [hbody]
    exact congrArg Prod.fst (Http.Body.delivered_ofBytes (envelope data))
  unfold Http.Response.shown
  rw [hbytes, hread]
  simp [Json.Value.under]

namespace Usage

/-- A response shows a use: each member once, numbers as numbers. -/
structure ShownBy (u : Usage) (given : Http.Response) : Prop where
  subject : given.shown "subject" = [.text u.subject]
  key : given.shown "key" = [.text u.key]
  limit : given.shown "limit" = [.number (.natural u.limit)]
  used : given.shown "used" = [.number (.natural u.used)]
  remaining : given.shown "remaining" = [.number (.natural u.remaining)]
  resetAt : given.shown "reset_at" = [.text (Rfc3339.render u.resetAt)]

/-- What is written of a use is read back, if its numbers can be held in 64 bits. -/
theorem shownBy_of_body {u : Usage} (hlimit : u.limit < Config.countBound)
    (hused : u.used ≤ u.limit) (hremaining : u.remaining ≤ u.limit) {given : Http.Response}
    (hbody : given.body = .ofBytes (envelope u.render)) : u.ShownBy given := by
  have hmost : u.limit ≤ Json.maxSignificand := Nat.le_of_lt_succ hlimit
  have hreads : Json.Reads (Json.readValue 127) u.render (.object
      [("subject", .text u.subject), ("key", .text u.key), ("limit", .number (.natural u.limit)),
        ("used", .number (.natural u.used)), ("remaining", .number (.natural u.remaining)),
        ("reset_at", .text (Rfc3339.render u.resetAt))]) :=
    Json.reads_object_value (.cons (Json.reads_text_value _ _) (.cons (Json.reads_text_value _ _)
      (.cons (Json.reads_number_value hmost _)
        (.cons (Json.reads_number_value (Nat.le_trans hused hmost) _)
          (.cons (Json.reads_number_value (Nat.le_trans hremaining hmost) _)
            (.cons (Json.reads_text_value _ _) .nil))))))
  constructor <;> rw [shown_envelope hreads hbody] <;> simp [Json.Value.under]

end Usage

/-! ## Usage -/

namespace Store.LocalStore

variable {s s' : LocalStore} {now : Nat} {fresh : Token} {key : String} {stamp : Int}
  {window ttl : Span} {limit : Nat} {outcome : WindowOutcome}

/-- An admitted request costs its window one, and no other window anything. -/
theorem usage_of_admitted (hstamp : Timestamp.minStamp ≤ stamp) (httl : 0 < ttl.nanos)
    (hdone : s.perform now fresh (.recordInWindow key stamp window limit ttl) =
      .ok (.window outcome, s')) (hadmitted : outcome.admitted = true) (other : String) :
    s'.count now other stamp window =
      s.count now other stamp window + if other = key then 1 else 0 := by
  by_cases hother : other = key
  · subst hother
    rw [if_pos rfl, (tallies_of_perform hstamp httl hdone).after]
    rcases perform_record_cases hdone with ⟨_, hanswer, _⟩ | ⟨_, stamps, _, hanswer, _⟩
    · rw [Answer.window.inj hanswer] at hadmitted
      exact nomatch hadmitted
    · rw [Answer.window.inj hanswer, ← length_live]
  · have hspares : (Call.recordInWindow key stamp window limit ttl).SparesWindow other :=
      Ne.symm hother
    rw [if_neg hother, count_eq, count_eq, stampsAt_of_spares hdone hspares]
    rfl

end Store.LocalStore

namespace Service

/-- Who is charged for a request. -/
def caller (s : Service) (w : World) (request : Http.Request) : Subject :=
  s.admission.resolver.subject s.admission.perIdentity w.clocks.now request

/-- The stamps of the window of a subject that still count. -/
def liveStamps (s : Service) (w : World) (subject : Subject) : List Int :=
  (w.store.stampsAt w.mono (s.admission.limiter.keyFor subject)).filter
    (Store.windowStart w.clocks.now.stamp s.admission.limiter.config.window ≤ ·)

/-- The requests of a subject that still count. -/
def used (s : Service) (w : World) (subject : Subject) : Nat :=
  (s.liveStamps w subject).length

/-- Nothing of a subject counts, whatever the clocks show. -/
def Forgets (s : Service) (w : World) (subject : Subject) : Prop :=
  ∀ clocks, s.used { w with clocks := clocks } subject = 0

/-- The limiter admits a request: the store answers its question so. -/
def Admits (s : Service) (w : World) (request : Http.Request) : Prop :=
  ∃ ttl outcome charged,
    s.admission.limiter.config.window.add? s.admission.limiter.config.safetyMargin = some ttl ∧
    w.store.perform w.mono (.issued (w.tokens + 1))
      (s.admission.limiter.asking (s.caller w request) w.clocks.now ttl) =
        .ok (.window outcome, charged) ∧
    outcome.admitted = true

/-- An operator asks for a subject: the request presents the token of the administration,
has the subject as the last segment of its path, and carries no token of its own. -/
structure AsksFor (s : Service) (request : Http.Request) (subject : Subject) : Prop where
  presents : ∃ token, s.adminToken = some token ∧ Administration.presents token request = true
  path : ∃ segment, request.path.toList = Route.administration ++ segment ∧ '/' ∉ segment ∧
    Http.Percent.decodeText? segment = some subject.inFull
  keyless : Admission.carried request.headers = .nothing

/-- The path by which a subject is asked for, with every byte of its text in digits. -/
def pathOf (subject : Subject) : String :=
  String.ofList (Route.administration ++ Http.Percent.encode (Bytes.ofText subject.inFull))

/-- Every subject has such a path. -/
theorem exists_segment_pathOf (subject : Subject) :
    ∃ segment, (pathOf subject).toList = Route.administration ++ segment ∧ '/' ∉ segment ∧
      Http.Percent.decodeText? segment = some subject.inFull := by
  refine ⟨_, String.toList_ofList, ?_, Http.Percent.decodeText?_encode _⟩
  have hdigit : ∀ n < 16, Bytes.hexDigit n ≠ '/' := by decide
  intro hmem
  obtain ⟨b, -, hb⟩ := List.mem_flatMap.mp hmem
  have hlt := b.toNat_lt
  have hhigh := hdigit (b.toNat / 16) (by omega)
  have hlow := hdigit (b.toNat % 16) (Nat.mod_lt _ (by decide))
  simp [hhigh.symm, hlow.symm] at hb

section

variable {s : Service} {request : Http.Request} {subject : Subject}

/-- The request of an operator leads to the subject. -/
theorem AsksFor.route (h : s.AsksFor request subject) : ∃ token segment,
    s.adminToken = some token ∧ Administration.presents token request = true ∧
    s.route request = .subject segment ∧
    Http.Percent.decodeText? segment = some subject.inFull := by
  obtain ⟨token, htoken, hpresents⟩ := h.presents
  obtain ⟨segment, hpath, hslash, hdecodes⟩ := h.path
  refine ⟨token, segment, htoken, hpresents, ?_, hdecodes⟩
  have hne : ∀ fixed : String, ¬ Route.administration <+: fixed.toList → request.path ≠ fixed :=
    fun fixed hfixed heq => hfixed ⟨segment, by rw [← hpath, heq]⟩
  have hhealth : request.path ≠ "/health" := hne _ (by decide)
  have hpayments : request.path ≠ "/payments" := hne _ (by decide)
  have hsome : segment ≠ [] := by
    rintro rfl
    have hempty : Http.Percent.decodeText? [] = some "" := Bytes.text?_ofText ""
    rw [hempty, Option.some_inj] at hdecodes
    have htext := congrArg String.toList hdecodes
    rw [Subject.toList_inFull] at htext
    simp at htext
  unfold Service.route Route.ofPath
  dsimp only
  rw [if_neg hhealth, if_neg hpayments, hpath, List.drop_left, htoken]
  simp [hsome, hslash]

/-- An operator who asks with GET is shown the use of the subject. -/
theorem AsksFor.handle_get (h : s.AsksFor request subject) (hmethod : request.method = .get) :
    s.handle request = Administration.showUsage s.admission.limiter subject.inFull := by
  obtain ⟨token, segment, htoken, hpresents, hroute, hdecodes⟩ := h.route
  unfold handle
  rw [hroute, htoken]
  show Administration.guarded token _ segment request = _
  unfold Administration.guarded Administration.handle Administration.withText
  rw [if_pos hpresents, if_pos (.inl hmethod), hdecodes]

/-- An operator who asks with DELETE has the subject forgotten. -/
theorem AsksFor.handle_delete (h : s.AsksFor request subject)
    (hmethod : request.method = .delete) :
    s.handle request = Administration.forget s.admission.limiter subject.inFull := by
  obtain ⟨token, segment, htoken, hpresents, hroute, hdecodes⟩ := h.route
  have hother : ¬ (request.method = .get ∨ request.method = .head) := by
    rw [hmethod]
    decide
  unfold handle
  rw [hroute, htoken]
  show Administration.guarded token _ segment request = _
  unfold Administration.guarded Administration.handle Administration.withText
  rw [if_pos hpresents, if_neg hother, if_pos hmethod, hdecodes]

/-- A request without a token of its own is handled as it is. -/
theorem coordinate_keyless (a : Admission) (next : Next)
    (h : Admission.carried request.headers = .nothing) :
    a.coordinate next request = (next request).bind fun response =>
      .done (Admission.markReplayed false response) := by
  unfold Admission.coordinate
  rw [h]
  show ((next request).bind _).bind _ = _
  rw [Program.bind_assoc]
  rfl

end

/-! ## What an operator is told -/

section

variable {s : Service} {w : World} {request : Http.Request} {subject : Subject}

/-- What an operator is to be shown of a subject. -/
def usageOf (s : Service) (w : World) (subject : Subject) : Usage :=
  let limit := s.admission.limiter.limitFor subject
  ⟨subject.inFull, s.admission.limiter.keyFor subject, limit, s.used w subject,
    limit - s.used w subject, s.admission.limiter.resetFrom w.clocks.now⟩

/-- The number of live stamps is what the store counts. -/
theorem used_eq_count (s : Service) (w : World) (subject : Subject) : s.used w subject =
    w.store.count w.mono (s.admission.limiter.keyFor subject) w.clocks.now.stamp
      s.admission.limiter.config.window :=
  LocalStore.length_live _ _ _ _ _

/-- Counting goes by the store and the clocks. -/
theorem used_congr {w' : World} (hstore : w'.store = w.store) (hclocks : w'.clocks = w.clocks)
    (subject : Subject) : s.used w' subject = s.used w subject := by
  simp only [used_eq_count, World.mono, hstore, hclocks]

/-- What a subject has used depends on the store and the clocks only. -/
theorem usageOf_congr {w' : World} (hstore : w'.store = w.store) (hclocks : w'.clocks = w.clocks)
    (subject : Subject) : s.usageOf w' subject = s.usageOf w subject := by
  simp only [usageOf, used_congr hstore hclocks, hclocks]

/-- An admitted request costs its caller one, and nobody else anything. -/
theorem used_of_charged {ttl : Span} {outcome : Store.WindowOutcome} {charged : LocalStore}
    (httl : 0 < ttl.nanos)
    (hdone : w.store.perform w.mono (.issued (w.tokens + 1))
      (s.admission.limiter.asking (s.caller w request) w.clocks.now ttl) =
        .ok (.window outcome, charged)) (hadmitted : outcome.admitted = true) {w' : World}
    (hstore : w'.store = charged) (hclocks : w'.clocks = w.clocks) (other : Subject) :
    s.used w' other = s.used w other + if other = s.caller w request then 1 else 0 := by
  have hkey : s.admission.limiter.keyFor other = s.admission.limiter.keyFor (s.caller w request) ↔
      other = s.caller w request := s.admission.limiter.ns.key_inj
  have hcount := LocalStore.usage_of_admitted (Limiter.minStamp_le_stamp w.clocks.now) httl hdone
    hadmitted (s.admission.limiter.keyFor other)
  rw [used_eq_count, used_eq_count, World.mono, hstore, hclocks]
  simpa only [hkey, World.mono] using hcount

/-- The limiter admits a request whose caller has room, where what is noted of it is in
range. -/
theorem admits_of_room {ttl : Span}
    (httl : s.admission.limiter.config.window.add? s.admission.limiter.config.safetyMargin = some ttl)
    (hpositive : 0 < ttl.nanos)
    (hroom : s.used w (s.caller w request) < s.admission.limiter.limitFor (s.caller w request))
    (hrange : w.clocks.now.stamp + s.admission.limiter.limitFor (s.caller w request) ≤
      Timestamp.maxStamp) (hend : w.mono + ttl.nanos < Moment.bound) : s.Admits w request := by
  rw [used_eq_count] at hroom
  obtain ⟨outcome, charged, hdone⟩ := w.store.exists_outcome_of_count (.issued (w.tokens + 1))
    (.inr ⟨hrange, hend⟩)
  have htallies := LocalStore.tallies_of_perform (Limiter.minStamp_le_stamp w.clocks.now) hpositive
    hdone
  exact ⟨ttl, outcome, charged, httl, hdone, htallies.admitted_iff.mpr hroom⟩

/-- A subject that is forgotten has used nothing, and every other one what it had. -/
theorem used_of_forgotten {w' : World}
    (hstore : w'.store = w.store.delete (s.admission.limiter.keyFor subject))
    (hclocks : w'.clocks = w.clocks) (other : Subject) :
    s.used w' other = if other = subject then 0 else s.used w other := by
  have hkey : s.admission.limiter.keyFor other = s.admission.limiter.keyFor subject ↔
      other = subject := s.admission.limiter.ns.key_inj
  unfold used liveStamps
  rw [World.mono, hstore, hclocks, LocalStore.stampsAt_delete]
  simp only [hkey]
  by_cases hother : other = subject
  · simp [hother]
  · rw [if_neg hother, if_neg hother]
    rfl

/-- A response that reports no failure of the server leaves as it is, unless HEAD was
asked. -/
theorem finish_response {response : Http.Response}
    (hstatus : Http.isServerError response.status = false) (hmethod : request.method ≠ .head) :
    (finish request response).response = response := by
  simp [finish, ErrorLog.observe, hstatus, Http.Response.forMethod, hmethod]

/-- An admitted request without a token of its own is charged, and then handled. -/
theorem settles_admitted (hroute : s.route request ≠ .health)
    (hkeyless : Admission.carried request.headers = .nothing) (hplan : w.plan = .faultless)
    {ttl : Span} {outcome : Store.WindowOutcome} {charged : LocalStore}
    (httl : s.admission.limiter.config.window.add? s.admission.limiter.config.safetyMargin = some ttl)
    (hdone : w.store.perform w.mono (.issued (w.tokens + 1))
      (s.admission.limiter.asking (s.caller w request) w.clocks.now ttl) =
        .ok (.window outcome, charged)) (hadmitted : outcome.admitted = true) {notes : List Note}
    {standing : Standing Observed}
    (h : Settles noHandler
      (w.afterCall (s.admission.limiter.asking (s.caller w request) w.clocks.now ttl) charged) none
      ((s.handle request).bind fun response => .done (finish request
        ((s.admission.limiter.granting (s.caller w request) w.clocks.now outcome).mark
          (Admission.markReplayed false response)))) notes standing) :
    Settles noHandler w none (s.respond request)
      (notes ++ s.admission.limiter.asked (s.caller w request) w.clocks.now ttl outcome ++
        [.read w.clocks.now]) standing := by
  let caller := s.caller w request
  let decision := s.admission.limiter.granting caller w.clocks.now outcome
  let after : Except Store.Error Decision → Program Observed := fun answer =>
    (s.admission.afterLimiter caller s.handle request answer).bind fun response =>
      .done (finish request response)
  have hgoes : (s.admission.limiter.decide caller (s.admission.limiter.limitFor caller) w.clocks.now
        outcome).bind (fun decision => after (.ok decision)) =
      (s.handle request).bind fun response => .done (finish request
        (decision.mark (Admission.markReplayed false response))) := by
    rw [Limiter.decide_of_admitted _ _ _ hadmitted]
    show ((s.admission.coordinate s.handle request).bind fun response =>
      .done (decision.mark response)).bind _ = _
    rw [coordinate_keyless _ _ hkeyless, Program.bind_assoc, Program.bind_assoc]
    rfl
  have hrespond : s.respond request = .now fun now =>
      (s.admission.limiter.allow (s.admission.resolver.subject s.admission.perIdentity now request)).bind
        fun answer => (s.admission.afterLimiter
          (s.admission.resolver.subject s.admission.perIdentity now request) s.handle request
            answer).bind fun response => .done (finish request response) := by
    rw [respond_eq hroute]
    exact congrArg Program.now (funext fun now => Program.bind_assoc _ _ _)
  rw [hrespond]
  exact Settles.now rfl (Limiter.settles_allow_bind (World.serves_of_faultless hplan _) rfl httl hdone
    (hgoes ▸ h))

/-- What is shown of a subject is read off its counter. -/
theorem settles_showUsage (hplan : w.plan = .faultless) (subject : Subject)
    (tell : Http.Response → Observed) : ∃ notes w',
    Settles noHandler w none
      ((Administration.showUsage s.admission.limiter subject.inFull).bind fun response =>
        .done (tell response)) notes
      ⟨.nothing (.result (tell (.json 200 (envelope (s.usageOf w subject).render)))) w.mono, none,
        w'⟩ ∧ w'.store = w.store ∧ w'.clocks = w.clocks := by
  let call : Call := .countInWindow (s.admission.limiter.keyFor subject) w.clocks.now.stamp
    s.admission.limiter.config.window
  have hdone : w.store.perform w.mono (.issued (w.tokens + 1)) call =
      .ok (.count (s.used w subject), w.store) := by
    rw [used_eq_count]
    rfl
  have hshown : Settles noHandler w none
      ((Administration.showUsage s.admission.limiter subject.inFull).bind fun response =>
        .done (tell response))
      ([.ended] ++ [.read w.clocks.now] ++ [.told call (.ok (.count (s.used w subject))),
        .done call (.count (s.used w subject)), .sent call] ++ [.read w.clocks.now])
      ⟨.nothing (.result (tell (.json 200 (envelope (s.usageOf w subject).render)))) w.mono, none,
        w.afterCall call w.store⟩ := by
    unfold Administration.showUsage
    rw [Subject.ofText_inFull]
    exact Settles.now rfl (Settles.call (World.serves_of_faultless hplan _) hdone
      (Settles.now rfl (Settles.done _ _ _ _)))
  exact ⟨_, _, hshown, rfl, rfl⟩

/-- What is forgotten of a subject is its counter. -/
theorem settles_forget (hplan : w.plan = .faultless) (subject : Subject)
    (tell : Http.Response → Observed) : ∃ notes w',
    Settles noHandler w none
      ((Administration.forget s.admission.limiter subject.inFull).bind fun response =>
        .done (tell response)) notes
      ⟨.nothing (.result (tell (.ofStatus 204))) w.mono, none, w'⟩ ∧
    w'.store = w.store.delete (s.admission.limiter.keyFor subject) ∧ w'.clocks = w.clocks := by
  let call : Call := .delete (s.admission.limiter.keyFor subject)
  let store := w.store.delete (s.admission.limiter.keyFor subject)
  have hforgotten : Settles noHandler w none
      ((Administration.forget s.admission.limiter subject.inFull).bind fun response =>
        .done (tell response)) ([.ended] ++ [.told call (.ok .done), .done call .done, .sent call])
      ⟨.nothing (.result (tell (.ofStatus 204))) w.mono, none, w.afterCall call store⟩ := by
    unfold Administration.forget
    rw [Subject.ofText_inFull]
    exact Settles.call (World.serves_of_faultless hplan _) rfl (Settles.done _ _ _ _)
  exact ⟨_, _, hforgotten, rfl, rfl⟩

end

/-! ## In every run -/

/-- The visitor in a place has been answered with a response. -/
def Answered (run : Chronicle Observed) (i : Nat) (response : Http.Response) : Prop :=
  ∃ task observed time, run.state.tasks[i]? = some task ∧
    task.wait = .nothing (.result observed) time ∧ observed.response = response

section

variable {s : Service} {v : Visitor} {h : Chronicle Observed} {i : Nat} {subject : Subject}

/-- The limiter of given settings keeps what it charges for some time. -/
theorem ttl_pos {c : Config} (hs : s = .ofConfig c) {ttl : Span}
    (httl : s.admission.limiter.config.window.add? s.admission.limiter.config.safetyMargin = some ttl) :
    0 < ttl.nanos := by
  subst hs
  have hadd := (Config.window_add? c).symm.trans httl
  split at hadd
  · rw [← Option.some.inj hadd]
    show 0 < (c.rateWindowSeconds + 1) * 1_000_000_000
    omega
  · exact nomatch hadd

/-- A visitor who is resumed for the first time and settles with a result is answered with
it. -/
theorem answered_of_settles {notes : List Note} {observed : Observed} {time : Nat} {w : World}
    (hwaits : h.state.tasks[i]? = some (s.party v).task)
    (hsettles : Settles noHandler h.state.world none (s.respond v.request) notes
      ⟨.nothing (.result observed) time, none, w⟩) :
    Answered (h.after (.move (.resume i))) i observed.response ∧
      (h.after (.move (.resume i))).state.world = w := by
  have hresumed := (resume_settled hwaits rfl hsettles fun _ => rfl).2
  have hlt : i < h.state.tasks.length := (List.getElem?_eq_some_iff.1 hwaits).1
  have hstate : (h.after (.move (.resume i))).state = h.state.apply (.resume i) := rfl
  rw [Answered, hstate, hresumed]
  exact ⟨⟨_, observed, time, List.getElem?_set_self hlt, rfl, rfl⟩, rfl⟩

/-- In no run has anybody ever used more than its limit. -/
theorem used_le_limit {clocks : Clocks} {plan : Plan} {visitors : List Visitor}
    {happenings : List Happening} {run : Chronicle Observed}
    (hrun : run = .of (s.begin clocks plan visitors) happenings) (subject : Subject) :
    s.used run.state.world subject ≤ s.admission.limiter.limitFor subject := by
  subst hrun
  let run : Chronicle Observed := .of (s.begin clocks plan visitors) happenings
  have hran := (chronicle_kept (s.begin clocks plan visitors) happenings).ran rfl
  have hlimits : ∀ d ∈ deeds run.log, ∀ stamp window limit ttl, d.call =
      .recordInWindow (s.admission.limiter.keyFor subject) stamp window limit ttl →
      limit ≤ s.admission.limiter.limitFor subject := by
    intro d hd stamp window limit ttl hcall
    obtain ⟨who, past, htold⟩ := exists_of_mem_deeds hd
    rw [hcall] at htold
    obtain ⟨charged, hkey, rfl⟩ :=
      limit_of_record (s.account clocks plan visitors happenings) htold
    rw [s.admission.limiter.ns.key_inj.1 hkey]
  exact Nat.le_trans (List.length_filter_le _ _) (hran.length_stampsAt_le (Nat.le_refl _) hlimits)

/-- An operator that the limiter admits is charged, and answered as its request is handled
after that. -/
theorem answered_once_charged {c : Config} (hs : s = .ofConfig c)
    (hplan : h.state.world.plan = .faultless)
    (hwaits : h.state.tasks[i]? = some (s.party v).task) (hasks : s.AsksFor v.request subject)
    (hadmits : s.Admits h.state.world v.request) :
    ∃ (w : World) (tell : Http.Response → Observed),
      w.plan = .faultless ∧ w.clocks = h.state.world.clocks ∧
      (∀ other, s.used w other = s.used h.state.world other +
        if other = s.caller h.state.world v.request then 1 else 0) ∧
      ∀ {notes response w'}, Http.isServerError response.status = false →
        v.request.method ≠ .head →
        Settles noHandler w none ((s.handle v.request).bind fun response => .done (tell response))
          notes ⟨.nothing (.result (tell response)) w.mono, none, w'⟩ →
        (∃ answer, Answered (h.after (.move (.resume i))) i answer ∧
          answer.status = response.status ∧ answer.body = response.body) ∧
        (h.after (.move (.resume i))).state.world = w' := by
  obtain ⟨ttl, outcome, charged, httl, hdone, hadmitted⟩ := hadmits
  have hroute : s.route v.request ≠ .health := by
    obtain ⟨_, _, _, _, hroute, _⟩ := hasks.route
    rw [hroute]
    exact nofun
  let caller := s.caller h.state.world v.request
  let marked : Http.Response → Http.Response := fun response =>
    (s.admission.limiter.granting caller h.state.world.clocks.now outcome).mark
      (Admission.markReplayed false response)
  refine ⟨h.state.world.afterCall (s.admission.limiter.asking caller h.state.world.clocks.now ttl)
    charged, fun response => finish v.request (marked response), hplan, rfl,
    used_of_charged (ttl_pos hs httl) hdone hadmitted rfl rfl, ?_⟩
  intro notes response w' hstatus hmethod hhandled
  have hsettles := settles_admitted hroute hasks.keyless hplan httl hdone hadmitted hhandled
  obtain ⟨hanswered, hworld⟩ := answered_of_settles hwaits hsettles
  have hwhole : (finish v.request (marked response)).response = marked response :=
    finish_response hstatus hmethod
  rw [hwhole] at hanswered
  exact ⟨⟨_, hanswered, rfl, rfl⟩, hworld⟩

/-- After any history, an operator that the limiter admits is shown what the subject has
used and what remains of its limit, its own request counted if it is the subject, or has the
subject forgotten.  Either way its own request is all that is charged, and it is charged to
nobody else.  A limit is a number of 64 bits. -/
theorem operator_sees_counters {c : Config} (hs : s = .ofConfig c) {clocks : Clocks}
    {visitors : List Visitor} {happenings : List Happening} {run next : Chronicle Observed}
    (hrun : run = .of (s.begin clocks .faultless visitors) happenings)
    (hwaits : run.state.tasks[i]? = some (s.party v).task) (hasks : s.AsksFor v.request subject)
    (hlimit : s.admission.limiter.limitFor subject < Config.countBound)
    (hadmits : s.Admits run.state.world v.request)
    (hnext : next = run.after (.move (.resume i))) :
    (v.request.method = .get →
      next.state.world.clocks = run.state.world.clocks ∧
      (∃ response, Answered next i response ∧ response.status = 200 ∧
        (s.usageOf next.state.world subject).ShownBy response) ∧
      ∀ other, s.used next.state.world other = s.used run.state.world other +
        if other = s.caller run.state.world v.request then 1 else 0) ∧
    (v.request.method = .delete →
      next.state.world.clocks = run.state.world.clocks ∧
      (∃ response, Answered next i response ∧ response.status = 204) ∧
      s.Forgets next.state.world subject ∧
      ∀ other, other ≠ subject → s.used next.state.world other = s.used run.state.world other +
        if other = s.caller run.state.world v.request then 1 else 0) := by
  have hfaultless : run.state.world.plan = .faultless := by
    rw [hrun]
    exact chronicle_plan _ _
  obtain ⟨w, tell, hplan, hsame, hcharged, hanswers⟩ :=
    answered_once_charged hs hfaultless hwaits hasks hadmits
  have hnextRun : next = .of (s.begin clocks .faultless visitors)
      (happenings ++ [.move (.resume i)]) := by
    rw [hnext, hrun, Chronicle.of, Chronicle.of, List.foldl_append]
    rfl
  have hused := used_le_limit hnextRun subject
  subst hnext
  constructor
  · intro hmethod
    have hbody : v.request.method ≠ .head := by rw [hmethod]; decide
    obtain ⟨notes, w', hshown, hstore, hclocks⟩ :=
      settles_showUsage (s := s) hplan subject tell
    rw [← hasks.handle_get hmethod] at hshown
    obtain ⟨⟨answer, hanswered, hstatus, hshows⟩, hworld⟩ := hanswers rfl hbody hshown
    rw [hworld, used_congr hstore hclocks] at hused
    rw [hworld, usageOf_congr hstore hclocks]
    refine ⟨hclocks.trans hsame, ⟨answer, hanswered, hstatus, ?_⟩, fun other => ?_⟩
    · exact Usage.shownBy_of_body hlimit hused (Nat.sub_le _ _) hshows
    · rw [used_congr hstore hclocks, hcharged]
  · intro hmethod
    have hbody : v.request.method ≠ .head := by rw [hmethod]; decide
    obtain ⟨notes, w', hforgotten, hstore, hclocks⟩ :=
      settles_forget (s := s) hplan subject tell
    rw [← hasks.handle_delete hmethod] at hforgotten
    obtain ⟨⟨answer, hanswered, hstatus, -⟩, hworld⟩ := hanswers rfl hbody hforgotten
    rw [hworld]
    refine ⟨hclocks.trans hsame, ⟨answer, hanswered, hstatus⟩, fun clocks' => ?_,
      fun other hother => ?_⟩
    · have hlater : ({ w' with clocks := clocks' } : World).store =
          ({ w with clocks := clocks' } : World).store.delete
            (s.admission.limiter.keyFor subject) := hstore
      rw [used_of_forgotten hlater rfl, if_pos rfl]
    · rw [used_of_forgotten hstore hclocks, if_neg hother, hcharged]

end

/-! ## An address that reads like a name -/

/-- The address of the operator reads like the name of somebody else. -/
def lookalikeHeaders : Http.Headers :=
  .ofList [("authorization", Bytes.ofText "Bearer admin-secret"),
    ("x-real-ip", Bytes.ofText "user:7")]

/-- The operator asks for itself. -/
def lookalike (method : Http.Method) : Visitor :=
  ⟨⟨method, pathOf (.address "user:7"), lookalikeHeaders, .empty, none⟩, 0, none⟩

theorem lookalike_asks (method : Http.Method) :
    office.AsksFor (lookalike method).request (.address "user:7") where
  presents := by
    have hbearer : Http.bearer? lookalikeHeaders = some "admin-secret" := by decide
    exact ⟨"admin-secret", rfl, Administration.presents_of_bearer hbearer⟩
  path := exists_segment_pathOf _
  keyless := by
    have hnothing : Admission.carried lookalikeHeaders = .nothing := by decide
    exact hnothing

/-- The operator has looked once, and is to come again. -/
def lookedOnce (method : Http.Method) : Chronicle Observed :=
  .of (office.begin (.start newYear none) .faultless [lookalike .get, lookalike method])
    [.move (.resume 0)]

theorem lookedOnce_waits (method : Http.Method) :
    (lookedOnce method).state.tasks[1]? = some (office.party (lookalike method)).task := by
  let s : State Observed := office.begin (.start newYear none) .faultless
    [lookalike .get, lookalike method]
  have htasks : (lookedOnce method).state.tasks = s.tasks.set 0 _ := tasks_place s 0 _ _
  rw [htasks, List.getElem?_set_ne Nat.zero_ne_one]
  rfl

theorem lookedOnce_admits {method : Http.Method} (h : method = .get ∨ method = .delete) :
    office.Admits (lookedOnce method).state.world (lookalike method).request := by
  have httl : office.admission.limiter.config.window.add?
      office.admission.limiter.config.safetyMargin = some officeTtl := by decide
  rcases h with rfl | rfl
  all_goals
    refine admits_of_room httl (by decide) ?_ ?_ ?_
    · decide +kernel
    · decide +kernel
    · decide +kernel

/-- Asking again, the operator finds both of its requests; deleting, it leaves none. -/
theorem lookalike_finds_itself :
    (∃ response, Answered ((lookedOnce .get).after (.move (.resume 1))) 1 response ∧
      response.status = 200 ∧ response.shown "subject" = [.text "ip:user:7"] ∧
      response.shown "limit" = [.number (.natural 100)] ∧
      response.shown "used" = [.number (.natural 2)] ∧
      response.shown "remaining" = [.number (.natural 98)]) ∧
    office.used (lookedOnce .delete).state.world (.address "user:7") = 1 ∧
    office.Forgets ((lookedOnce .delete).after (.move (.resume 1))).state.world (.address "user:7") := by
  have hoffice : office = .ofConfig { Config.standard with adminToken := some "admin-secret" } := rfl
  have hrun : ∀ method, lookedOnce method = .of (office.begin (.start newYear none) .faultless
      [lookalike .get, lookalike method]) [.move (.resume 0)] := fun _ => rfl
  have hnext : ∀ method, (lookedOnce method).after (.move (.resume 1)) =
      (lookedOnce method).after (.move (.resume 1)) := fun _ => rfl
  have hget := operator_sees_counters hoffice (hrun .get) (lookedOnce_waits .get)
    (lookalike_asks .get) (by decide) (lookedOnce_admits (.inl rfl)) (hnext .get)
  have hdelete := operator_sees_counters hoffice (hrun .delete) (lookedOnce_waits .delete)
    (lookalike_asks .delete) (by decide) (lookedOnce_admits (.inr rfl)) (hnext .delete)
  have husage : office.usageOf ((lookedOnce .get).after (.move (.resume 1))).state.world
      (.address "user:7") = ⟨"ip:user:7", "rate_limit:ip:user:7", 100, 2, 98,
        newYear.addSaturating (.ofSeconds 60)⟩ := by decide +kernel
  obtain ⟨response, hanswered, hstatus, hshown⟩ := (hget.1 rfl).2.1
  rw [husage] at hshown
  exact ⟨⟨response, hanswered, hstatus, hshown.subject, hshown.limit, hshown.used,
    hshown.remaining⟩, by decide +kernel, (hdelete.2 rfl).2.2.1⟩

end Service

end Turnstile

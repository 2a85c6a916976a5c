import Turnstile.Proofs.Config.Reading
import Turnstile.Proofs.Limiter.Retry
import Turnstile.Proofs.Run.Endurance
import Turnstile.Proofs.Service.Visitors

/-!
# Settings with which no request breaks off

Every number that a setting can have is accepted, also one that makes a span which does
not end in the range of the clock.  Where the three spans that the store notes, those of
a window with its margin, of a lock and of a record, end in range as long as the service
runs, no request breaks off, whatever the store and the clocks do.  Where one of them
does not, the first payment breaks off, if payments are let through and guarded; and if
it is the span of a record, then after the payment was made.

Main results:

- Theorem `respond_endures`: no request breaks off where the spans end in range.
- Theorem `payment_breaks`: a payment does where one of them does not.
- Theorem `breaks_off_iff_out_of_range`: what this says of every accepted environment.
-/

namespace Turnstile

open Run
open Store (Answer Call Reach)

/-! ## Executing -/

namespace Once

variable {r : Reach} {cfg : Config} {key : OperationKey} {run : Program Http.Response}

/-- The spans of an execution end in range. -/
structure Config.InReach (cfg : Config) (r : Reach) : Prop where
  lock : r.Spans cfg.lockTtl
  record : r.Spans cfg.cacheTtl

/-- A look-up goes on in range. -/
theorem lookup_endures : Endures r 0 (lookup cfg key) :=
  fun _ _ => ⟨trivial, Nat.le_refl 0, fun _ => trivial⟩

/-- So does a release. -/
theorem release_endures (token : Store.Token) : Endures r 0 (release cfg key token) :=
  ⟨trivial, Nat.le_refl 0, fun _ => trivial⟩

/-- So does a run without a guard, if its handler does. -/
theorem bypass_endures (hrun : Endures r 0 run) : Endures r 0 (bypass run) :=
  hrun.andThen fun _ => trivial

/-- So does what follows a failure of the store. -/
theorem onStoreFailure_endures (hrun : Endures r 0 run) (error : Store.Error) :
    Endures r 0 (onStoreFailure cfg error run) := by
  show Endures r 0 (.emit _ (if cfg.failurePolicy = .failOpen then bypass run else _))
  by_cases hopen : cfg.failurePolicy = .failOpen
  · rw [if_pos hopen]
    exact bypass_endures hrun
  · rw [if_neg hopen]
    exact trivial

/-- Recording a response goes on in range, if records can be kept so long. -/
theorem capture_endures (h : cfg.InReach r) (response : Http.Response) :
    Endures r 0 (capture cfg key response) := by
  rcases capture_eq cfg key response with ⟨_, body, _, heq⟩ | ⟨bytes, _, heq⟩
  · rw [heq]
    exact trivial
  · rw [heq]
    exact fun _ _ => ⟨h.record, Nat.le_refl 0, fun _ => trivial⟩

/-- So does a run of the handler under the lock. -/
theorem runHandler_endures (h : cfg.InReach r) (hrun : Endures r 0 run) (token : Store.Token) :
    Endures r 0 (runHandler cfg key run token) := by
  refine hrun.andThen fun response => ?_
  refine (capture_endures h response).andThen fun _ => ?_
  exact (release_endures token).andThen fun _ => trivial

/-- So does all that is done under the lock. -/
theorem underLock_endures (h : cfg.InReach r) (hrun : Endures r 0 run) (token : Store.Token) :
    Endures r 0 (underLock cfg key run token) := by
  refine ⟨⟨trivial, rfl⟩, lookup_endures.andThen fun found => ?_⟩
  cases found with
  | error error => exact (release_endures token).andThen fun _ => onStoreFailure_endures hrun error
  | ok found =>
      cases found with
      | none => exact runHandler_endures h hrun token
      | some record => exact (release_endures token).andThen fun _ => trivial

/-- So does waiting for the holder of the lock. -/
theorem awaitHolder_endures : Endures r 0 (awaitHolder cfg key) := by
  refine lookup_endures.andThen fun found => ?_
  cases found with
  | error error => exact trivial
  | ok found => cases found <;> exact trivial

/-- Executing a handler at most once does not break off where the handler does not. -/
theorem guarded_endures (h : cfg.InReach r) (hrun : Endures r 0 run) :
    Endures r 0 (guarded cfg key run) := by
  refine lookup_endures.andThen fun found => ?_
  cases found with
  | error error => exact onStoreFailure_endures hrun error
  | ok found =>
      cases found with
      | some record => exact trivial
      | none =>
          refine ⟨h.lock, Nat.le_refl 0, fun result => ?_⟩
          cases result with
          | error error => exact onStoreFailure_endures hrun error
          | ok answer =>
              simp only [Except.map, Program.bind]
              cases tokenOf answer with
              | none => exact awaitHolder_endures
              | some token => exact underLock_endures h hrun token

end Once

/-! ## Counting -/

/-- What the clock may show leaves a nanosecond for each request. -/
theorem stamp_add_le {r : Reach} {now : Timestamp} (h : MayShow r now) :
    now.stamp + r.requests ≤ Timestamp.maxStamp := by
  rcases h with ⟨hfirst, hlast⟩
  have hrange : Timestamp.minStamp ≤ now.totalNanos ∧ now.totalNanos ≤ Timestamp.maxStamp := by
    unfold Timestamp.minStamp
    omega
  rw [Limiter.stamp_eq_totalNanos hrange]
  exact hlast

/-- Asking for room counts one request. -/
theorem Limiter.allow_endures {r : Reach} (l : Limiter) (subject : Subject) {ttl : Span}
    (httl : l.config.window.add? l.config.safetyMargin = some ttl) (hspans : r.Spans ttl) :
    Endures r 1 (l.allow subject) := by
  rw [allow_eq, httl]
  refine fun now hnow => ⟨⟨stamp_add_le hnow, hspans⟩, Nat.le_refl 1, fun result => ?_⟩
  cases result with
  | error error =>
      rcases l.onStoreFailure_eq (l.limitFor subject) now error with ⟨event, answer, heq⟩
      simp only [heq]
      exact trivial
  | ok answer =>
      rcases l.decide_eq subject (l.limitFor subject) now (outcomeOf answer) with
        ⟨decision, heq⟩ | ⟨event, decision, heq⟩
      · simp only [heq]
        exact trivial
      · simp only [heq]
        exact trivial

/-! ## Handlers -/

section

variable {r : Reach}

/-- A payment goes on in range. -/
theorem Payment.handle_endures (request : Http.Request) : Endures r 0 (handle request) := by
  unfold handle
  cases PaymentRequest.ofHttp request with
  | error rejection => exact trivial
  | ok wanted => exact fun _ _ _ => trivial

namespace Administration

/-- So does an answer for the text of a segment, if it does for every text. -/
theorem withText_endures {segment : List Char} {answer : String → Program Http.Response}
    (h : ∀ text, Endures r 0 (answer text)) : Endures r 0 (withText segment answer) := by
  unfold withText
  cases Http.Percent.decodeText? segment with
  | none => exact trivial
  | some text => exact h text

/-- So does showing the use of a subject. -/
theorem showUsage_endures (l : Limiter) (text : String) : Endures r 0 (showUsage l text) := by
  refine fun now _ => ⟨trivial, Nat.le_refl 0, fun result => ?_⟩
  cases result with
  | error error => exact trivial
  | ok answer => exact fun _ _ => trivial

/-- So does forgetting a subject. -/
theorem forget_endures (l : Limiter) (text : String) : Endures r 0 (forget l text) := by
  refine ⟨trivial, Nat.le_refl 0, fun result => ?_⟩
  cases result with
  | error error => exact trivial
  | ok answer => exact trivial

/-- So does the administration. -/
theorem guarded_endures (token : String) (l : Limiter) (segment : List Char)
    (request : Http.Request) : Endures r 0 (guarded token l segment request) := by
  unfold guarded handle
  by_cases hpresents : presents token request = true
  · rw [if_pos hpresents]
    by_cases hget : request.method = .get ∨ request.method = .head
    · rw [if_pos hget]
      exact withText_endures (showUsage_endures l)
    · rw [if_neg hget]
      by_cases hdel : request.method = .delete
      · rw [if_pos hdel]
        exact withText_endures (forget_endures l)
      · rw [if_neg hdel]
        exact trivial
  · rw [if_neg hpresents]
    exact trivial

end Administration

/-! ## Requests -/

/-- The spans that the store notes for a service end in range. -/
structure Service.InReach (s : Service) (r : Reach) : Prop where
  window : ∃ ttl, s.admission.limiter.config.window.add? s.admission.limiter.config.safetyMargin =
    some ttl ∧ r.Spans ttl
  once : s.admission.once.InReach r

namespace Service

variable {s : Service}

/-- A request that is handled goes on in range. -/
theorem handle_endures (s : Service) (request : Http.Request) : Endures r 0 (s.handle request) := by
  unfold handle
  split
  · by_cases hpost : request.method = .post
    · rw [if_pos hpost]
      exact Payment.handle_endures request
    · rw [if_neg hpost]
      exact trivial
  · exact Administration.guarded_endures _ _ _ request
  · exact trivial

/-- So does one that is coordinated. -/
theorem coordinate_endures (h : s.InReach r) (request : Http.Request) :
    Endures r 0 (s.admission.coordinate s.handle request) := by
  rcases s.admission.coordinate_cases s.handle request with
    ⟨f, _, heq | ⟨event, heq⟩⟩ | ⟨body, heq⟩ | ⟨key, body, hkey, heq⟩
  · rw [heq]
    exact trivial
  · rw [heq]
    exact trivial
  · rw [heq]
    exact (Once.bypass_endures (s.handle_endures _)).andThen fun _ => trivial
  · rw [heq]
    exact (Once.guarded_endures h.once (s.handle_endures _)).andThen fun _ => trivial

/-- No request breaks off where the spans end in range. -/
theorem respond_endures (h : s.InReach r) (request : Http.Request) :
    Endures r 1 (s.respond request) := by
  have hanswer : Endures r 1 (s.answer request) := by
    unfold answer
    by_cases hhealth : s.route request = .health
    · rw [if_pos hhealth]
      exact trivial
    · rw [if_neg hhealth]
      intro now _
      rcases h.window with ⟨ttl, httl, hspans⟩
      refine (s.admission.limiter.allow_endures _ httl hspans).andThen fun result => ?_
      cases result with
      | error error => exact trivial
      | ok decision =>
          unfold Admission.afterLimiter
          by_cases hallowed : decision.allowed = true
          · simp only [hallowed, if_true]
            exact (coordinate_endures h request).andThen fun _ => trivial
          · simp only [hallowed]
            exact trivial
  exact hanswer.andThen fun _ => trivial

/-- A run of visitors begins with a share for each. -/
theorem begin_endures {clocks : Clocks} {plan : Plan} {visitors : List Visitor}
    (h : s.InReach r) (hvisitors : visitors.length ≤ r.requests) (htime : clocks.mono ≤ r.uptime)
    (hshows : MayShow r clocks.now) : (s.begin clocks plan visitors).Endures r := by
  refine ⟨⟨0, List.replicate visitors.length 1, ⟨htime, hshows, Store.LocalStore.countsAtMost_empty⟩,
    ?_, ?_, ?_⟩, fun flight hmem => nomatch hmem⟩
  · rw [List.length_replicate]
    exact (List.length_map _).symm
  · rw [allShares_ones, Nat.zero_add]
    exact hvisitors
  · intro i t share ht hshare
    have hmap : (visitors.map fun v => (s.party v).task)[i]? = some t := ht
    rw [List.getElem?_map, Option.map_eq_some_iff] at hmap
    rcases hmap with ⟨v, _, rfl⟩
    rw [List.eq_of_mem_replicate (List.mem_of_getElem? hshare)]
    exact ⟨respond_endures h v.request, owesLittle_none⟩

end Service

end

/-! ## Settings -/

/-- The spans that follow from the settings end in range until the clock shows
`uptime`. -/
structure Config.Fits (c : Config) (uptime : Nat) : Prop where
  /-- The window of the rate limit with its margin of a second. -/
  window : uptime + (c.rateWindowSeconds + 1) * 1_000_000_000 < Moment.bound
  lock : uptime + c.lockSeconds * 1_000_000_000 < Moment.bound
  record : uptime + c.recordSeconds * 1_000_000_000 < Moment.bound

namespace Config

variable {c : Config} {uptime : Nat}

instance (c : Config) (uptime : Nat) : Decidable (c.Fits uptime) :=
  decidable_of_iff
    (uptime + (c.rateWindowSeconds + 1) * 1_000_000_000 < Moment.bound ∧
      uptime + c.lockSeconds * 1_000_000_000 < Moment.bound ∧
      uptime + c.recordSeconds * 1_000_000_000 < Moment.bound)
    ⟨fun h => ⟨h.1, h.2.1, h.2.2⟩, fun h => ⟨h.window, h.lock, h.record⟩⟩

/-- The window with its margin, where that is no longer than a span can be. -/
theorem window_add? (c : Config) : c.limiter.window.add? c.limiter.safetyMargin =
    if (c.rateWindowSeconds + 1) * 1_000_000_000 < Span.bound then
      some ⟨(c.rateWindowSeconds + 1) * 1_000_000_000⟩ else none := by
  have hsum : c.rateWindowSeconds * 1_000_000_000 + 1 * 1_000_000_000 =
      (c.rateWindowSeconds + 1) * 1_000_000_000 := (Nat.add_mul _ _ _).symm
  rw [← hsum]
  rfl

/-- A configuration that fits is in reach, however many requests are made. -/
theorem Fits.inReach (h : c.Fits uptime) (requests : Nat) :
    (Service.ofConfig c).InReach ⟨uptime, requests⟩ := by
  have hwindow := h.window
  have hspan : (c.rateWindowSeconds + 1) * 1_000_000_000 < Span.bound := by
    unfold Moment.bound at hwindow
    unfold Span.bound
    omega
  refine ⟨⟨⟨(c.rateWindowSeconds + 1) * 1_000_000_000⟩, ?_, hwindow⟩, h.lock, h.record⟩
  exact (window_add? c).trans (if_pos hspan)

/-- The seconds of a window that is accepted are counted in 64 bits. -/
theorem rateWindowSeconds_lt {env : Environment} {c : Config} (h : ofEnvironment env = .ok c) :
    c.rateWindowSeconds < countBound := by
  have hread := (ofEnvironment_eq_ok_iff.mp h).1 .rateLimitWindow
  rcases Environment.denotes_iff.mpr hread with ⟨_, _, _, _, _, _, hlt⟩ | ⟨_, husual⟩
  · exact hlt
  · have hstandard : c.rateWindowSeconds = 60 := husual
    rw [hstandard]
    decide

end Config

/-! ## The first payment -/

namespace Service

/-- The bytes of a payment. -/
def paymentBytes : Bytes :=
  Json.object [("amount", Json.natural 1), ("currency", Json.text "usd")]

/-- Somebody pays under a token. -/
def payment : Http.Request :=
  ⟨.post, "/payments",
    .ofList [("content-type", Bytes.ofText "application/json"), ("idempotency-key", Bytes.ofText "k")],
    .ofBytes paymentBytes, none⟩

/-- The clocks when the service has run for `uptime`. -/
def runningFor (uptime : Nat) : Clocks := .startAfter uptime newYear none

/-- The clock shows the beginning of the year. -/
theorem now_runningFor (uptime : Nat) : (runningFor uptime).now = newYear := by
  have hoffset : newYear.totalNanos - (uptime : Int) + uptime = newYear.totalNanos := by omega
  show Timestamp.ofTotalNanos (newYear.totalNanos - (uptime : Int) + uptime) = newYear
  rw [hoffset]
  decide

variable {c : Config} {uptime : Nat}

/-- Whatever the settings are, the payment is counted for its address. -/
theorem subject_payment (c : Config) (now : Timestamp) :
    (ofConfig c).admission.resolver.subject (ofConfig c).admission.perIdentity now payment =
      .address "unknown" := by
  have hname : (ofConfig c).admission.resolver.name? now payment.headers = none := by
    show (Resolver.ofSecret c.jwtSecret).name? now payment.headers = none
    cases c.jwtSecret with
    | none => rfl
    | some secret => rfl
  have haddress : Http.callerAddress payment.headers payment.peer = "unknown" := by decide
  unfold Resolver.subject
  rw [hname, haddress]
  split <;> rfl

/-- The payment is executed under a key. -/
theorem coordinate_payment (hguards : c.once.appliesTo .post = true) :
    ∃ key, (ofConfig c).admission.coordinate (ofConfig c).handle payment =
      Once.guarded c.once key (Payment.handle payment) >>= fun result =>
        pure (Admission.conclude result) := by
  have hcarried : Admission.carried payment.headers = .token "k" := by decide
  have hbytes : payment.body.bytesWithin? (ofConfig c).admission.maxRequestBody =
      some paymentBytes := by
    show payment.body.bytesWithin? (1024 * 1024) = some paymentBytes
    decide +kernel
  have happlies : (ofConfig c).admission.once.appliesTo payment.method = true := hguards
  have hvalid : Once.validateToken "k" = none := by decide
  unfold Admission.coordinate
  rw [hcarried]
  dsimp only
  by_cases hhashes : (ofConfig c).admission.once.scheme.hashesBody payment.method = true
  · rw [if_pos hhashes, hbytes]
    refine ⟨c.once.scheme.key "k" .post "/payments" (some paymentBytes), ?_⟩
    unfold Admission.execute Once.execute
    dsimp only
    rw [if_pos happlies, hvalid]
    rfl
  · rw [if_neg hhashes]
    refine ⟨c.once.scheme.key "k" .post "/payments" none, ?_⟩
    unfold Admission.execute Once.execute
    dsimp only
    rw [if_pos happlies, hvalid]
    rfl

/-- What the payment is answered. -/
def receipt : Bytes :=
  envelope (Payment.create ⟨1, "usd", none⟩ 1 newYear).render

/-- The response to the payment is recorded. -/
theorem captured_receipt (c : Config) :
    Once.captured? c.once (.json 201 receipt) = some receipt := by
  have hshort : receipt.length ≤ 1024 * 1024 := by decide +kernel
  exact Once.captured?_of_ofBytes (by decide) rfl hshort

/-- The payment is made under a number that is drawn, at the instant that the clock
shows. -/
theorem handle_payment : Payment.handle payment = .fresh fun number => .now fun now =>
    .done (.json 201 (envelope (Payment.create ⟨1, "usd", none⟩ number now).render)) := by
  have hread : (PaymentRequest.ofHttp payment).toOption = some ⟨1, "usd", none⟩ := by
    decide +kernel
  unfold Payment.handle
  cases hwanted : PaymentRequest.ofHttp payment with
  | error rejection =>
      rw [hwanted] at hread
      exact nomatch hread
  | ok wanted =>
      rw [hwanted] at hread
      rw [Option.some.inj hread]
      rfl

/-- Where the span of a record does not end in range, the payment breaks off after it was
made. -/
theorem runHandler_breaks {key : OperationKey} {token : Store.Token} {w : World}
    {owed : Option Call} (hplan : w.plan = .faultless) (hclocks : w.clocks = runningFor uptime)
    (hdrawn : w.drawn = 0) (h : ¬ uptime + c.recordSeconds * 1_000_000_000 < Moment.bound) :
    Breaks noHandler w owed (Once.runHandler c.once key (Payment.handle payment) token) := by
  have hnow : w.clocks.now = newYear := by rw [hclocks, now_runningFor]
  rw [handle_payment]
  apply Breaks.fresh
  rw [hdrawn]
  apply Breaks.now (by exact hnow)
  show Breaks noHandler _ owed (Once.runHandler c.once key (pure (.json 201 receipt)) token)
  rw [Once.runHandler_of_captured (captured_receipt c)]
  apply Breaks.now (by exact hnow)
  refine Breaks.call_overflows (by exact World.serves_of_faultless hplan _)
    (Store.LocalStore.set_overflows ?_ _ _)
  have hmono : w.mono = uptime := congrArg Clocks.mono hclocks
  show ¬ w.mono + c.recordSeconds * 1_000_000_000 < Moment.bound
  rw [hmono]
  exact h

/-- Where the span of a lock or of a record does not end in range, the payment breaks off
while it is executed. -/
theorem guarded_breaks {key : OperationKey} {w : World} {owed : Option Call}
    (hplan : w.plan = .faultless) (hclocks : w.clocks = runningFor uptime) (hdrawn : w.drawn = 0)
    (hvalues : w.store.values = .empty) (hlocks : w.store.locks = .empty)
    (h : ¬ (uptime + c.lockSeconds * 1_000_000_000 < Moment.bound ∧
      uptime + c.recordSeconds * 1_000_000_000 < Moment.bound)) :
    Breaks noHandler w owed (Once.guarded c.once key (Payment.handle payment)) := by
  have hmono : w.mono = uptime := congrArg Clocks.mono hclocks
  have hserves := World.serves_of_faultless hplan
  have hget : ∀ (s : Store.LocalStore) time fresh, s.values = .empty →
      s.perform time fresh (.get key.text) = .ok (.value none, s) := by
    intro s time fresh hempty
    simp only [Store.LocalStore.perform, Store.LocalStore.get, hempty, Store.Table.lookup_empty]
  have hfree : w.store.heldAt w.mono key.lock = none := by
    unfold Store.LocalStore.heldAt
    rw [hlocks]
    rfl
  let sought : World := w.afterCall (.get key.text) w.store
  unfold Once.guarded
  rw [Once.lookup_bind]
  apply Breaks.now rfl
  apply Breaks.call (hserves _) (hget w.store _ _ hvalues)
  show Breaks noHandler sought owed
    (Once.acquire c.once key >>= Once.afterAcquire c.once key (Payment.handle payment))
  rw [Once.acquire_bind]
  by_cases hlock : uptime + c.lockSeconds * 1_000_000_000 < Moment.bound
  · have hexpiry : Store.expiry w.mono c.once.lockTtl = .ok (w.mono + c.once.lockTtl.nanos) := by
      refine Store.expiry_ok ?_
      rw [hmono]
      exact hlock
    let locked : Store.LocalStore := { w.store with
      locks := w.store.locks.insert key.lock
        ⟨.issued (w.tokens + 2), w.mono + c.once.lockTtl.nanos⟩ }
    have htake : sought.store.perform sought.mono (.issued (sought.tokens + 1))
        (.acquireLock key.lock c.once.lockTtl) = .ok (.token (some (.issued (w.tokens + 2))), locked) :=
      Store.LocalStore.perform_acquire_free hfree hexpiry _
    apply Breaks.call (by exact hserves _) htake
    apply Breaks.hold
    apply Breaks.now rfl
    apply Breaks.call (by exact hserves _) (hget locked _ _ hvalues)
    exact runHandler_breaks hplan hclocks hdrawn fun hrecord => h ⟨hlock, hrecord⟩
  · refine Breaks.call_overflows (by exact hserves _) (Store.LocalStore.acquire_overflows ?_ _)
    show ¬ w.mono + c.lockSeconds * 1_000_000_000 < Moment.bound
    rw [hmono]
    exact hlock

/-- Where a span does not end in range, the first payment breaks off. -/
theorem payment_breaks (hlimit : 0 < c.rateLimit) (hguards : c.once.appliesTo .post = true)
    (h : ¬ c.Fits uptime) :
    Breaks noHandler (.start (runningFor uptime) .faultless) none ((ofConfig c).respond payment) := by
  have hroute : (ofConfig c).route payment ≠ .health := by
    have hpayments : ∀ administered, Route.ofPath administered "/payments" ≠ .health := by decide
    exact hpayments _
  have hserves := World.serves_of_faultless (w := .start (runningFor uptime) .faultless) rfl
  have hstamp : newYear.stamp ≤ Timestamp.maxStamp := by decide
  have hadd : (ofConfig c).admission.limiter.config.window.add?
      (ofConfig c).admission.limiter.config.safetyMargin = _ := Config.window_add? c
  have hnow : (World.start (runningFor uptime) .faultless).clocks.now = newYear :=
    now_runningFor uptime
  rw [respond_eq hroute]
  refine Breaks.bind (Breaks.now hnow ?_) _
  rw [subject_payment, Limiter.allow_eq, hadd]
  by_cases hspan : (c.rateWindowSeconds + 1) * 1_000_000_000 < Span.bound
  · rw [if_pos hspan]
    apply Breaks.now hnow
    by_cases hwindow : uptime + (c.rateWindowSeconds + 1) * 1_000_000_000 < Moment.bound
    · let counted : Store.LocalStore := { Store.LocalStore.empty with
        windows := Store.Table.empty.insert ((ofConfig c).admission.limiter.keyFor (.address "unknown"))
          ⟨[newYear.stamp], some (uptime + (c.rateWindowSeconds + 1) * 1_000_000_000)⟩ }
      have hdone : Store.LocalStore.empty.perform uptime (.issued 1)
          ((ofConfig c).admission.limiter.asking (.address "unknown") newYear
            ⟨(c.rateWindowSeconds + 1) * 1_000_000_000⟩) =
          .ok (.window ⟨true, 1, some newYear.stamp⟩, counted) :=
        Store.LocalStore.perform_record_first rfl hlimit hstamp (Store.expiry_ok hwindow) _
      apply Breaks.call (by exact hserves _) hdone
      rcases coordinate_payment hguards with ⟨key, hkey⟩
      have hspans : ¬ (uptime + c.lockSeconds * 1_000_000_000 < Moment.bound ∧
          uptime + c.recordSeconds * 1_000_000_000 < Moment.bound) :=
        fun hrest => h ⟨hwindow, hrest.1, hrest.2⟩
      show Breaks noHandler _ none
        ((ofConfig c).admission.coordinate (ofConfig c).handle payment >>= fun response => pure _)
      rw [hkey]
      refine Breaks.bind ?_ _
      exact Breaks.bind (guarded_breaks rfl rfl rfl rfl rfl hspans) _
    · have hdone : Store.LocalStore.empty.perform uptime (.issued 1)
          ((ofConfig c).admission.limiter.asking (.address "unknown") newYear
            ⟨(c.rateWindowSeconds + 1) * 1_000_000_000⟩) = .error .expiry :=
        Store.LocalStore.record_overflows hwindow rfl hlimit hstamp
      exact Breaks.bind (Breaks.call_overflows (by exact hserves _) hdone) _
  · rw [if_neg hspan]
    exact Breaks.bind (Breaks.now rfl Breaks.crash) _

/-! ## Every accepted environment -/

/-- In some run of at most `uptime` a request breaks off, while the clocks show instants
from 1970 on that have room for the stamps of all requests. -/
def BreaksOff (s : Service) (uptime : Nat) : Prop :=
  ∃ clocks plan visitors happenings,
    Run.InReach ⟨uptime, visitors.length⟩ (s.begin clocks plan visitors) happenings ∧
      ∃ i time, (Chronicle.of (s.begin clocks plan visitors) happenings).state.ended? i =
        some (.crashed, time)

/-- The payment is the first request when the service has run for a while. -/
def firstPayment (c : Config) (uptime : Nat) : State Observed :=
  (ofConfig c).begin (runningFor uptime) .faultless [⟨payment, uptime, none⟩]

/-- One payment is in reach of an uptime and one request. -/
theorem firstPayment_inReach (c : Config) (uptime : Nat) :
    Run.InReach ⟨uptime, 1⟩ (firstPayment c uptime) [.move (.resume 0)] := by
  have hshows : MayShow ⟨uptime, 1⟩ (runningFor uptime).now := by
    rw [now_runningFor]
    show 0 ≤ newYear.totalNanos ∧ newYear.totalNanos + 1 ≤ Timestamp.maxStamp
    decide
  intro n
  have hmoves : ∀ e ∈ [Happening.move (.resume 0)].take n, ∃ m, e = .move m := by
    intro e hmem
    exact ⟨.resume 0, List.mem_singleton.1 (List.mem_of_mem_take hmem)⟩
  have hclocks : (Chronicle.of (firstPayment c uptime)
      ([Happening.move (.resume 0)].take n)).state.world.clocks = runningFor uptime :=
    (chronicle_kept _ _).clocks_eq hmoves
  dsimp only
  rw [hclocks]
  exact ⟨Nat.le_refl _, hshows⟩

/-- Where a span does not end in range, the first request has broken off at once. -/
theorem firstPayment_breaks (hlimit : 0 < c.rateLimit)
    (hguards : c.once.appliesTo .post = true) (h : ¬ c.Fits uptime) :
    (Chronicle.of (firstPayment c uptime) [.move (.resume 0)]).state.ended? 0 =
      some (.crashed, uptime) := by
  have htask : (firstPayment c uptime).tasks[0]? =
      some (Task.start ((ofConfig c).respond payment) noHandler uptime none) := rfl
  rw [state_move]
  exact ended_of_breaks htask rfl (payment_breaks hlimit hguards h)

/-- No request breaks off where the spans end in range as long as the service runs, and
one does where they do not, if payments are let through and guarded; and whatever number
is accepted, the whole seconds that a refused caller is told to wait are added up in
range. -/
theorem breaks_off_iff_out_of_range {env : Config.Environment} {c : Config}
    (henv : Config.ofEnvironment env = .ok c) (uptime : Nat) :
    (c.Fits uptime → ¬ (ofConfig c).BreaksOff uptime) ∧
    (0 < c.rateLimit → c.once.appliesTo .post = true → ¬ c.Fits uptime →
      (ofConfig c).BreaksOff uptime) ∧
    ∀ stamp oldest, ((ofConfig c).admission.limiter.retryAfter stamp oldest).ceilSeconds <
      Span.secondsBound := by
  refine ⟨?_, ?_, ?_⟩
  · rintro hfits ⟨clocks, plan, visitors, happenings, hreach, i, time, hended⟩
    have hstart := hreach 0
    have hbegin : ((ofConfig c).begin clocks plan visitors).Endures ⟨uptime, visitors.length⟩ :=
      begin_endures (hfits.inReach visitors.length) (Nat.le_refl _) hstart.1 hstart.2
    exact (endures_throughout hbegin hreach).not_crashed i time hended
  · intro hlimit hguards hfits
    refine ⟨runningFor uptime, .faultless, [⟨payment, uptime, none⟩], [.move (.resume 0)],
      firstPayment_inReach c uptime, 0, uptime, ?_⟩
    exact firstPayment_breaks hlimit hguards hfits
  · intro stamp oldest
    have hwindow : (Service.ofConfig c).admission.limiter.config.window.ceilSeconds <
        Span.secondsBound :=
      Nat.lt_of_le_of_lt (Span.ceilSeconds_le (Nat.le_refl _)) (Config.rateWindowSeconds_lt henv)
    exact Limiter.ceilSeconds_retryAfter_lt hwindow stamp oldest

/-- The longest window that can be written. -/
def longestWindow : Config.Environment
  | ⟨"RATE_LIMIT_WINDOW"⟩ => some (Bytes.ofText "18446744073709551615")
  | _ => none

/-- The longest life of a record that can be written. -/
def longestRecords : Config.Environment
  | ⟨"IDEMPOTENCY_TTL"⟩ => some (Bytes.ofText "18446744073709551615")
  | _ => none

/-- With the usual settings no request breaks off in a day, and with the longest window
one does at once. -/
theorem usual_settings_endure :
    ¬ (ofConfig Config.standard).BreaksOff 86_400_000_000_000 ∧
    (ofConfig { Config.standard with rateWindowSeconds := 18446744073709551615 }).BreaksOff 0 := by
  constructor
  · exact (breaks_off_iff_out_of_range Config.ofEnvironment_unset _).1 (by decide)
  · have hread : Config.ofEnvironment longestWindow =
        .ok { Config.standard with rateWindowSeconds := 18446744073709551615 } := rfl
    exact (breaks_off_iff_out_of_range hread 0).2.1 (by decide) (by decide) (by decide)

/-- With the longest window the first payment breaks off, and with the longest life of
records it does so after a number was drawn for the payment. -/
theorem accepted_settings_break :
    (∃ c, Config.ofEnvironment longestWindow = .ok c ∧ c.backend = .memory ∧
      (Chronicle.of (firstPayment c 0) [.move (.resume 0)]).state.ended? 0 = some (.crashed, 0)) ∧
    ∃ c, Config.ofEnvironment longestRecords = .ok c ∧ c.backend = .memory ∧
      (Chronicle.of (firstPayment c 0) [.move (.resume 0)]).state.ended? 0 = some (.crashed, 0) ∧
      (Chronicle.of (firstPayment c 0) [.move (.resume 0)]).state.world.drawn = 1 := by
  refine ⟨⟨_, rfl, rfl, ?_⟩, _, rfl, rfl, ?_, ?_⟩
  · exact firstPayment_breaks (by decide) (by decide) (by decide)
  · exact firstPayment_breaks (by decide) (by decide) (by decide)
  · decide +kernel

end Service

end Turnstile

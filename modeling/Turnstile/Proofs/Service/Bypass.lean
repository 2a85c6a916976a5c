import Turnstile.Proofs.Http.Buffering
import Turnstile.Proofs.Service.Fidelity

/-!
# Requests that are let by

A request without a token, or with one for a method that is not guarded, is no business
of the coordinator: once the limiter has let it in, the handler should have it as it
came.  So it does, with one exception.  A body that would take part in a key is buffered
before anybody asks whether there is to be a key, and a request whose body cannot be
buffered is refused, guarded or not.

Main results:

- Theorem `Admission.coordinate_of_bypasses`, `Admission.coordinate_of_withholds`: what
  is done with such a request.
- Theorem `Guest.bypass_served_iff`: in every run, a guest that is let by and let in is
  served by one run of the handler, with the body that it sent, just when the admission
  does not withhold that body.
- Theorem `Guest.longUpload_refused`: a guest that is let by and refused.
-/

namespace Turnstile

open Run
open Store (Answer Call)

/-! ## What is done with a request that is let by -/

namespace Admission

variable {a : Admission} {request : Http.Request}

/-- A request is let by: it carries no token, or one while its method is not guarded. -/
def Bypasses (a : Admission) (request : Http.Request) : Prop :=
  carried request.headers = .nothing ∨
    ∃ token, carried request.headers = .token token ∧ a.once.appliesTo request.method = false

/-- The body of a request is to take part in a key, and cannot be buffered. -/
def Withholds (a : Admission) (request : Http.Request) : Prop :=
  (∃ token, carried request.headers = .token token) ∧
    a.once.scheme.hashesBody request.method = true ∧
    ¬ (request.body.failure = none ∧ request.body.bytes.length ≤ a.maxRequestBody)

/-- Executing a request that is let by hands it over, and tells of no replay. -/
theorem execute_of_bypasses {token : Option String}
    (h : ∀ text, token = some text → a.once.appliesTo request.method = false)
    (body : Option Bytes) :
    a.execute token body Once.served request =
      .serve request fun response => .done (markReplayed false response) := by
  cases token with
  | none => rfl
  | some text =>
      have happlies : ¬ a.once.appliesTo request.method = true := by simp [h text rfl]
      unfold execute Once.execute
      dsimp only
      rw [if_neg happlies]
      rfl

/-- A request that is let by is handed over with the bytes that it came with, unless its
body is withheld. -/
theorem coordinate_of_bypasses (h : a.Bypasses request) (hkept : ¬ a.Withholds request) :
    ∃ body : Http.Body, body.delivered = request.body.delivered ∧
      a.coordinate Once.served request = .serve { request with body := body }
        fun response => .done (markReplayed false response) := by
  rcases h with hnothing | ⟨token, htoken, happlies⟩
  · have hnone : ∀ text, (none : Option String) = some text →
        a.once.appliesTo request.method = false := nofun
    refine ⟨request.body, rfl, ?_⟩
    simp only [coordinate, hnothing]
    exact execute_of_bypasses hnone none
  · have hexecutes : ∀ request' : Http.Request, request'.method = request.method → ∀ body,
        a.execute (some token) body Once.served request' =
          .serve request' fun response => .done (markReplayed false response) := by
      intro request' hmethod body
      exact execute_of_bypasses (fun _ _ => by rw [hmethod]; exact happlies) body
    by_cases hhashes : a.once.scheme.hashesBody request.method = true
    · have hbuffers : request.body.failure = none ∧
          request.body.bytes.length ≤ a.maxRequestBody :=
        Classical.not_not.1 fun hcannot => hkept ⟨⟨token, htoken⟩, hhashes, hcannot⟩
      have hbytes := (Http.Body.bytesWithin?_eq_some_iff request.body a.maxRequestBody _).2
        ⟨hbuffers.1, rfl, hbuffers.2⟩
      refine ⟨.ofBytes request.body.bytes, ?_, ?_⟩
      · rw [Http.Body.delivered_ofBytes, Http.Body.delivered, hbuffers.1]
      · simp only [coordinate, htoken, hhashes, if_true, hbytes]
        exact hexecutes { request with body := .ofBytes request.body.bytes } rfl _
    · refine ⟨request.body, rfl, ?_⟩
      simp only [coordinate, htoken, if_neg hhashes]
      exact hexecutes request rfl none

/-- A request whose body is withheld is refused at once, let by or not. -/
theorem coordinate_of_withholds (h : a.Withholds request) (next : Next) :
    a.coordinate next request = .done (refuse .payloadTooLarge) := by
  rcases h with ⟨⟨token, htoken⟩, hhashes, hcannot⟩
  have hbytes := (Http.Body.bytesWithin?_eq_none_iff request.body a.maxRequestBody).2 hcannot
  simp only [coordinate, htoken, hhashes, if_true, hbytes]
  rfl

end Admission

/-! ## What the limiter does before -/

namespace Limiter

/-- The limiter answered a request with a decision, and noted as much before. -/
def Decides (l : Limiter) (handler : Handler) (subject : Subject) (notes : List Note)
    (decision : Decision) : Prop :=
  Path handler ⟨.going (l.allow subject), none⟩ notes ⟨.going (.done (.ok decision)), none⟩

/-- What is noted of a question that the store answered. -/
def asked (l : Limiter) (subject : Subject) (now : Timestamp) (ttl : Span)
    (outcome : Store.WindowOutcome) : List Note :=
  [.told (l.asking subject now ttl) (.ok (.window outcome)),
    .done (l.asking subject now ttl) (.window outcome), .sent (l.asking subject now ttl), .read now]

/-- A request that is admitted is decided without an event. -/
theorem decide_of_admitted (l : Limiter) (subject : Subject) (now : Timestamp)
    {outcome : Store.WindowOutcome} (hadmitted : outcome.admitted = true) :
    l.decide subject (l.limitFor subject) now outcome = .done (l.granting subject now outcome) :=
  if_pos hadmitted

/-- Who asks for room, and is answered by the store, goes on to what the limiter
decides. -/
theorem settles_allow_bind {α : Type} {l : Limiter} {handler : Handler} {w : World} {subject : Subject}
    {now : Timestamp} {ttl : Span} {outcome : Store.WindowOutcome} {store : Store.LocalStore}
    {next : Except Store.Error Decision → Program α} {newer : List Note} {standing : Standing α}
    (hserves : w.Serves .recordInWindow) (hnow : w.clocks.now = now)
    (httl : l.config.window.add? l.config.safetyMargin = some ttl)
    (hdone : w.store.perform w.mono (.issued (w.tokens + 1)) (l.asking subject now ttl) =
      .ok (.window outcome, store))
    (h : Settles handler (w.afterCall (l.asking subject now ttl) store) none
      ((l.decide subject (l.limitFor subject) now outcome).bind fun decision =>
        next (.ok decision)) newer standing) :
    Settles handler w none ((l.allow subject).bind next)
      (newer ++ l.asked subject now ttl outcome) standing := by
  have hdecided : Settles handler (w.afterCall (l.asking subject now ttl) store) none
      ((l.decide subject (l.limitFor subject) now (outcomeOf (.window outcome)) >>= fun decision =>
        pure (.ok decision)).bind next) newer standing := by
    show Settles _ _ _ (((l.decide _ _ _ outcome).bind _).bind next) _ _
    rw [Program.bind_assoc]
    exact h
  have hnotes : newer ++ l.asked subject now ttl outcome =
      newer ++ [.told (l.asking subject now ttl) (.ok (.window outcome)),
        .done (l.asking subject now ttl) (.window outcome),
        .sent (l.asking subject now ttl)] ++ [.read now] := by
    rw [List.append_assoc]
    rfl
  rw [allow_eq, httl, hnotes]
  exact Settles.now hnow (Settles.call hserves hdone hdecided)

/-- A limiter decides to let a request in if the store admits it. -/
theorem decides_of_admitted (l : Limiter) {handler : Handler} {subject : Subject} {now : Timestamp}
    {ttl : Span} (httl : l.config.window.add? l.config.safetyMargin = some ttl)
    {outcome : Store.WindowOutcome} (hadmitted : outcome.admitted = true) :
    l.Decides handler subject (l.asked subject now ttl outcome)
      (l.granting subject now outcome) :=
  have hverdict : l.Verdict subject (l.inquired subject now ttl (.window outcome)) _ :=
    .admitted httl hadmitted
  verdict_iff.1 hverdict

/-- A limiter hands nothing over and ends nothing before it has answered. -/
theorem Verdict.quiet {l : Limiter} {subject : Subject} {notes : List Note}
    {result : Except Store.Error Decision} (h : l.Verdict subject notes result) :
    handedOver notes = [] ∧ .ended ∉ notes := by
  cases h with
  | admitted => exact ⟨rfl, by simp [inquired]⟩
  | refused => exact ⟨rfl, by simp [inquired]⟩
  | @wavedThrough _ _ answer => cases answer <;> exact ⟨rfl, by simp [unanswered, outcome]⟩
  | @failed _ _ answer => cases answer <;> exact ⟨rfl, by simp [unanswered, outcome]⟩

/-- What a limiter noted before it decided leads to that decision. -/
theorem Decides.verdict {l : Limiter} {handler : Handler} {subject : Subject} {notes : List Note}
    {decision : Decision} (h : l.Decides handler subject notes decision) :
    l.Verdict subject notes (.ok decision) :=
  verdict_iff.2 h

/-- Before a limiter has decided, nothing was handed over and nothing has ended. -/
theorem Decides.quiet {l : Limiter} {handler : Handler} {subject : Subject} {notes : List Note}
    {decision : Decision} (h : l.Decides handler subject notes decision) :
    handedOver notes = [] ∧ .ended ∉ notes :=
  h.verdict.quiet

end Limiter

/-! ## Guests that are let by -/

namespace Guest

/-- Who a guest is counted for when the clock shows an instant. -/
def subjectAt (g : Guest) (now : Timestamp) : Subject :=
  g.admission.resolver.subject g.admission.perIdentity now g.request

/-- What a guest noted until the limiter let it in. -/
def LetIn (g : Guest) (older : List Note) (decision : Decision) : Prop :=
  decision.allowed = true ∧ ∃ now inquiry, older = inquiry ++ [.read now, .resumed] ∧
    g.admission.limiter.Decides g.handler (g.subjectAt now) inquiry decision

/-- The handler is run once for a request, and the guest is answered with the status and
the body of the response, unless the run goes on or was broken off. -/
inductive Served (handed : Http.Request) (decision : Decision) :
    List Note → Option Http.Response → Prop where
  | running : Served handed decision [.began handed] none
  | answered {response answer : Http.Response}
      (hanswer : answer = decision.mark (Admission.markReplayed false response))
      (hstatus : answer.status = response.status) (hbody : answer.body = response.body) :
      Served handed decision [.ended, .finished (some response), .began handed] (some answer)
  | brokenOff : Served handed decision [.quit none, .finished none, .began handed] none

/-- A request that was served was handed over once. -/
theorem Served.handedOver_eq {handed : Http.Request} {decision : Decision} {notes : List Note}
    {answer : Option Http.Response} (h : Served handed decision notes answer) :
    handedOver notes = [handed] := by
  cases h <;> rfl

/-- The answer of somebody who stands at a place. -/
def answerAt : Point Http.Response → Option Http.Response
  | .ended answer => some answer
  | _ => none

/-- The answer of a task is that of its stage. -/
theorem answerOf_eq {run : Chronicle Http.Response} {i : Nat} {t : Run.Task Http.Response}
    (ht : run.state.tasks[i]? = some t) : answerOf run i = answerAt t.stage.point := by
  unfold answerOf
  rw [ht]
  rcases t with ⟨wait, owed, handler, cancelAt⟩
  cases wait with
  | answer flight expires deadline call next =>
      rcases flight with ⟨phase, due⟩
      cases phase <;> rfl
  | nothing ending time => cases ending <;> rfl
  | _ => rfl

/-- A guest on which the limiter has decided stands before what the admission does then. -/
theorem decided_path {g : Guest} {now : Timestamp} {inquiry : List Note} {decision : Decision}
    (hdecides : g.admission.limiter.Decides g.handler (g.subjectAt now) inquiry decision) :
    Path g.handler ⟨.resting (g.admission.guard Once.served g.request), none⟩
      (inquiry ++ [.read now, .resumed])
      ⟨.going (g.admission.afterLimiter (g.subjectAt now) Once.served g.request (.ok decision)),
        none⟩ := by
  have hbegin : Path g.handler ⟨.resting (g.admission.guard Once.served g.request), none⟩
      [.read now, .resumed] ⟨.going ((g.admission.limiter.allow (g.subjectAt now)).bind
        (g.admission.afterLimiter (g.subjectAt now) Once.served g.request)), none⟩ :=
    (Path.single .resumed).step .read
  exact hbegin.append (Path.bind hdecides hdecides.quiet.2
    (g.admission.afterLimiter (g.subjectAt now) Once.served g.request))

/-- A guest that was let in goes on to what the coordinator does. -/
theorem afterLimiter_of_allowed (g : Guest) (subject : Subject) {decision : Decision}
    (hallowed : decision.allowed = true) :
    g.admission.afterLimiter subject Once.served g.request (.ok decision) =
      g.admission.coordinate Once.served g.request >>= fun response =>
        pure (decision.mark response) :=
  if_pos hallowed

/-- A guest that was let in stands before what the coordinator does. -/
theorem LetIn.path {g : Guest} {older : List Note} {decision : Decision}
    (h : g.LetIn older decision) :
    Path g.handler ⟨.resting (g.admission.guard Once.served g.request), none⟩ older
      ⟨.going (g.admission.coordinate Once.served g.request >>= fun response =>
        pure (decision.mark response)), none⟩ := by
  rcases h with ⟨hallowed, now, inquiry, rfl, hdecides⟩
  rw [← g.afterLimiter_of_allowed (g.subjectAt now) hallowed]
  exact decided_path hdecides

/-- Who was only let in has handed over nothing. -/
theorem LetIn.handedOver_eq_nil {g : Guest} {older : List Note} {decision : Decision}
    (h : g.LetIn older decision) : handedOver older = [] := by
  rcases h with ⟨_, now, inquiry, rfl, hdecides⟩
  rw [handedOver_append, hdecides.quiet.1]
  rfl

/-- Whoever begins to hand a request over is served, when it stands where a task may
wait. -/
theorem served_of_path {handler : Handler} {handed : Http.Request} {decision : Decision}
    {newer : List Note} {s : Stage Http.Response}
    (h : Path handler ⟨.going (.serve handed fun response =>
      .done (decision.mark (Admission.markReplayed false response))), none⟩ newer s)
    (hgoing : ∀ program owed, s ≠ ⟨.going program, owed⟩) (hstopped : s.point ≠ .stopped) :
    Served handed decision newer (answerAt s.point) := by
  rcases h.uncons with ⟨_, rfl⟩ | ⟨newer, n, s₁, rfl, hbegan, h⟩
  · exact absurd rfl (hgoing _ _)
  cases hbegan
  rcases h.uncons with ⟨rfl, rfl⟩ | ⟨newer, n, s₂, rfl, hfinished, h⟩
  · exact .running
  cases hfinished with
  | finished hgives =>
      rcases h.of_done hgoing with ⟨rfl, rfl⟩
      exact .answered rfl rfl rfl
  | dropped =>
      rcases h.uncons with ⟨_, rfl⟩ | ⟨newer, n, s₃, rfl, hquit, h⟩
      · exact absurd rfl hstopped
      cases hquit
      rcases h.uncons with ⟨rfl, rfl⟩ | ⟨_, _, _, _, hmore, _⟩
      · exact .brokenOff
      · cases hmore

section

variable {clocks : Clocks} {plan : Plan} {guests : List Guest} {happenings : List Happening}
  {run : Chronicle Http.Response}

/-- A guest that was let in has gone on to what the coordinator does. -/
theorem LetIn.goes_on (hrun : run = .of (begin clocks plan guests) happenings) {j : Nat}
    {g : Guest} (hg : guests[j]? = some g) {newer older : List Note} {decision : Decision}
    (hown : own j run.log = newer ++ older) (hlet : g.LetIn older decision) :
    ∃ t : Run.Task Http.Response, run.state.tasks[j]? = some t ∧
      Path g.handler ⟨.going (g.admission.coordinate Once.served g.request >>= fun response =>
        pure (decision.mark response)), none⟩ newer t.stage := by
  have hfollows := chronicle_path (begins clocks plan guests).fits happenings
  have htask : (begin clocks plan guests).tasks[j]? = some g.task := by
    show (guests.map task)[j]? = some g.task
    rw [List.getElem?_map, hg]
    rfl
  subst hrun
  exact hfollows.rest htask hown hlet.path

/-- A guest that is let by, and let in by the limiter, is served by one run of the
handler with what it sent just when its body is not withheld; otherwise it is told that
its body is too large, and the handler is not run for it. -/
theorem bypass_served_iff (hrun : run = .of (begin clocks plan guests) happenings) {j : Nat}
    {g : Guest} (hg : guests[j]? = some g) (hbypass : g.admission.Bypasses g.request)
    {newer older : List Note} {decision : Decision} (hown : own j run.log = newer ++ older)
    (hlet : g.LetIn older decision) :
    ((∃ body : Http.Body, body.delivered = g.request.body.delivered ∧
        handedOver (own j run.log) = [{ g.request with body := body }] ∧
        Served { g.request with body := body } decision newer (answerOf run j)) ↔
      ¬ g.admission.Withholds g.request) ∧
    (g.admission.Withholds g.request →
      newer = [.ended] ∧ handedOver (own j run.log) = [] ∧
        answerOf run j = some (decision.mark (Admission.refuse .payloadTooLarge))) := by
  rcases hlet.goes_on hrun hg hown with ⟨t, ht, hpath⟩
  have hgoing : ∀ program owed, t.stage ≠ ⟨.going program, owed⟩ :=
    fun program owed => stage_ne_going t.wait t.owed owed program
  have hhanded : handedOver (own j run.log) = handedOver newer := by
    rw [hown, handedOver_append, hlet.handedOver_eq_nil, List.append_nil]
  have hrefused : g.admission.Withholds g.request →
      newer = [.ended] ∧ handedOver (own j run.log) = [] ∧
        answerOf run j = some (decision.mark (Admission.refuse .payloadTooLarge)) := by
    intro hwithholds
    rw [Admission.coordinate_of_withholds hwithholds] at hpath
    rw [hhanded, answerOf_eq ht]
    rcases hpath.uncons with ⟨_, heq⟩ | ⟨newer, n, s, rfl, hended, hpath⟩
    · exact absurd heq (hgoing _ _)
    cases hended
    rcases hpath.uncons with ⟨rfl, heq⟩ | ⟨_, _, _, _, hmore, _⟩
    · rw [heq]
      exact ⟨rfl, rfl, rfl⟩
    · cases hmore
  refine ⟨⟨?_, ?_⟩, hrefused⟩
  · rintro ⟨body, _, hone, _⟩ hwithholds
    rw [(hrefused hwithholds).2.1] at hone
    exact nomatch hone
  · intro hkept
    rcases Admission.coordinate_of_bypasses hbypass hkept with ⟨body, hbody, heq⟩
    rw [heq] at hpath
    have hserved := served_of_path hpath hgoing (stage_ne_stopped t.wait t.owed)
    rw [← answerOf_eq ht] at hserved
    refine ⟨body, hbody, ?_, hserved⟩
    rw [hhanded]
    exact hserved.handedOver_eq

end

/-! ## Uploads for which no key is asked -/

section

variable {g : Guest}

/-- A guest that comes alone at the beginning of 2024. -/
def alone (g : Guest) : Chronicle Http.Response :=
  .of (begin (.start Service.newYear none) .faultless [g]) [.move (.resume 0)]

/-- The decision on a guest that is the first to be counted. -/
def firstOf100 : Decision :=
  Limiter.admission 100 99 (Service.newYear.addSaturating (.ofSeconds 60))

/-- A guest whose request the store answers goes on to what the limiter decides. -/
theorem settles_guard {w : World} {now : Timestamp} {ttl : Span} {outcome : Store.WindowOutcome}
    {store : Store.LocalStore} {newer : List Note} {standing : Standing Http.Response}
    (hserves : w.Serves .recordInWindow) (hnow : w.clocks.now = now)
    (httl : g.admission.limiter.config.window.add? g.admission.limiter.config.safetyMargin = some ttl)
    (hdone : w.store.perform w.mono (.issued (w.tokens + 1))
      (g.admission.limiter.asking (g.subjectAt now) now ttl) = .ok (.window outcome, store))
    (h : Settles g.handler (w.afterCall (g.admission.limiter.asking (g.subjectAt now) now ttl) store)
      none ((g.admission.limiter.decide (g.subjectAt now)
        (g.admission.limiter.limitFor (g.subjectAt now)) now outcome).bind fun decision =>
          g.admission.afterLimiter (g.subjectAt now) Once.served g.request (.ok decision))
      newer standing) :
    Settles g.handler w none (g.admission.guard Once.served g.request)
      (newer ++ g.admission.limiter.asked (g.subjectAt now) now ttl outcome ++ [.read now])
      standing := by
  exact Settles.now hnow (Limiter.settles_allow_bind hserves hnow httl hdone h)

/-- A guest whose request the store admits is let in, and goes on to what the coordinator
does. -/
theorem settles_letIn {w : World} {now : Timestamp} {ttl : Span} {outcome : Store.WindowOutcome}
    {store : Store.LocalStore} {newer : List Note} {standing : Standing Http.Response}
    (hserves : w.Serves .recordInWindow) (hnow : w.clocks.now = now)
    (httl : g.admission.limiter.config.window.add? g.admission.limiter.config.safetyMargin = some ttl)
    (hdone : w.store.perform w.mono (.issued (w.tokens + 1))
      (g.admission.limiter.asking (g.subjectAt now) now ttl) = .ok (.window outcome, store))
    (hadmitted : outcome.admitted = true)
    (h : Settles g.handler (w.afterCall (g.admission.limiter.asking (g.subjectAt now) now ttl) store)
      none (g.admission.coordinate Once.served g.request >>= fun response =>
        pure ((g.admission.limiter.granting (g.subjectAt now) now outcome).mark response))
      newer standing) :
    Settles g.handler w none (g.admission.guard Once.served g.request)
      (newer ++ g.admission.limiter.asked (g.subjectAt now) now ttl outcome ++ [.read now])
      standing := by
  refine settles_guard hserves hnow httl hdone ?_
  rw [Limiter.decide_of_admitted _ _ _ hadmitted]
  exact h

/-- A guest that comes alone is let in by the usual limiter, whatever becomes of it
then. -/
theorem alone_letIn (hlimiter : g.admission.limiter = .standard .standard) {newer : List Note}
    (h : ∀ w : World, ∃ standing, standing.owed = none ∧
      Settles g.handler w none (g.admission.coordinate Once.served g.request >>= fun response =>
        pure (firstOf100.mark response)) newer standing) :
    ∃ older, own 0 (alone g).log = newer ++ older ∧ g.LetIn older firstOf100 := by
  let s : State Http.Response := begin (.start Service.newYear none) .faultless [g]
  let subject := g.subjectAt Service.newYear
  have hnow : s.world.clocks.now = Service.newYear := by
    show (Clocks.start Service.newYear none).now = Service.newYear
    decide
  have httl : g.admission.limiter.config.window.add? g.admission.limiter.config.safetyMargin =
      some (.ofSeconds 61) := by
    rw [hlimiter]
    decide
  have hexpiry : Store.expiry 0 (.ofSeconds 61) = .ok (0 + (Span.ofSeconds 61).nanos) :=
    Store.expiry_ok (by decide)
  have hroom : g.admission.limiter.limitFor subject = 100 := by
    rw [hlimiter]
    cases subject <;> rfl
  have hdone : s.world.store.perform s.world.mono (.issued (s.world.tokens + 1))
      (g.admission.limiter.asking subject Service.newYear (.ofSeconds 61)) =
        .ok (.window ⟨true, 1, some Service.newYear.stamp⟩, _) :=
    Store.LocalStore.perform_record_first rfl (by rw [hroom]; decide) (by decide) hexpiry _
  have hgranting : g.admission.limiter.granting subject Service.newYear
      ⟨true, 1, some Service.newYear.stamp⟩ = firstOf100 := by
    rw [Limiter.granting, hroom, hlimiter]
    rfl
  rcases h (s.world.afterCall (g.admission.limiter.asking subject Service.newYear (.ofSeconds 61)) _)
    with ⟨standing, howed, hsettles⟩
  rw [← hgranting] at hsettles
  have hguard := settles_letIn (World.serves_of_faultless rfl _) hnow httl hdone rfl hsettles
  have hlog := (resume_settled (s := s) (i := 0) (t := g.task) rfl rfl hguard fun _ => howed).1
  refine ⟨g.admission.limiter.asked subject Service.newYear (.ofSeconds 61)
    ⟨true, 1, some Service.newYear.stamp⟩ ++ [.read Service.newYear, .resumed], ?_, ?_⟩
  · have hwhole : (alone g).log = s.entries (.resume 0) := List.append_nil _
    rw [hwhole, hlog, own_entriesOf_self, List.append_assoc, List.append_assoc]
    rfl
  · rw [← hgranting]
    exact ⟨rfl, _, _, rfl, Limiter.decides_of_admitted _ httl rfl⟩

end

/-- Bodies take part in the keys of uploads, and only posts are guarded.  Up to five bytes
are buffered. -/
def uploads : Admission where
  limiter := .standard .standard
  once := { Once.Config.standard with
    methods := some [.post]
    scheme := ⟨true, KeyScheme.usualMethods⟩ }
  resolver := .anonymous
  perIdentity := false
  maxRequestBody := 5

/-- Somebody who puts a file, in two frames, and names a key. -/
def uploader (last : String) : Guest where
  admission := uploads
  request := ⟨.put, "/files/a", .ofList [Service.sharedKey],
    .stream [Bytes.ofText "he", Bytes.ofText last] none, none⟩
  handler := ⟨none, fun _ _ => some ⟨201, .empty, .ofBytes (Bytes.ofText "stored")⟩⟩
  time := 0
  cancelAt := none

/-- The upload bypasses the coordinator. -/
theorem uploader_bypasses (last : String) :
    (uploader last).admission.Bypasses (uploader last).request := by
  have hcarried : Admission.carried (.ofList [Service.sharedKey]) = .token "k" := by decide
  exact .inr ⟨"k", hcarried, rfl⟩

/-- Five bytes are handed over, in one run of the handler, and the guest is answered with
its response. -/
theorem shortUpload_served :
    (∃ body : Http.Body, body.delivered = (Bytes.ofText "hello", none) ∧
      handedOver (own 0 (alone (uploader "llo")).log) =
        [{ (uploader "llo").request with body := body }]) ∧
      (answerOf (alone (uploader "llo")) 0).map (fun answer => (answer.status, answer.body.bytes)) =
        some (201, Bytes.ofText "stored") := by
  have hkept : ¬ (uploader "llo").admission.Withholds (uploader "llo").request := by
    rintro ⟨_, _, hcannot⟩
    exact hcannot (by decide)
  rcases Admission.coordinate_of_bypasses (uploader_bypasses "llo") hkept with ⟨body, _, heq⟩
  let stored : Http.Response := ⟨201, .empty, .ofBytes (Bytes.ofText "stored")⟩
  have hserve : ∀ w : World, ∃ standing, standing.owed = none ∧
      Settles (uploader "llo").handler w none
        ((uploader "llo").admission.coordinate Once.served (uploader "llo").request >>=
          fun response => pure (firstOf100.mark response))
        [.ended, .finished (some stored), .began { (uploader "llo").request with body := body }]
        standing := by
    intro w
    have hruns : Settles (uploader "llo").handler w none
        (.serve { (uploader "llo").request with body := body } fun response =>
          .done (firstOf100.mark (Admission.markReplayed false response)))
        ([.ended] ++ [.finished (some stored), .began { (uploader "llo").request with body := body }])
        _ := Settles.serve rfl rfl (Settles.done _ _ _ _)
    rw [heq]
    exact ⟨_, rfl, hruns⟩
  rcases alone_letIn rfl hserve with ⟨older, hown, hletIn⟩
  have hserved := (bypass_served_iff rfl rfl (uploader_bypasses "llo") hown hletIn).1.2 hkept
  rcases hserved with ⟨body', hbody', hhanded, _⟩
  exact ⟨⟨body', hbody', hhanded⟩, by decide +kernel⟩

/-- Six bytes are refused, although the method is not guarded, and the handler is not
run. -/
theorem longUpload_refused :
    (uploader "llo!").admission.Bypasses (uploader "llo!").request ∧
      (∃ older, own 0 (alone (uploader "llo!")).log = [.ended] ++ older ∧
        (uploader "llo!").LetIn older firstOf100) ∧
      handedOver (own 0 (alone (uploader "llo!")).log) = [] ∧
      (answerOf (alone (uploader "llo!")) 0).map (·.status) = some 413 := by
  have hwithholds : (uploader "llo!").admission.Withholds (uploader "llo!").request := by
    have hcarried : Admission.carried (.ofList [Service.sharedKey]) = .token "k" := by decide
    exact ⟨⟨"k", hcarried⟩, rfl, by decide⟩
  have hrefuse : ∀ w : World, ∃ standing, standing.owed = none ∧
      Settles (uploader "llo!").handler w none
        ((uploader "llo!").admission.coordinate Once.served (uploader "llo!").request >>=
          fun response => pure (firstOf100.mark response)) [.ended] standing := by
    intro w
    rw [Admission.coordinate_of_withholds hwithholds]
    exact ⟨_, rfl, Settles.done _ _ _ _⟩
  refine ⟨uploader_bypasses "llo!", alone_letIn rfl hrefuse, ?_, by decide +kernel⟩
  rcases alone_letIn rfl hrefuse with ⟨older, hown, hletIn⟩
  rw [hown, handedOver_append, hletIn.handedOver_eq_nil]
  rfl

end Guest

end Turnstile

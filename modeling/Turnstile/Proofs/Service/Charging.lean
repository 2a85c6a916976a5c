import Turnstile.Proofs.Limiter.Remaining
import Turnstile.Proofs.Service.Bypass
import Turnstile.Proofs.Store.Charging

/-!
# Charges

A request is first counted for its caller, and only then is anybody asked whether it was
answered before.  The limiter and the coordinator keep what they know in one store, and a
request can leave the admission in many ways: a replay, a response that is recorded or
not, a refusal for its token or its body, a conflict, a failure of the store, or its
caller goes away.  Whichever way it leaves, it was charged to its caller once, and neither
of the two touches what the other one keeps.

This is said of every call that is carried out for a guest, by the store before it and
after it, in runs with any other tasks.

Main results:

- Theorem `Admission.coordinate_spares`: nothing that is done for a request after it was
  let in touches a rate window.
- Theorem `Guest.turnedAway`: a guest that the limiter refuses is told so, and nothing
  else is done for it.
- Theorem `Guest.chargedOnce`: a guest that it lets in is charged once.
- Theorem `Guest.charged_once_or_turned_away`: both of them, in every run.
-/

namespace Turnstile

open Run
open Store (Answer Call Charges LocalStore Prunes Ran)

/-! ## After the limiter -/

namespace Admission

/-- Nothing that is done for a request after it was let in touches a rate window. -/
theorem coordinate_spares (a : Admission) (request : Http.Request) :
    Makes Call.SparesWindows Call.SparesWindows (a.coordinate Once.served request) := by
  have hserved : ∀ request', Makes Call.SparesWindows Call.SparesWindows (Once.served request') :=
    fun _ _ => trivial
  rcases a.coordinate_cases Once.served request with
    ⟨f, _, heq | ⟨event, heq⟩⟩ | ⟨body, heq⟩ | ⟨key, body, _, heq⟩
  · rw [heq]
    exact trivial
  · rw [heq]
    exact trivial
  · rw [heq]
    exact fun _ => trivial
  · rw [heq]
    refine (Once.guarded_makes ?_).bind fun _ _ => trivial
    exact ⟨hserved _, fun _ => trivial, fun _ _ _ => trivial, fun _ => trivial,
      fun _ _ => trivial, fun _ _ => trivial⟩

end Admission

/-! ## What the limiter noted -/

namespace Limiter

variable {l : Limiter} {handler : Handler} {subject : Subject} {notes : List Note}
  {decision : Decision}

/-- Whom the limiter refuses, the store has refused. -/
theorem Decides.of_refused (h : l.Decides handler subject notes decision)
    (hrefused : decision.allowed = false) : ∃ now ttl answer,
      notes = .emitted (.rateLimited (l.keyFor subject) (l.limitFor subject)) ::
        l.inquired subject now ttl answer ∧ (outcomeOf answer).admitted = false := by
  cases h.verdict with
  | refused _ hstore => exact ⟨_, _, _, rfl, hstore⟩
  | admitted => exact nomatch hrefused
  | wavedThrough => exact nomatch hrefused

/-- Whom the limiter lets in, the store has admitted, if it did not fail. -/
theorem Decides.of_allowed (h : l.Decides handler subject notes decision)
    (hallowed : decision.allowed = true)
    (hserved : ∀ call error, .told call (.error error) ∉ notes) : ∃ now ttl answer,
      notes = l.inquired subject now ttl answer ∧ (outcomeOf answer).admitted = true := by
  cases h.verdict with
  | admitted _ hstore => exact ⟨_, _, _, rfl, hstore⟩
  | refused => exact nomatch hallowed
  | @wavedThrough now ttl answer error _ _ =>
      have htold : .told (l.asking subject now ttl) (.error error) ∈
          l.unanswered subject now ttl answer error := List.mem_cons_of_mem _ List.mem_cons_self
      exact absurd htold (hserved _ _)

/-- The question is a call that does not spare every window. -/
theorem not_spares_asking (l : Limiter) (subject : Subject) (now : Timestamp) (ttl : Span) :
    ¬ (l.asking subject now ttl).SparesWindows :=
  fun hspares => hspares (l.keyFor subject) rfl

section

variable {newer : List Note} {now asked : Timestamp} {ttl : Span} {answer : Answer}

/-- Where only calls follow that spare the windows, every other one was the question. -/
theorem asking_or_spares (hlater : ∀ c a, .done c a ∈ newer → c.SparesWindows) {c : Call}
    {a : Answer}
    (hdone : .done c a ∈ newer ++ (l.inquired subject asked ttl answer ++ [.read now, .resumed])) :
    (c = l.asking subject asked ttl ∧ a = answer) ∨ c.SparesWindows := by
  rcases List.mem_append.1 hdone with hdone | hdone
  · exact .inr (hlater c a hdone)
  · exact .inl (by simpa [inquired] using hdone)

/-- The question was carried out once then. -/
theorem count_asking (hlater : ∀ c a, .done c a ∈ newer → c.SparesWindows) :
    (carriedOut (newer ++ (l.inquired subject asked ttl answer ++ [.read now, .resumed]))).count
      (l.asking subject asked ttl) = 1 := by
  have hnone : l.asking subject asked ttl ∉ carriedOut newer := by
    intro hmem
    rcases mem_carriedOut.1 hmem with ⟨a, hdone⟩
    exact l.not_spares_asking subject asked ttl (hlater _ a hdone)
  have hinquiry : carriedOut (l.inquired subject asked ttl answer ++ [.read now, .resumed]) =
      [l.asking subject asked ttl] := rfl
  rw [carriedOut_append, hinquiry, List.count_append, List.count_eq_zero.2 hnone,
    List.count_singleton_self]

end

/-- A request that is refused is decided with an event. -/
theorem decide_of_refused (l : Limiter) (subject : Subject) (now : Timestamp)
    {outcome : Store.WindowOutcome} (hrefused : outcome.admitted = false) :
    l.decide subject (l.limitFor subject) now outcome =
      .emit (.rateLimited (l.keyFor subject) (l.limitFor subject))
        (.done (l.refusing subject now outcome)) :=
  if_neg (by simp [hrefused])

/-- A limiter refuses whom the store refuses. -/
theorem decides_of_refused (l : Limiter) {handler : Handler} {subject : Subject} {now : Timestamp}
    {ttl : Span} (httl : l.config.window.add? l.config.safetyMargin = some ttl)
    {outcome : Store.WindowOutcome} (hrefused : outcome.admitted = false) :
    l.Decides handler subject
      (.emitted (.rateLimited (l.keyFor subject) (l.limitFor subject)) ::
        l.asked subject now ttl outcome) (l.refusing subject now outcome) :=
  have hverdict : l.Verdict subject
      (.emitted (.rateLimited (l.keyFor subject) (l.limitFor subject)) ::
        l.inquired subject now ttl (.window outcome)) _ := .refused httl hrefused
  verdict_iff.1 hverdict

end Limiter

/-! ## Guests -/

namespace Guest

/-- The guest is turned away: it is told so, and nothing is done for it but that its
request is counted in vain. -/
structure TurnedAway (run : Chronicle Http.Response) (i : Nat) (key : String) (limit : Nat) :
    Prop where
  told : ∃ answer, answerOf run i = some answer ∧ answer.status = 429
  unserved : handedOver (own i run.log) = []
  events : reported (own i run.log) = [.rateLimited key limit]
  /-- Values and locks stay as they are, and no window gets a stamp. -/
  store : ∀ call time before after, CarriesOut run.log i call time before after →
    Prunes before after time key
  left : ∀ owed, .quit owed ∉ own i run.log

/-- The guest is charged once: of all that is carried out for it one call adds a stamp to
the window under the key, and no other touches any window. -/
structure ChargedOnce (log : Log) (i : Nat) (key : String) : Prop where
  store : ∃ call, (carriedOut (own i log)).count call = 1 ∧
    (∃ time before after, CarriesOut log i call time before after) ∧
    ∀ c time before after, CarriesOut log i c time before after →
      (c = call → Charges before after time key) ∧ (c ≠ call → after.windows = before.windows)
  left : ∀ owed, .quit (some owed) ∈ own i log → owed.SparesWindows

section

variable {s : State Http.Response} {happenings : List Happening} {run : Chronicle Http.Response}
  {i : Nat} {g : Guest} {newer inquiry : List Note} {now : Timestamp} {decision : Decision}

/-- A guest that the limiter refuses is turned away. -/
theorem turnedAway (hrun : run = .of s happenings) (hfits : ∀ t ∈ s.tasks, t.Fits)
    (hg : s.tasks[i]? = some g.task)
    (hown : own i run.log = newer ++ (inquiry ++ [.read now, .resumed]))
    (hdecides : g.admission.limiter.Decides g.handler (g.subjectAt now) inquiry decision)
    (hrefused : decision.allowed = false) :
    TurnedAway run i (g.admission.limiter.keyFor (g.subjectAt now))
      (g.admission.limiter.limitFor (g.subjectAt now)) := by
  subst hrun
  rcases (chronicle_path hfits happenings).rest hg hown (decided_path hdecides) with ⟨t, ht, hpath⟩
  have hafter : g.admission.afterLimiter (g.subjectAt now) Once.served g.request (.ok decision) =
      .done (Admission.markReplayed false decision.rejection) := if_neg (by simp [hrefused])
  rw [hafter] at hpath
  rcases hpath.of_done fun program owed => stage_ne_going t.wait t.owed owed program with
    ⟨rfl, hstage⟩
  rcases hdecides.of_refused hrefused with ⟨asked, ttl, answer, rfl, hstore⟩
  refine ⟨⟨Admission.markReplayed false decision.rejection, ?_, rfl⟩, ?_, ?_, ?_, ?_⟩
  · rw [answerOf_eq ht, hstage]
    rfl
  · rw [hown]
    rfl
  · rw [hown]
    rfl
  · intro call time before after hcarries
    rcases hcarries.noted with ⟨past, given, fresh, hdone, hran, hperform⟩
    rw [hown] at hdone
    obtain ⟨rfl, rfl⟩ : call = g.admission.limiter.asking (g.subjectAt now) asked ttl ∧
        given = answer := by simpa [Limiter.inquired] using hdone
    rcases hran.charges_or_prunes (Limiter.minStamp_le_stamp asked) hperform with
      ⟨outcome, rfl, _, hprunes⟩
    exact hprunes hstore
  · rw [hown]
    simp [Limiter.inquired]

/-- A guest that the limiter lets in is charged once, whatever becomes of it then. -/
theorem chargedOnce (hrun : run = .of s happenings) (hfits : ∀ t ∈ s.tasks, t.Fits)
    (hempty : s.world.store = .empty) (hg : s.tasks[i]? = some g.task)
    (hown : own i run.log = newer ++ (inquiry ++ [.read now, .resumed]))
    (hdecides : g.admission.limiter.Decides g.handler (g.subjectAt now) inquiry decision)
    (hserved : ∀ call error, .told call (.error error) ∉ inquiry)
    (hallowed : decision.allowed = true) :
    ChargedOnce run.log i (g.admission.limiter.keyFor (g.subjectAt now)) := by
  subst hrun
  rcases (chronicle_path hfits happenings).rest hg hown (decided_path hdecides) with ⟨t, _, hpath⟩
  rw [g.afterLimiter_of_allowed _ hallowed] at hpath
  have hspares : Makes Call.SparesWindows Call.SparesWindows
      (g.admission.coordinate Once.served g.request >>= fun response =>
        pure (decision.mark response)) :=
    (g.admission.coordinate_spares g.request).bind fun _ _ => trivial
  rcases hspares.of_path hpath with ⟨hlater, hleft⟩
  rcases hdecides.of_allowed hallowed hserved with ⟨asked, ttl, answer, rfl, hstore⟩
  let call := g.admission.limiter.asking (g.subjectAt now) asked ttl
  have hcharges : ¬ call.SparesWindows := g.admission.limiter.not_spares_asking _ asked ttl
  have hran := (chronicle_kept s happenings).ran hempty
  have honce : (carriedOut (own i (Chronicle.of s happenings).log)).count call = 1 := by
    rw [hown]
    exact Limiter.count_asking hlater
  have hmem : call ∈ carriedOut (own i (Chronicle.of s happenings).log) :=
    List.count_pos_iff.1 (by omega)
  refine ⟨⟨call, honce, exists_carriesOut hran hmem, ?_⟩, ?_⟩
  · intro c time before after hcarries
    rcases hcarries.noted with ⟨past, given, fresh, hdone, hran, hperform⟩
    rw [hown] at hdone
    have hnoted := Limiter.asking_or_spares hlater hdone
    constructor
    · rintro rfl
      rcases hnoted with ⟨_, rfl⟩ | hspares
      · rcases hran.charges_or_prunes (Limiter.minStamp_le_stamp asked) hperform with
          ⟨outcome, rfl, hcharge, _⟩
        exact hcharge hstore
      · exact absurd hspares hcharges
    · intro hne
      rcases hnoted with ⟨heq, _⟩ | hspares
      · exact absurd heq hne
      · exact LocalStore.windows_of_spares hperform hspares
  · intro owed hquit
    rw [hown] at hquit
    rcases List.mem_append.1 hquit with hquit | hquit
    · exact hleft owed hquit
    · simp [Limiter.inquired] at hquit

/-- The limiter comes before the coordinator, and charges once.  In every run in which the
store answers its question, a guest that it refuses is turned away, and a guest that it
lets in is charged once. -/
theorem charged_once_or_turned_away (hrun : run = .of s happenings) (hfits : ∀ t ∈ s.tasks, t.Fits)
    (hempty : s.world.store = .empty) (hg : s.tasks[i]? = some g.task)
    (hown : own i run.log = newer ++ (inquiry ++ [.read now, .resumed]))
    (hdecides : g.admission.limiter.Decides g.handler (g.subjectAt now) inquiry decision)
    (hserved : ∀ call error, .told call (.error error) ∉ inquiry) :
    (decision.allowed = false →
      TurnedAway run i (g.admission.limiter.keyFor (g.subjectAt now))
        (g.admission.limiter.limitFor (g.subjectAt now))) ∧
    (decision.allowed = true →
      ChargedOnce run.log i (g.admission.limiter.keyFor (g.subjectAt now))) :=
  ⟨turnedAway hrun hfits hg hown hdecides, chargedOnce hrun hfits hempty hg hown hdecides hserved⟩

end

/-! ## Two uploads in a minute -/

section

variable {g : Guest} {now : Timestamp}

/-- A guest whom the store refuses is turned away at once. -/
theorem settles_turnedAway {w : World} {ttl : Span} {outcome : Store.WindowOutcome}
    {store : LocalStore} (hserves : w.Serves .recordInWindow) (hnow : w.clocks.now = now)
    (httl : g.admission.limiter.config.window.add? g.admission.limiter.config.safetyMargin =
      some ttl)
    (hdone : w.store.perform w.mono (.issued (w.tokens + 1))
      (g.admission.limiter.asking (g.subjectAt now) now ttl) = .ok (.window outcome, store))
    (hrefused : outcome.admitted = false) :
    ∃ standing, standing.owed = none ∧
      Settles g.handler w none (g.admission.guard Once.served g.request)
        ([.ended, .emitted (.rateLimited (g.admission.limiter.keyFor (g.subjectAt now))
            (g.admission.limiter.limitFor (g.subjectAt now)))] ++
          g.admission.limiter.asked (g.subjectAt now) now ttl outcome ++ [.read now]) standing := by
  let event : Event := .rateLimited (g.admission.limiter.keyFor (g.subjectAt now))
    (g.admission.limiter.limitFor (g.subjectAt now))
  let told := Admission.markReplayed false
    (g.admission.limiter.refusing (g.subjectAt now) now outcome).rejection
  have hprogram : ((g.admission.limiter.decide (g.subjectAt now)
      (g.admission.limiter.limitFor (g.subjectAt now)) now outcome).bind fun decision =>
        g.admission.afterLimiter (g.subjectAt now) Once.served g.request (.ok decision)) =
      .emit event (.done told) := by
    rw [Limiter.decide_of_refused _ _ _ hrefused]
    rfl
  have hturned : Settles g.handler
      (w.afterCall (g.admission.limiter.asking (g.subjectAt now) now ttl) store) none
      (.emit event (.done told)) _ _ := .emit (.done g.handler _ none told)
  rw [← hprogram] at hturned
  exact ⟨_, rfl, settles_guard hserves hnow httl hdone hturned⟩

/-- A guest whom the store admits and whose body is withheld is told so. -/
theorem settles_withheld {w : World} {ttl : Span} {outcome : Store.WindowOutcome}
    {store : LocalStore} (hserves : w.Serves .recordInWindow) (hnow : w.clocks.now = now)
    (httl : g.admission.limiter.config.window.add? g.admission.limiter.config.safetyMargin =
      some ttl)
    (hdone : w.store.perform w.mono (.issued (w.tokens + 1))
      (g.admission.limiter.asking (g.subjectAt now) now ttl) = .ok (.window outcome, store))
    (hadmitted : outcome.admitted = true) (hwithholds : g.admission.Withholds g.request) :
    ∃ standing, standing.owed = none ∧
      standing.world = w.afterCall (g.admission.limiter.asking (g.subjectAt now) now ttl) store ∧
      Settles g.handler w none (g.admission.guard Once.served g.request)
        ([.ended] ++ g.admission.limiter.asked (g.subjectAt now) now ttl outcome ++ [.read now])
        standing := by
  have hprogram : (g.admission.coordinate Once.served g.request >>= fun response =>
      pure ((g.admission.limiter.granting (g.subjectAt now) now outcome).mark response)) =
      .done ((g.admission.limiter.granting (g.subjectAt now) now outcome).mark
        (Admission.refuse .payloadTooLarge)) := by
    rw [Admission.coordinate_of_withholds hwithholds]
    rfl
  have hrefused := Settles.done g.handler
    (w.afterCall (g.admission.limiter.asking (g.subjectAt now) now ttl) store) none
    ((g.admission.limiter.granting (g.subjectAt now) now outcome).mark
      (Admission.refuse .payloadTooLarge))
  rw [← hprogram] at hrefused
  exact ⟨_, rfl, rfl, settles_letIn hserves hnow httl hdone hadmitted hrefused⟩

end

/-- An admission for uploads with room for one request a minute. -/
def narrow : Admission :=
  { uploads with limiter := .standard { LimiterConfig.standard with limit := 1 } }

/-- Somebody who puts a file that is too long to be buffered. -/
def sender : Guest :=
  { uploader "llo!" with admission := narrow }

/-- The file is put twice at the beginning of 2024. -/
def twoSenders : Chronicle Http.Response :=
  .of (begin (.start Service.newYear none) .faultless [sender, sender])
    [.move (.resume 0), .move (.resume 1)]

/-- For whom both of them are counted. -/
def sending : Subject := sender.subjectAt Service.newYear

/-- How long their requests are kept. -/
def sendingTtl : Span := .ofSeconds 61

/-- What is reported of a request for which there is no room. -/
def sendingRefused : Note :=
  .emitted (.rateLimited (narrow.limiter.keyFor sending) (narrow.limiter.limitFor sending))

theorem sending_add? :
    narrow.limiter.config.window.add? narrow.limiter.config.safetyMargin = some sendingTtl := by
  decide

theorem sending_limitFor : narrow.limiter.limitFor sending = 1 := by
  cases sending <;> rfl

/-- The file is too long to be buffered. -/
theorem sender_withholds : sender.admission.Withholds sender.request := by
  have hcarried : Admission.carried (.ofList [Service.sharedKey]) = .token "k" := by decide
  exact ⟨⟨"k", hcarried⟩, rfl, by decide⟩

/-- The first file is counted before it is refused for its length, and the second one is
turned away before anybody looks at it. -/
theorem twoSenders_own :
    own 0 twoSenders.log = [.ended] ++ (narrow.limiter.asked sending Service.newYear sendingTtl
      ⟨true, 1, some Service.newYear.stamp⟩ ++ [.read Service.newYear, .resumed]) ∧
    ∃ outcome : Store.WindowOutcome, outcome.admitted = false ∧
      own 1 twoSenders.log = [.ended] ++ (sendingRefused ::
        narrow.limiter.asked sending Service.newYear sendingTtl outcome ++
          [.read Service.newYear, .resumed]) := by
  let s : State Http.Response := begin (.start Service.newYear none) .faultless [sender, sender]
  let call : Call := narrow.limiter.asking sending Service.newYear sendingTtl
  have hnow : s.world.clocks.now = Service.newYear := by
    show (Clocks.start Service.newYear none).now = Service.newYear
    decide
  have hexpiry : Store.expiry 0 sendingTtl = .ok (0 + sendingTtl.nanos) :=
    Store.expiry_ok (by decide)
  have hdone : s.world.store.perform s.world.mono (.issued (s.world.tokens + 1)) call =
      .ok (.window ⟨true, 1, some Service.newYear.stamp⟩, _) :=
    LocalStore.perform_record_first rfl (by rw [sending_limitFor]; decide) (by decide) hexpiry _
  rcases settles_withheld (g := sender) (World.serves_of_faultless rfl _) hnow sending_add? hdone
    rfl sender_withholds with ⟨first, howed, hworld, hfirst⟩
  have hstamp : Timestamp.minStamp ≤ Service.newYear.stamp := by decide
  have hkept : 0 < sendingTtl.nanos := by decide
  -- The window is full then.
  have hfull := (LocalStore.tallies_of_perform hstamp hkept hdone).after
  have hcount : narrow.limiter.limitFor sending ≤ first.world.store.count first.world.mono
      (narrow.limiter.keyFor sending) Service.newYear.stamp narrow.limiter.config.window := by
    rw [hworld, sending_limitFor]
    exact Nat.le_of_eq hfull.symm
  rcases first.world.store.refuses_of_full (.issued (first.world.tokens + 1)) sendingTtl hcount with
    ⟨outcome, store, hdone', hrefused⟩
  have hnow' : first.world.clocks.now = Service.newYear := by
    rw [hworld]
    exact hnow
  have hserves' : first.world.Serves .recordInWindow := by
    rw [hworld]
    exact World.serves_of_faultless rfl _
  rcases settles_turnedAway (g := sender) hserves' hnow' sending_add? hdone' hrefused with
    ⟨second, howed', hsecond⟩
  have hlog := (resume_two (s := s) rfl rfl hfirst howed rfl hsecond howed').1
  unfold twoSenders
  rw [hlog]
  refine ⟨?_, outcome, hrefused, ?_⟩
  · rw [own_append, own_entriesOf_of_ne (by decide), own_entriesOf_self]
    rfl
  · rw [own_append, own_entriesOf_self, own_entriesOf_of_ne (by decide)]
    rfl

/-- The first is charged once, although its file is refused, and the second is turned
away. -/
theorem twoSenders_charged :
    ChargedOnce twoSenders.log 0 (narrow.limiter.keyFor sending) ∧
      (answerOf twoSenders 0).map (·.status) = some 413 ∧
      TurnedAway twoSenders 1 (narrow.limiter.keyFor sending) 1 := by
  rcases twoSenders_own with ⟨hown, outcome, hrefused, hown'⟩
  have hfits := (begins (.start Service.newYear none) .faultless [sender, sender]).fits
  let admitted : Store.WindowOutcome := ⟨true, 1, some Service.newYear.stamp⟩
  have hadmits : narrow.limiter.Decides sender.handler sending
      (narrow.limiter.asked sending Service.newYear sendingTtl admitted)
      (narrow.limiter.granting sending Service.newYear admitted) :=
    Limiter.decides_of_admitted _ sending_add? rfl
  have hrefuses : narrow.limiter.Decides sender.handler sending
      (sendingRefused :: narrow.limiter.asked sending Service.newYear sendingTtl outcome)
      (narrow.limiter.refusing sending Service.newYear outcome) :=
    Limiter.decides_of_refused _ sending_add? hrefused
  have hasked : ∀ outcome call error, .told call (.error error) ∉
      narrow.limiter.asked sending Service.newYear sendingTtl outcome := by
    simp [Limiter.asked]
  have hasked' : ∀ call error, .told call (.error error) ∉
      sendingRefused :: narrow.limiter.asked sending Service.newYear sendingTtl outcome := by
    simp [Limiter.asked, sendingRefused]
  have hfirst :=
    charged_once_or_turned_away (g := sender) rfl hfits rfl rfl hown hadmits (hasked _)
  have hsecond := charged_once_or_turned_away (g := sender) rfl hfits rfl rfl hown' hrefuses hasked'
  refine ⟨hfirst.2 rfl, by decide +kernel, ?_⟩
  rw [← sending_limitFor]
  exact hsecond.1 rfl

end Guest

end Turnstile

import Turnstile.Proofs.Limiter.Limit
import Turnstile.Proofs.Store.Room
import Turnstile.Service.Throttle

/-!
# Waiting for room

Whoever is refused is told how long it takes until the oldest stamp of the window
is as old as the window is long.  A stamp counts for as long as that, and the
window has its beginning with it.  So a caller that comes back just then is refused
again, and told to wait for no time at all; one that comes back a nanosecond later
is let through, if nobody else was in between.

The response rounds the wait up to whole seconds.  That makes it long enough unless
it was a positive number of whole seconds before, or is so long that its seconds cannot
be counted in 64 bits.

Main results:

- Theorem `nanos_retryAfter`: the wait ends when the oldest stamp is as old as
  the window is long.
- Theorem `le_retrySeconds`: the seconds that are told cover the wait.
- Theorem `retryAfter_le`: nobody is told to wait longer than the window is.
- Theorem `ceilSeconds_retryAfter_lt`: where the seconds of the window can be counted, so
  can those of the wait.
- Theorem `admitted_iff_waited_longer`: who comes back is let through if it waited
  longer than it was told.
-/

namespace Turnstile

open Run
open Failure (numberValue)
open Store (Answer Call Deed LocalStore WindowOutcome windowStart)

/-! ## What a refused caller is told -/

/-- The seconds after which a refused caller may try again, as the response tells
them. -/
def Decision.retrySeconds (d : Decision) : Nat :=
  max (roundUp (d.retryAfter.getD (.ofSeconds 1))).seconds 1

theorem Decision.values_rejection (d : Decision) :
    d.rejection.headers.values "retry-after" = [numberValue d.retrySeconds] := by
  let refused : Failure := .rateLimited (roundUp (d.retryAfter.getD (.ofSeconds 1)))
  have htold : refused.response.headers.values "retry-after" = [numberValue d.retrySeconds] :=
    Http.Headers.values_insert_self (Http.Response.json 429 []).headers "retry-after" _
  unfold rejection mark describe
  rw [Http.Headers.values_insert_of_ne _ _ (by decide), Http.Headers.values_insert_of_ne _ _ (by decide),
    Http.Headers.values_insert_of_ne _ _ (by decide), htold]

/-- Where the whole seconds of the wait can be counted, those that are told are no less
than the wait. -/
theorem Decision.le_retrySeconds {d : Decision} {wait : Span} (hwait : d.retryAfter = some wait)
    (hcounts : wait.ceilSeconds < Span.secondsBound) :
    wait.nanos ≤ (Span.ofSeconds d.retrySeconds).nanos := by
  have htold : (roundUp (d.retryAfter.getD (.ofSeconds 1))).seconds = wait.ceilSeconds := by
    rw [hwait, Option.getD_some, roundUp_of_lt hcounts, Span.seconds_ofSeconds]
  unfold retrySeconds
  rw [htold]
  exact Nat.le_trans wait.le_ceilSeconds (Nat.mul_le_mul_right _ (Nat.le_max_left _ _))

namespace Limiter

/-- Nobody is told to wait longer than the window is. -/
theorem retryAfter_le (l : Limiter) (stamp : Int) (oldest : Option Int) :
    (l.retryAfter stamp oldest).nanos ≤ l.config.window.nanos := by
  cases oldest with
  | none => exact Nat.le_refl _
  | some oldest =>
      unfold retryAfter Span.min
      dsimp only
      split
      · assumption
      · exact Nat.le_refl _

/-- Where the whole seconds of the window can be counted, so can those of every wait. -/
theorem ceilSeconds_retryAfter_lt {l : Limiter} (h : l.config.window.ceilSeconds < Span.secondsBound)
    (stamp : Int) (oldest : Option Int) :
    (l.retryAfter stamp oldest).ceilSeconds < Span.secondsBound := by
  have hwait : (l.retryAfter stamp oldest).nanos ≤
      (Span.ofSeconds l.config.window.ceilSeconds).nanos :=
    Nat.le_trans (l.retryAfter_le stamp oldest) l.config.window.le_ceilSeconds
  exact Nat.lt_of_le_of_lt (Span.ceilSeconds_le hwait) h

/-- The wait ends when the oldest stamp is as old as the window is long. -/
theorem nanos_retryAfter (l : Limiter) {stamp oldest : Int}
    (hstart : windowStart stamp l.config.window ≤ oldest) (hle : oldest ≤ stamp)
    (hhigh : stamp + l.config.window.nanos ≤ Timestamp.maxStamp)
    (hlow : 0 ≤ Timestamp.maxStamp - l.config.window.nanos) :
    stamp + (l.retryAfter stamp (some oldest)).nanos = oldest + l.config.window.nanos := by
  have hmax : Timestamp.maxStamp = 9_223_372_036_854_775_807 := rfl
  have hmin : Timestamp.minStamp = -9_223_372_036_854_775_808 := rfl
  unfold windowStart at hstart
  unfold retryAfter Span.min
  dsimp only
  split
  · dsimp only
    omega
  · omega

/-! ## Those who were refused -/

/-- Whoever was refused was told so by the store, and waits as its oldest stamp
says. -/
def refusedAs (l : Limiter) (subject : Subject) (past : List Note) : Reply → Prop
  | .decided (.ok decision) => decision.allowed = false → ∃ now ttl answer,
      l.config.window.add? l.config.safetyMargin = some ttl ∧
      past = .emitted (.rateLimited (l.keyFor subject) (l.limitFor subject)) ::
        l.answered subject now ttl answer ∧
      (outcomeOf answer).admitted = false ∧
      decision.retryAfter = some (l.retryAfter now.stamp (outcomeOf answer).oldest)
  | _ => True

/-- Somebody as a party that is refused so. -/
def Asker.refusable (l : Limiter) (subject : Subject) (a : Asker) : Party Reply :=
  ⟨a.errand.program l subject, a.handler, a.time, a.cancelAt, .ending (l.refusedAs subject)⟩

variable {handler : Handler}

/-- Whoever asks for room is refused so. -/
theorem allow_refused (l : Limiter) (subject : Subject) :
    Keeps handler (.ending (l.refusedAs subject)) [.resumed] (Errand.allow.program l subject) := by
  refine (l.allow_verdict subject [.resumed]).map Reply.decided rfl ?_
  rintro _ result ⟨notes, rfl, hverdict⟩
  cases hverdict with
  | refused httl hrefused => exact fun _ => ⟨_, _, _, httl, rfl, hrefused, rfl⟩
  | admitted => exact nofun
  | wavedThrough => exact nofun
  | failed => exact trivial

/-- Everybody is refused so, if at all. -/
theorem Asker.refusable_keeps (l : Limiter) (subject : Subject) (a : Asker) :
    (a.refusable l subject).Keeps := by
  refine ⟨trivial, ?_⟩
  unfold refusable
  dsimp only
  cases a.errand with
  | allow => exact l.allow_refused subject
  | usage => exact keeps_bind.2 (keeps_ending (fun _ _ => trivial) _ _)
  | remaining => exact keeps_bind.2 (keeps_ending (fun _ _ => trivial) _ _)
  | other program => exact keeps_bind.2 (keeps_ending (fun _ _ => trivial) _ _)

/-- The last call that changed the window under a key is that of a task. -/
def LastToChange (key : String) (log : Log) (i : Nat) : Prop :=
  ∃ newer t call answer past, log = newer ++ ⟨t, some i, .done call answer⟩ :: past ∧
    ¬ call.SparesWindow key ∧
    ∀ e ∈ newer, ∀ call answer, e.note = .done call answer → call.SparesWindow key

section

variable {l : Limiter} {subject : Subject} {clocks : Clocks} {plan : Plan} {askers : List Asker}

/-- What a refused caller noted. -/
theorem own_of_refused {happenings : List Happening} {run : Chronicle Reply}
    (hrun : run = Chronicle.of (begin l subject clocks plan askers) happenings) {i : Nat}
    {t : Run.Task Reply} {decision : Decision} {time : Nat} (ht : run.state.tasks[i]? = some t)
    (hwait : t.wait = .nothing (.result (.decided (.ok decision))) time)
    (hrefused : decision.allowed = false) :
    ∃ now ttl answer, l.config.window.add? l.config.safetyMargin = some ttl ∧
      own i run.log = .ended :: .emitted (.rateLimited (l.keyFor subject) (l.limitFor subject)) ::
        l.answered subject now ttl answer ∧
      (outcomeOf answer).admitted = false ∧
      decision.retryAfter = some (l.retryAfter now.stamp (outcomeOf answer).oldest) := by
  rcases own_of_ended (fun _ => .ending (l.refusedAs subject)) hrun
    (fun a _ => a.refusable_keeps l subject) ht hwait with ⟨_, older, _, hown, hends⟩
  rcases hends hrefused with ⟨now, ttl, answer, httl, rfl, hout, hretry⟩
  exact ⟨now, ttl, answer, httl, hown, hout, hretry⟩

/-- The last call that changed the window is the one that its caller noted. -/
theorem exists_of_lastToChange {log : Log} {i : Nat} {now : Timestamp} {ttl : Span} {answer : Answer}
    (hown : own i log = .ended :: .emitted (.rateLimited (l.keyFor subject) (l.limitFor subject)) ::
      l.answered subject now ttl answer)
    (hlast : LastToChange (l.keyFor subject) log i) :
    ∃ newer t past, log = newer ++ ⟨t, some i, .done (l.asking subject now ttl) answer⟩ :: past ∧
      own i past = [.sent (l.asking subject now ttl), .read now, .resumed] ∧
      ∀ d ∈ deeds newer, d.call.SparesWindow (l.keyFor subject) := by
  rcases hlast with ⟨newer, t, call, answer', past, hlog, _, hspare⟩
  have htold : Tells log ⟨t, some i, .done call answer'⟩ past := by
    rw [hlog]
    exact List.suffix_append _ _
  have hnoted := htold.own
  rw [hown] at hnoted
  have hbehind := suffix_of_head_ne (suffix_of_head_ne (suffix_of_head_ne hnoted nofun) nofun) nofun
  rcases List.suffix_cons_iff.1 hbehind with heq | hbehind
  · rw [List.cons.injEq, Note.done.injEq] at heq
    rcases heq with ⟨⟨rfl, rfl⟩, hpast⟩
    refine ⟨newer, t, past, hlog, hpast, ?_⟩
    intro d hd
    rcases exists_of_mem_deeds hd with ⟨who, older, hdeed⟩
    exact hspare _ hdeed.mem _ _ rfl
  · have hnone := suffix_of_head_ne (suffix_of_head_ne (suffix_of_head_ne hbehind nofun) nofun) nofun
    simp at hnone

/-- Where a request takes effect at once, its reading of the clock is the instant at
which it does. -/
theorem totalNanos_of_done {log past : Log} {offset : Int} (hticks : Ticks offset log)
    (honce : TakesEffectAtOnce (l.keyFor subject) log) {t i : Nat} {now : Timestamp} {ttl : Span}
    {answer : Answer} (htold : Tells log ⟨t, some i, .done (l.asking subject now ttl) answer⟩ past)
    (hpast : own i past = [.sent (l.asking subject now ttl), .read now, .resumed]) :
    now.totalNanos = offset + t ∧
      Timestamp.minStamp ≤ now.totalNanos ∧ now.totalNanos ≤ Timestamp.maxStamp := by
  rcases exists_of_own [.sent (l.asking subject now ttl)] hpast with ⟨t', older, hread, _⟩
  have hat : t' = t := honce _ _ _ _ _ htold (fun hspares => hspares rfl) _ _ _ hread
  have hmem := List.IsSuffix.mem hread.mem htold.suffix
  rw [← hat]
  exact ⟨hticks.reads _ hmem now rfl, hticks.ranged _ hmem now rfl⟩

/-- As long as nobody else has changed the window, whoever was refused left it full,
and waits until its oldest stamp is as old as the window is long. -/
theorem full_of_refused {happenings : List Happening} {run : Chronicle Reply}
    (hrun : run = Chronicle.of (begin l subject clocks plan askers) happenings)
    (hlimit : 0 < l.limitFor subject)
    (hwindow : (l.config.window.nanos : Int) ≤ Timestamp.maxStamp)
    (hmargin : 0 < l.config.safetyMargin.nanos)
    (hothers : ∀ a ∈ askers, a.Spares (l.keyFor subject)) {offset : Int}
    (hticks : Ticks offset run.log) (honce : TakesEffectAtOnce (l.keyFor subject) run.log)
    (hhigh : offset + run.state.world.mono + l.config.window.nanos ≤ Timestamp.maxStamp)
    {i : Nat} {t : Run.Task Reply} {decision : Decision} {time : Nat}
    (ht : run.state.tasks[i]? = some t)
    (hwait : t.wait = .nothing (.result (.decided (.ok decision))) time)
    (hrefused : decision.allowed = false) (hlast : LastToChange (l.keyFor subject) run.log i) :
    ∃ now ttl wait oldest, l.config.window.add? l.config.safetyMargin = some ttl ∧
      readingOf (own i run.log) = some now ∧ decision.retryAfter = some wait ∧
      now.totalNanos + wait.nanos = oldest + l.config.window.nanos ∧
      Timestamp.minStamp ≤ now.totalNanos ∧ now.totalNanos ≤ offset + run.state.world.mono ∧
      Store.FullFrom (l.keyFor subject) offset (l.limitFor subject) ttl run.state.world.store
        run.state.world.mono oldest := by
  rcases own_of_refused hrun ht hwait hrefused with ⟨now, ttl, answer, httl, hown, hout, hretry⟩
  rcases exists_of_lastToChange hown hlast with ⟨newer, t', past, hlog, hpast, hquiet⟩
  have htold : Tells run.log ⟨t', some i, .done (l.asking subject now ttl) answer⟩ past := by
    rw [hlog]
    exact List.suffix_append _ _
  rcases totalNanos_of_done hticks honce htold hpast with ⟨hnow, hrange⟩
  have hstamp : now.stamp = offset + t' := (stamp_eq_totalNanos hrange).trans hnow
  have hkept := chronicle_kept (begin l subject clocks plan askers) happenings
  rw [← hrun] at hkept
  have hran : Store.Ran (deeds run.log) run.state.world.store run.state.world.mono := hkept.ran rfl
  have hbefore : t' ≤ run.state.world.mono := hkept.time_le _ htold.mem
  have haccount : Account (askers.map (Asker.party l subject)) run.log := by
    rw [hrun]
    exact account (begins l subject clocks plan askers) (parties_keep hothers) happenings
  have hslides := slides haccount hticks honce hmargin
  rw [← eq_of_add? httl] at hslides
  have hcall : l.asking subject now ttl = .recordInWindow (l.keyFor subject) (offset + t')
      l.config.window (l.limitFor subject) ttl := by
    rw [asking, hstamp]
  rw [hcall] at hlog htold
  rcases hran.exists_outcome htold.deed with ⟨outcome, rfl⟩
  have hdeeds : deeds run.log = deeds newer ++ ⟨t', .recordInWindow (l.keyFor subject) (offset + t')
      l.config.window (l.limitFor subject) ttl, .window outcome⟩ :: deeds past := by
    rw [hlog, deeds, List.filterMap_append]
    rfl
  rcases hran.full_of_refused hslides hlimit hdeeds hout hquiet with
    ⟨oldest, holdest, hstart, hle, hfull⟩
  have hends := l.nanos_retryAfter hstart hle (by omega) (by omega)
  refine ⟨now, ttl, _, oldest, httl, ?_, hretry, ?_, hrange.1, by omega, hfull⟩
  · rw [hown]
    rfl
  · rw [hstamp]
    show now.totalNanos + ((l.retryAfter (offset + t') outcome.oldest).nanos : Int) = _
    rw [holdest, hnow]
    exact hends

/-- Asking for room ends with a decision where the store answers at once, and the
store decides. -/
theorem settles_allow (handler : Handler) {w : World} {ttl : Span} {outcome : WindowOutcome} {store : LocalStore}
    (httl : l.config.window.add? l.config.safetyMargin = some ttl)
    (hserves : w.Serves .recordInWindow)
    (hdone : w.store.perform w.mono (.issued (w.tokens + 1)) (l.asking subject w.clocks.now ttl) =
      .ok (.window outcome, store)) :
    ∃ notes st, Settles handler w none (Errand.allow.program l subject) notes st ∧
      st.owed = none ∧ ∃ decision, st.wait = .nothing (.result (.decided (.ok decision))) w.mono ∧
        decision.allowed = outcome.admitted := by
  rw [program_allow l subject httl]
  rcases outcome with ⟨admitted, count, oldest⟩
  cases admitted with
  | false =>
      apply Exists.intro
      apply Exists.intro
      apply And.intro
      · apply Settles.now rfl
        apply Settles.call hserves hdone
        apply Settles.emit
        exact Settles.done _ _ _ _
      · exact ⟨rfl, _, rfl, rfl⟩
  | true =>
      apply Exists.intro
      apply Exists.intro
      apply And.intro
      · apply Settles.now rfl
        apply Settles.call hserves hdone
        exact Settles.done _ _ _ _
      · exact ⟨rfl, _, rfl, rfl⟩

end

/-- Waiting for room ends a moment too early.  If requests are recorded at the
instants at which their callers read the clock, and the clock moves together with
the monotonic clock, then whoever asks after a refusal, with nobody in between who
changed the window, is answered, and it is let through if and only if more time has
passed than the refused caller was told to wait.  So it is refused just when that
wait is over, and let through after the seconds that the response tells unless the
wait was as many whole seconds. -/
theorem admitted_iff_waited_longer {l : Limiter} {subject : Subject} {clocks : Clocks} {plan : Plan}
    {askers : List Asker} {happenings : List Happening} {run : Chronicle Reply}
    (hrun : run = Chronicle.of (begin l subject clocks plan askers) happenings)
    (hlimit : 0 < l.limitFor subject)
    (hwindow : (l.config.window.nanos : Int) ≤ Timestamp.maxStamp)
    (hmargin : 0 < l.config.safetyMargin.nanos)
    (hothers : ∀ a ∈ askers, a.Spares (l.keyFor subject))
    {offset : Int} (hticks : Ticks offset run.log)
    (honce : TakesEffectAtOnce (l.keyFor subject) run.log)
    {i : Nat} {t : Run.Task Reply} {decision : Decision} {time : Nat}
    (ht : run.state.tasks[i]? = some t)
    (hwait : t.wait = .nothing (.result (.decided (.ok decision))) time)
    (hrefused : decision.allowed = false) (hlast : LastToChange (l.keyFor subject) run.log i)
    {j : Nat} {a : Asker} (hasks : a.errand = .allow)
    (hj : run.state.tasks[j]? = some (a.task l subject))
    (hserves : run.state.world.Serves .recordInWindow)
    (hnow : run.state.world.clocks.now.totalNanos = offset + run.state.world.mono)
    (hstamp : run.state.world.clocks.now.totalNanos + l.limitFor subject ≤ Timestamp.maxStamp)
    (hhigh : run.state.world.clocks.now.totalNanos + l.config.window.nanos ≤ Timestamp.maxStamp)
    (hend : run.state.world.mono + l.config.window.nanos + l.config.safetyMargin.nanos <
      Moment.bound) :
    ∃ now wait t' decision', readingOf (own i run.log) = some now ∧
      decision.retryAfter = some wait ∧
      (run.state.apply (.resume j)).tasks[j]? = some t' ∧
      t'.wait = .nothing (.result (.decided (.ok decision'))) run.state.world.mono ∧
      (decision'.allowed = true ↔
        now.totalNanos + wait.nanos < run.state.world.clocks.now.totalNanos) ∧
      decision.rejection.headers.values "retry-after" = [numberValue decision.retrySeconds] ∧
      (run.state.world.clocks.now.totalNanos =
          now.totalNanos + (Span.ofSeconds decision.retrySeconds).nanos →
        (decision'.allowed = true ↔ wait ≠ .ofSeconds decision.retrySeconds)) := by
  rcases full_of_refused hrun hlimit hwindow hmargin hothers hticks honce (by omega) ht hwait hrefused
    hlast with ⟨now, ttl, wait, oldest, httl, hread, hretry, hends, hlow, hbefore, hfull⟩
  have hlength : ttl.nanos = l.config.window.nanos + l.config.safetyMargin.nanos :=
    congrArg Span.nanos (eq_of_add? httl)
  rcases hfull.admitted_iff hwindow (by omega) (by omega) (by omega) hlimit
    (.issued (run.state.world.tokens + 1)) with ⟨outcome, store, hdone, hadmitted⟩
  have hasked : l.asking subject run.state.world.clocks.now ttl = .recordInWindow (l.keyFor subject)
      (offset + run.state.world.mono) l.config.window (l.limitFor subject) ttl := by
    unfold asking
    rw [stamp_eq_totalNanos (by omega), hnow]
  rw [← hasked] at hdone
  rcases settles_allow a.handler httl hserves hdone with
    ⟨notes, st, hsettles, howed, decision', hended, hallowed⟩
  rw [← hasks] at hsettles
  have hstep := (resume_settled hj rfl hsettles fun _ => howed).2
  have hlt := (List.getElem?_eq_some_iff.1 hj).1
  have hiff : decision'.allowed = true ↔
      now.totalNanos + wait.nanos < run.state.world.clocks.now.totalNanos := by
    rw [hallowed, hadmitted, hnow]
    omega
  refine ⟨now, wait, (a.task l subject).standing st, decision', hread, hretry, ?_, hended, hiff,
    decision.values_rejection, ?_⟩
  · rw [hstep]
    exact List.getElem?_set_self hlt
  · intro hseconds
    have hcounts : wait.ceilSeconds < Span.secondsBound := by
      rcases own_of_refused hrun ht hwait hrefused with ⟨past, _, answer, _, _, _, htold⟩
      rw [Option.some.inj (hretry.symm.trans htold)]
      have hmax : Timestamp.maxStamp = 9_223_372_036_854_775_807 := rfl
      have hshort : l.config.window.ceilSeconds ≤ 9_223_372_037 := Span.ceilSeconds_le (by
        unfold Span.ofSeconds
        dsimp only
        omega)
      exact ceilSeconds_retryAfter_lt (Nat.lt_of_le_of_lt hshort (by decide)) _ _
    have hle := decision.le_retrySeconds hretry hcounts
    have hne : wait ≠ .ofSeconds decision.retrySeconds ↔
        wait.nanos ≠ (Span.ofSeconds decision.retrySeconds).nanos :=
      not_congr ⟨fun heq => congrArg Span.nanos heq, fun heq => congrArg Span.mk heq⟩
    rw [hiff, hseconds, hne]
    omega

/-! ## A guest that comes back -/

/-- The decision with which a task has ended, if it has ended with one. -/
def decisionOf (t : Run.Task Reply) : Option Decision :=
  match t.wait with
  | .nothing (.result (.decided (.ok decision))) _ => some decision
  | _ => none

/-- The guest asks at the beginning of 1970, ten seconds later, and once more when the
monotonic clock shows `moment`. -/
def comesBack (moment : Nat) : List Happening :=
  [.move (.resume 0), .pass 10_000_000_000, .move (.resume 1), .pass moment]

/-- A run in which the guest comes back. -/
def guestReturns (happenings : List Happening) : Chronicle Reply :=
  .of (begin strict guest (.start .epoch none) .faultless [guestAsker, guestAsker, guestAsker])
    happenings

/-- The guest is let through, refused for fifty seconds, and refused again when they
are over. -/
theorem returning_guest_refused :
    (guestReturns (comesBack 60_000_000_000 ++ [.move (.resume 2)])).state.tasks.map decisionOf =
      [some ⟨true, 1, 0, ⟨60, 0⟩, none⟩, some ⟨false, 1, 0, ⟨70, 0⟩, some (.ofSeconds 50)⟩,
        some ⟨false, 1, 0, ⟨120, 0⟩, some .zero⟩] := by
  decide +kernel

/-- A nanosecond later it is let through. -/
theorem returning_guest_admitted :
    ∃ t' decision', ((guestReturns (comesBack 60_000_000_001)).state.apply (.resume 2)).tasks[2]? =
        some t' ∧
      t'.wait = .nothing (.result (.decided (.ok decision'))) 60_000_000_001 ∧
      decision'.allowed = true := by
  let run : Chronicle Reply := guestReturns (comesBack 60_000_000_001)
  have hothers : ∀ a ∈ [guestAsker, guestAsker, guestAsker], a.Spares (strict.keyFor guest) := by
    intro a ha program hother
    have hasker : a = guestAsker := by simpa using ha
    rw [hasker] at hother
    cases hother
  -- What a task notes it notes at one time.
  have htimes : ∀ e ∈ run.log, e.time ≤ 10_000_000_000 ∧
      (e.task = some 0 → e.time = 0) ∧ (e.task = some 1 → e.time = 10_000_000_000) ∧
      (e.task = some 0 ∨ e.task = some 1) := by
    decide +kernel
  have hticks : Ticks Timestamp.epoch.totalNanos run.log := by
    refine ticks_of_setsNoClock
      (s := begin strict guest (.start .epoch none) .faultless [guestAsker, guestAsker, guestAsker])
      (by simp [comesBack, Happening.SetsNoClock]) rfl ?_
    intro e he
    have hle := (htimes e he).1
    have hoffset : (Clocks.start .epoch none).offset = 0 := by decide
    have hmin : Timestamp.minStamp ≤ 0 := by decide
    have hmax : 10_000_000_000 ≤ Timestamp.maxStamp := by decide
    show Timestamp.minStamp ≤ (Clocks.start .epoch none).offset + _ ∧
      (Clocks.start .epoch none).offset + _ ≤ Timestamp.maxStamp
    omega
  have honce : TakesEffectAtOnce (strict.keyFor guest) run.log := by
    intro t i call answer past htold _ t' now older hread
    have hdone := htimes _ htold.mem
    have hbegun := htimes _ (hread.of_suffix htold.suffix).mem
    rcases hdone.2.2.2 with hfirst | hsecond
    · exact (hbegun.2.1 hfirst).trans (hdone.2.1 hfirst).symm
    · exact (hbegun.2.2.1 hsecond).trans (hdone.2.2.1 hsecond).symm
  have hlast : LastToChange (strict.keyFor guest) run.log 1 := by
    refine ⟨[_, _, _], _, _, _, _, rfl, fun hspares => hspares rfl, ?_⟩
    intro e he call answer hdone
    simp only [List.mem_cons, List.not_mem_nil, or_false] at he
    rcases he with rfl | rfl | rfl <;> cases hdone
  have hrun : run = .of (begin strict guest (.start .epoch none) .faultless
      [guestAsker, guestAsker, guestAsker]) (comesBack 60_000_000_001) := rfl
  rcases admitted_iff_waited_longer hrun (by decide) (by decide) (by decide) hothers hticks
    honce (i := 1) rfl rfl rfl hlast (j := 2) (a := guestAsker) rfl rfl (fun _ => rfl) (by decide)
    (by decide) (by decide) (by decide) with
    ⟨now, wait, t', decision', hread, hretry, ht', hended, hadmitted, _⟩
  have hwait : wait = .ofSeconds 50 := (Option.some.inj hretry).symm
  have hnow : now = ⟨10, 0⟩ := by
    have hread' : readingOf (own 1 run.log) = some ⟨10, 0⟩ := by decide +kernel
    exact Option.some.inj (hread.symm.trans hread')
  refine ⟨t', decision', ht', hended, hadmitted.2 ?_⟩
  rw [hwait, hnow]
  decide

end Limiter

end Turnstile

import Turnstile.Proofs.Limiter.Limit
import Turnstile.Proofs.Store.Counting
import Turnstile.Proofs.Store.Room

/-!
# Decisions and counts

Whoever asks for room is told how many more requests the subject may make, and so is
whoever only asks for that number.  The one has its own request recorded, the other has
the requests counted.  Where the store answers both, at one instant and with nobody in
between who changes the window, they are told the same, whatever clock jumps or
refusals came before.

Main results:

- Theorem `allow_reaches`, `remaining_reaches`: what they are told by what the store
  answers.
- Theorem `remaining_as_decided`: counts before and after a request agree with its
  outcome, and so do what a decision leaves and what is left at the same instant.
-/

namespace Turnstile.Limiter

open Run
open Store (Answer Call LocalStore Tallies Token WindowOutcome)

/-! ## What is said by what the store answers -/

/-- The call that asks the store for the number of requests. -/
def counting (l : Limiter) (subject : Subject) (now : Timestamp) : Call :=
  .countInWindow (l.keyFor subject) now.stamp l.config.window

/-- What somebody noted whose count the store answered. -/
def counted (l : Limiter) (subject : Subject) (now : Timestamp) (answer : Answer) : List Note :=
  [.told (l.counting subject now) (.ok answer), .done (l.counting subject now) answer,
    .sent (l.counting subject now), .read now, .resumed]

/-- Whether the store answered a call of somebody with these notes. -/
def Reached (notes : List Note) : Prop :=
  ∃ call answer, .told call (.ok answer) ∈ notes

/-- How those end whose call the store answered: a decision leaves what the answer
leaves of the limit, and nothing after a refusal; what is left is the limit without what
was counted. -/
def reachedAs (l : Limiter) (subject : Subject) (errand : Errand) (past : List Note) : Reply → Prop
  | .decided (.ok decision) => Reached past → ∃ now ttl answer, ∃ events : List Event,
      l.config.window.add? l.config.safetyMargin = some ttl ∧
      past = events.map Note.emitted ++ l.answered subject now ttl answer ∧
      decision.remaining = if (outcomeOf answer).admitted then
        l.limitFor subject - (outcomeOf answer).count else 0
  | .counted result => errand = .remaining → Reached past → ∃ now answer,
      past = l.counted subject now answer ∧ result = .ok (l.limitFor subject - countOf answer)
  | _ => True

/-- Somebody as a party that ends so. -/
def Asker.reaching (l : Limiter) (subject : Subject) (a : Asker) : Party Reply :=
  ⟨a.errand.program l subject, a.handler, a.time, a.cancelAt,
    .ending (l.reachedAs subject a.errand)⟩

section

variable {handler : Handler}

/-- The store did not answer somebody whose only call failed. -/
theorem not_reached_of_failed (events : List Event) (call : Call) (error : Store.Error)
    (answer : Option Answer) (now : Timestamp) :
    ¬ Reached (events.map Note.emitted ++
      [.told call (.error error), outcome call answer, .sent call, .read now, .resumed]) := by
  rintro ⟨call', answer', hmem⟩
  cases answer <;> simp [outcome] at hmem

/-- Whoever asks for room is left what the answer of the store leaves. -/
theorem allow_reaches (l : Limiter) (subject : Subject) (errand : Errand) :
    Keeps handler (.ending (l.reachedAs subject errand)) [.resumed]
      (Errand.allow.program l subject) := by
  refine (l.allow_verdict subject [.resumed]).map Reply.decided rfl ?_
  rintro _ result ⟨notes, rfl, hverdict⟩
  cases hverdict with
  | admitted httl hadmitted =>
      exact fun _ => ⟨_, _, _, [], httl, rfl, (if_pos hadmitted).symm⟩
  | refused httl hrefused =>
      have hnot := Bool.eq_false_iff.1 hrefused
      exact fun _ => ⟨_, _, _, [_], httl, rfl, (if_neg hnot).symm⟩
  | @wavedThrough now _ answer error _ _ =>
      exact fun hreached => absurd hreached (not_reached_of_failed [_] _ error answer now)
  | failed => exact trivial

/-- Whoever asks what is left is told the limit without what the store counted. -/
theorem remaining_reaches (l : Limiter) (subject : Subject) (errand : Errand) :
    Keeps handler (.ending (l.reachedAs subject errand)) [.resumed]
      (Errand.remaining.program l subject) := by
  intro now
  refine ⟨trivial, fun answer => ⟨trivial, ?_⟩⟩
  intro result hreports
  refine fun _ hreached => ?_
  cases result with
  | error error =>
      exact absurd hreached (not_reached_of_failed [] _ error answer now)
  | ok a =>
      have hanswer : answer = some a := hreports
      subst hanswer
      exact ⟨now, a, rfl, rfl⟩

/-- Everybody whose call the store answered ends so. -/
theorem Asker.reaching_keeps (l : Limiter) (subject : Subject) (a : Asker) :
    (a.reaching l subject).Keeps := by
  refine ⟨trivial, ?_⟩
  unfold reaching
  dsimp only
  cases a.errand with
  | allow => exact l.allow_reaches subject _
  | usage => exact keeps_bind.2 (keeps_ending (fun _ _ hremaining => nomatch hremaining) _ _)
  | remaining => exact l.remaining_reaches subject _
  | other program => exact keeps_bind.2 (keeps_ending (fun _ _ => trivial) _ _)

end

/-! ## One instant -/

/-- The call of one task is carried out at the same instant as that of another before it:
at one reading of the monotonic clock and under one reading of the clock of the guards,
with nothing in between that changes the window under a key. -/
def AtOneInstant (key : String) (log : Log) (i j : Nat) : Prop :=
  ∃ t call answer call' answer' past between newer,
    log = newer ++ ⟨t, some j, .done call' answer'⟩ ::
      (between ++ ⟨t, some i, .done call answer⟩ :: past) ∧
    (∀ e ∈ between, ∀ c a, e.note = .done c a → c.SparesWindow key) ∧
    readingOf (own i log) = readingOf (own j log)

/-- Every stamp is in range. -/
theorem minStamp_le_stamp (t : Timestamp) : Timestamp.minStamp ≤ t.stamp := by
  unfold Timestamp.stamp
  dsimp only
  split
  · next h => exact h.1
  · decide

theorem reached_of_ended {older : List Note} (h : Reached (.ended :: older)) : Reached older := by
  rcases h with ⟨call, answer, hmem⟩
  exact ⟨call, answer, by simpa using hmem⟩

section

variable {l : Limiter} {subject : Subject}

/-- Whoever asked for room and was answered read the clock once. -/
theorem readingOf_answered (events : List Event) (now : Timestamp) (ttl : Span) (answer : Answer) :
    readingOf (.ended :: (events.map Note.emitted ++ l.answered subject now ttl answer)) =
      some now := by
  have hskip : ∀ events : List Event,
      readingOf (events.map Note.emitted ++ l.answered subject now ttl answer) = some now := by
    intro events
    induction events with
    | nil => rfl
    | cons event events ih => exact ih
  exact hskip events

/-- At the instant of a request that the store answers, a count is what the request was
told. -/
theorem count_at_instant {log : Log} {store : LocalStore} {mono i j : Nat} {events : List Event}
    {now now' : Timestamp} {ttl : Span} {answer answer' : Answer}
    (hran : Store.Ran (deeds log) store mono) (httl : 0 < ttl.nanos)
    (hown : own i log = .ended :: (events.map Note.emitted ++ l.answered subject now ttl answer))
    (hown' : own j log = .ended :: l.counted subject now' answer')
    (hinstant : AtOneInstant (l.keyFor subject) log i j) :
    ∃ outcome, answer = .window outcome ∧ answer' = .count outcome.count ∧
      (outcome.admitted = false → l.limitFor subject ≤ outcome.count) := by
  rcases hinstant with ⟨t, call, given, call', given', past, between, newer, hlog, hquiet, hreading⟩
  have hsame : now' = now := by
    rw [hown, hown', readingOf_answered] at hreading
    exact (Option.some.inj hreading).symm
  subst hsame
  have htold' : Tells log ⟨t, some j, .done call' given'⟩
      (between ++ ⟨t, some i, .done call given⟩ :: past) := by
    rw [hlog]
    exact List.suffix_append _ _
  have htold : Tells log ⟨t, some i, .done call given⟩ past :=
    htold'.trans (List.suffix_append _ _)
  -- Each of the two noted one call that was carried out.
  obtain ⟨rfl, rfl⟩ : call = l.asking subject now' ttl ∧ given = answer := by
    have hdone := List.IsSuffix.mem List.mem_cons_self htold.own
    rw [hown] at hdone
    simpa [answered] using hdone
  obtain ⟨rfl, rfl⟩ : call' = l.counting subject now' ∧ given' = answer' := by
    have hdone := List.IsSuffix.mem List.mem_cons_self htold'.own
    rw [hown'] at hdone
    simpa [counted] using hdone
  rcases hran.exists_outcome htold.deed with ⟨outcome, rfl⟩
  rcases hran.behind htold'.deed with ⟨behind, _, fresh, hbehind, _, hcount⟩
  rw [deeds, List.filterMap_append] at hbehind
  have hspare : ∀ d ∈ deeds between, d.call.SparesWindow (l.keyFor subject) := by
    intro d hd
    rcases exists_of_mem_deeds hd with ⟨who, older, hdeed⟩
    exact hquiet _ hdeed.mem _ _ rfl
  rcases Store.Ran.count_of_quiet hbehind hspare (minStamp_le_stamp now') httl with ⟨heq, hfull⟩
  refine ⟨outcome, rfl, ?_, hfull⟩
  rw [← heq]
  exact (LocalStore.perform_count hcount).1

end

/-- A count agrees with what is recorded.  In every store, whatever its windows hold, the
counts just before and just after a request agree with its outcome, unless the request
is kept for no time; and the request is answered if the limit is reached or what is
noted for it is in range.  So in every run, if the store answers a request for room and,
at the same instant, somebody who asks what is left, then the two are told the same
unless the requests are kept for no time. -/
theorem remaining_as_decided {l : Limiter} {subject : Subject} {clocks : Clocks} {plan : Plan}
    {askers : List Asker} {happenings : List Happening} {run : Chronicle Reply}
    (hrun : run = Chronicle.of (begin l subject clocks plan askers) happenings)
    (hkept : 0 < l.config.window.nanos + l.config.safetyMargin.nanos) :
    (∀ (s : LocalStore) (now : Nat) (fresh : Token) (key : String) (stamp : Int) (window : Span)
        (limit : Nat) (ttl : Span), Timestamp.minStamp ≤ stamp → 0 < ttl.nanos →
      (∀ outcome s', s.perform now fresh (.recordInWindow key stamp window limit ttl) =
          .ok (.window outcome, s') → Tallies s s' now key stamp window limit outcome) ∧
      (limit ≤ s.count now key stamp window ∨
          (stamp + limit ≤ Timestamp.maxStamp ∧ now + ttl.nanos < Moment.bound) →
        ∃ outcome s', s.perform now fresh (.recordInWindow key stamp window limit ttl) =
          .ok (.window outcome, s'))) ∧
    ∀ i t decision time j t' a result time', run.state.tasks[i]? = some t →
      t.wait = .nothing (.result (.decided (.ok decision))) time → Reached (own i run.log) →
      run.state.tasks[j]? = some t' → askers[j]? = some a → a.errand = .remaining →
      t'.wait = .nothing (.result (.counted result)) time' → Reached (own j run.log) →
      AtOneInstant (l.keyFor subject) run.log i j → result = .ok decision.remaining := by
  refine ⟨fun s now fresh key stamp window limit ttl hstamp httl =>
    ⟨fun outcome s' hdone => LocalStore.tallies_of_perform hstamp httl hdone,
      s.exists_outcome_of_count fresh⟩, ?_⟩
  intro i t decision time j t' a result time' ht hdecided hreached ht' ha herrand hcounted hreached'
    hinstant
  have hkeep : ∀ a ∈ askers, (a.reaching l subject).Keeps := fun a _ => a.reaching_keeps l subject
  rcases own_of_ended (fun a => .ending (l.reachedAs subject a.errand)) hrun hkeep ht hdecided with
    ⟨_, older, _, hown, hdecision⟩
  rcases own_of_ended (fun a => .ending (l.reachedAs subject a.errand)) hrun hkeep ht' hcounted with
    ⟨a', older', ha', hown', hresult⟩
  rw [ha, Option.some.injEq] at ha'
  subst ha'
  rw [hown] at hreached
  rw [hown'] at hreached'
  rcases hdecision (reached_of_ended hreached) with
    ⟨now, ttl, answer, events, httl, rfl, hremaining⟩
  rcases hresult herrand (reached_of_ended hreached') with ⟨now', answer', rfl, rfl⟩
  have hran : Store.Ran (deeds run.log) run.state.world.store run.state.world.mono := by
    rw [hrun]
    exact (chronicle_kept (begin l subject clocks plan askers) happenings).ran rfl
  have hnanos : 0 < ttl.nanos := by
    rw [eq_of_add? httl]
    exact hkept
  rcases count_at_instant hran hnanos hown hown' hinstant with ⟨outcome, rfl, rfl, hfull⟩
  have hleft : decision.remaining = l.limitFor subject - outcome.count := by
    by_cases hadmitted : outcome.admitted = true
    · exact hremaining.trans (if_pos hadmitted)
    · rw [Nat.sub_eq_zero_of_le (hfull (Bool.eq_false_iff.2 hadmitted))]
      exact hremaining.trans (if_neg hadmitted)
  exact congrArg Except.ok hleft.symm

/-! ## A guest that asks what is left -/

/-- A limiter with room for two requests a minute. -/
def roomForTwo : Limiter :=
  .standard { LimiterConfig.standard with limit := 2 }

/-- Somebody who asks what the guest has left. -/
def guestWatcher : Asker := ⟨.remaining, ⟨none, fun _ _ => none⟩, 0, none⟩

/-- The guest asks for room at the beginning of 1970, and is then asked what is left. -/
def askedAndWatched : Chronicle Reply :=
  .of (begin roomForTwo guest (.start .epoch none) .faultless [guestAsker, guestWatcher])
    [.move (.resume 0), .move (.resume 1)]

/-- The guest has one request left, and this is what it is told. -/
theorem guest_has_one_left :
    ∃ t decision t' result, askedAndWatched.state.tasks = [t, t'] ∧
      t.wait = .nothing (.result (.decided (.ok decision))) 0 ∧
      t'.wait = .nothing (.result (.counted result)) 0 ∧
      result = .ok decision.remaining ∧ decision.remaining = 1 := by
  have hreached : Reached (own 0 askedAndWatched.log) :=
    ⟨_, _, List.mem_cons_of_mem _ List.mem_cons_self⟩
  have hreached' : Reached (own 1 askedAndWatched.log) :=
    ⟨_, _, List.mem_cons_of_mem _ List.mem_cons_self⟩
  have hinstant : AtOneInstant (roomForTwo.keyFor guest) askedAndWatched.log 0 1 := by
    refine ⟨0, _, _, _, _, _, [_, _, _, _, _], [_, _], rfl, ?_, rfl⟩
    intro e he call answer hdone
    simp only [List.mem_cons, List.not_mem_nil, or_false] at he
    rcases he with rfl | rfl | rfl | rfl | rfl <;> cases hdone
  have hrun : askedAndWatched = Chronicle.of (begin roomForTwo guest (.start .epoch none)
      .faultless [guestAsker, guestWatcher]) [.move (.resume 0), .move (.resume 1)] := rfl
  have hsame := (remaining_as_decided hrun (by decide)).2 0 _ _ _ 1 _ guestWatcher _ _ rfl rfl
    hreached rfl rfl rfl rfl hreached' hinstant
  exact ⟨_, _, _, _, rfl, rfl, rfl, hsame, rfl⟩

end Turnstile.Limiter

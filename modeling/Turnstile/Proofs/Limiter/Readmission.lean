import Turnstile.Proofs.Limiter.Retry
import Turnstile.Proofs.Store.Forgetting

/-!
# Nobody is locked out

The clock that a limiter reads may be set, and then the stamps that it has recorded may
lie anywhere: far behind, so that they count no longer, or far ahead, where they would
count for years.  How long a subject may be refused is not up to that clock.  Its window
is forgotten by the monotonic clock, a window and a margin after the last request that
was admitted, and the requests that are refused meanwhile do not put this off.

Others may use the store under the key of the subject as they like, and reset it as
well, as long as they record no request there that is to be kept for longer.

Main results:

- Theorem `keepsFor_of_mem`: no request of the subject is kept for longer than the window
  and the margin.
- Theorem `admitted_after_all`: whenever its last admission lies back by as much, the
  subject is admitted.
-/

namespace Turnstile

/-- No stamp is out of range. -/
theorem Timestamp.stamp_le_maxStamp (t : Timestamp) : t.stamp ≤ Timestamp.maxStamp := by
  unfold Timestamp.stamp
  dsimp only
  split
  · next h => exact h.2
  · exact Int.le_refl _

namespace Limiter

open Run
open Store (AdmittedBefore Answer Call Deed LocalStore NothingKept Ran Token keptUntil)

/-! ## How long requests are kept -/

/-- How long the requests of a subject are kept. -/
def keepingTime (l : Limiter) : Nat :=
  l.config.window.nanos + l.config.safetyMargin.nanos

/-- A call keeps no request of the subject for longer than the limiter does. -/
def KeepsInTime (l : Limiter) (subject : Subject) : Call → Prop :=
  Call.KeepsFor (l.keyFor subject) l.keepingTime

/-- Whoever does something else keeps no request of the subject for longer. -/
def Asker.InTime (l : Limiter) (subject : Subject) (a : Asker) : Prop :=
  ∀ program, a.errand = .other program →
    Makes (l.KeepsInTime subject) (l.KeepsInTime subject) program

/-- The rules of those who keep no request for longer. -/
def inTime (l : Limiter) (subject : Subject) (_ : Asker) : Pact Reply :=
  .onlyCalls (l.KeepsInTime subject) (l.KeepsInTime subject) fun _ _ => True

section

variable {l : Limiter} {subject : Subject} {clocks : Clocks} {plan : Plan} {askers : List Asker}

/-- Whoever asks for room has its request kept for the window and the margin. -/
theorem allow_inTime (l : Limiter) (subject : Subject) :
    Makes (l.KeepsInTime subject) (l.KeepsInTime subject) (l.allow subject) := by
  refine l.allow_makes subject fun now ttl httl _ => ?_
  rw [eq_of_add? httl]
  exact Nat.le_refl _

/-- Everybody keeps no request for longer. -/
theorem Asker.inTime_keeps {a : Asker} (h : a.InTime l subject) :
    (a.under l subject (l.inTime subject)).Keeps := by
  have hmakes : Makes (l.KeepsInTime subject) (l.KeepsInTime subject)
      (a.errand.program l subject) := by
    cases herrand : a.errand with
    | allow => exact (l.allow_inTime subject).bind fun _ _ => trivial
    | usage => exact fun _ => ⟨trivial, fun _ => trivial⟩
    | remaining => exact fun _ => ⟨trivial, fun _ => trivial⟩
    | other program => exact (h program herrand).bind fun _ _ => trivial
  exact hmakes.keepsFromStart

/-- No request of the subject is kept for longer than the window and the margin. -/
theorem keepsFor_of_mem {log : Log}
    (h : Account (askers.map (Asker.under l subject (l.inTime subject))) log) :
    ∀ d ∈ deeds log, l.KeepsInTime subject d.call := by
  intro d hd
  rcases exists_of_mem_deeds hd with ⟨who, past, htold⟩
  rcases h.origin htold with ⟨i, p, older, _, hp, _, hmay⟩ | ⟨t, i, behind, hquit⟩
  · rcases List.mem_map.1 (List.mem_of_getElem? hp) with ⟨a, _, rfl⟩
    exact hmay
  · rcases (h.of_suffix htold.suffix).held_of_quit hquit with ⟨p, older, hp, _, hmay⟩
    rcases List.mem_map.1 (List.mem_of_getElem? hp) with ⟨a, _, rfl⟩
    exact hmay

end

/-- Nobody is locked out.  In every run of a store, whatever stamps requests have and
however many were refused, a request is admitted as the first one if nothing was admitted
under its key since that was last deleted, or if the time is over for which the last
admission was to be kept.  So in every run of a limiter, whichever way its clocks are
set, any request of the subject that the store carries out is admitted as the first one
if all that were admitted before lie back by the window and the margin, and whoever asks
for room then is let through. -/
theorem admitted_after_all {l : Limiter} {subject : Subject} {clocks : Clocks} {plan : Plan}
    {askers : List Asker} {happenings : List Happening} {run : Chronicle Reply}
    (hrun : run = Chronicle.of (begin l subject clocks plan askers) happenings)
    (hothers : ∀ a ∈ askers, a.InTime l subject) :
    (∀ deeds s now key, Ran deeds s now →
      (∀ moment, keptUntil key deeds = some moment → moment ≤ now) →
      ∀ (fresh : Token) stamp window limit (ttl : Span), 0 < limit → stamp ≤ Timestamp.maxStamp →
        now + ttl.nanos < Moment.bound →
        ∃ s', s.perform now fresh (.recordInWindow key stamp window limit ttl) =
          .ok (.window ⟨true, 1, some stamp⟩, s')) ∧
    (∀ t who stamp window limit ttl answer past,
      Tells run.log ⟨t, who, .done (.recordInWindow (l.keyFor subject) stamp window limit ttl)
        answer⟩ past → 0 < limit →
      AdmittedBefore (l.keyFor subject) l.keepingTime (deeds past) t →
        answer = .window ⟨true, 1, some stamp⟩) ∧
    ∀ (j : Nat) (a : Asker) (ttl : Span), a.errand = .allow →
      run.state.tasks[j]? = some (a.task l subject) → run.state.world.Serves .recordInWindow →
      0 < l.limitFor subject → l.config.window.add? l.config.safetyMargin = some ttl →
      run.state.world.mono + l.keepingTime < Moment.bound →
      AdmittedBefore (l.keyFor subject) l.keepingTime (deeds run.log) run.state.world.mono →
        ∃ t' decision, (run.state.apply (.resume j)).tasks[j]? = some t' ∧
          t'.wait = .nothing (.result (.decided (.ok decision))) run.state.world.mono ∧
          decision.allowed = true := by
  have hkeep : ∀ a ∈ askers, (a.under l subject (l.inTime subject)).Keeps := fun a ha =>
    Asker.inTime_keeps (hothers a ha)
  have haccount : Account (askers.map (Asker.under l subject (l.inTime subject))) run.log := by
    rw [hrun]
    exact account (begins_under _) (under_keep hkeep) happenings
  have hran : Ran (deeds run.log) run.state.world.store run.state.world.mono := by
    rw [hrun]
    exact (chronicle_kept (begin l subject clocks plan askers) happenings).ran rfl
  refine ⟨?_, ?_, ?_⟩
  · intro deeds s now key hran hgone fresh stamp window limit ttl hlimit hstamp hend
    exact hran.admitted_of_forgotten hgone fresh window hlimit hstamp hend
  · intro t who stamp window limit ttl answer past htold hlimit hbefore
    have hkeeps := keepsFor_of_mem (haccount.of_suffix htold.suffix)
    rcases hran.behind htold.deed with ⟨s, _, fresh, hbehind, _, hdone⟩
    have hgone := Store.nothingKept_of_admittedBefore hkeeps hbefore
    have hnil := hbehind.stampsAt_of_forgotten (Nat.le_refl t) hgone
    exact LocalStore.answer_of_nil hnil hlimit hdone
  · intro j a ttl hasks hj hserves hlimit httl hend hbefore
    have hgone := Store.nothingKept_of_admittedBefore (keepsFor_of_mem haccount) hbefore
    have hlength : ttl.nanos = l.keepingTime := congrArg Span.nanos (eq_of_add? httl)
    rcases hran.admitted_of_forgotten hgone (.issued (run.state.world.tokens + 1))
      l.config.window hlimit run.state.world.clocks.now.stamp_le_maxStamp (hlength ▸ hend) with
      ⟨store, hdone⟩
    rcases settles_allow a.handler httl hserves hdone with
      ⟨notes, st, hsettles, howed, decision, hended, hallowed⟩
    rw [← hasks] at hsettles
    have hstep := (resume_settled hj rfl hsettles fun _ => howed).2
    refine ⟨(a.task l subject).standing st, decision, ?_, hended, hallowed⟩
    rw [hstep]
    exact List.getElem?_set_self (List.getElem?_eq_some_iff.1 hj).1

/-! ## A clock that is set back -/

/-- The guest asks in the year 2001, and again half a minute after the clock was set back
to 1970. -/
def setBack : List Happening :=
  [.move (.resume 0), .setWall .epoch, .pass 30_000_000_000, .move (.resume 1),
    .pass 61_000_000_000]

/-- The run in which it does. -/
def guestSetBack : Chronicle Reply :=
  .of (begin strict guest (.start ⟨1_000_000_000, 0⟩ none) .faultless
    [guestAsker, guestAsker, guestAsker]) setBack

-- The guest is refused after the clock was set back, with a stamp of the future in its window.
example :
    guestSetBack.state.tasks.map decisionOf =
      [some ⟨true, 1, 0, ⟨1_000_000_060, 0⟩, none⟩,
        some ⟨false, 1, 0, ⟨90, 0⟩, some (.ofSeconds 60)⟩, none] := by
  decide +kernel

/-- A minute and a second after it was let through, the guest is let through again. -/
theorem setBack_readmitted :
    ∃ t' decision, (guestSetBack.state.apply (.resume 2)).tasks[2]? = some t' ∧
      t'.wait = .nothing (.result (.decided (.ok decision))) 61_000_000_000 ∧
      decision.allowed = true := by
  have hrun : guestSetBack = .of (begin strict guest (.start ⟨1_000_000_000, 0⟩ none) .faultless
      [guestAsker, guestAsker, guestAsker]) setBack := rfl
  have hothers : ∀ a ∈ [guestAsker, guestAsker, guestAsker], a.InTime strict guest := by
    intro a ha program hother
    have hasker : a = guestAsker := by simpa using ha
    rw [hasker] at hother
    cases hother
  have hbefore : AdmittedBefore (strict.keyFor guest) strict.keepingTime (deeds guestSetBack.log)
      guestSetBack.state.world.mono := by
    decide +kernel
  exact (admitted_after_all hrun hothers).2.2 2 guestAsker strictTtl rfl rfl (fun _ => rfl)
    (by decide) strict_add? (by decide) hbefore

end Limiter

end Turnstile

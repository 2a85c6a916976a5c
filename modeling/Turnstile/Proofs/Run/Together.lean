import Turnstile.Proofs.Run.Ledger
import Turnstile.Proofs.Time.Timestamp

/-!
# Clocks that move together

Where nobody sets a clock, the wall clock and the monotonic clock move together
from the start of a run on, however long the monotonic clock has been running by
then.  A span that the one has not passed, the other has not passed either.

Main results:

- Theorem `moveTogether_of_run`: the clocks of a run in which nobody sets one move
  together.
- Theorem `ShowsBefore.lt`: a span that the wall clock has not passed, the
  monotonic clock has not passed either.
- Theorem `ShowsBefore.writable`: the ends of such a span can be written.
-/

namespace Turnstile.Run

/-- At the reading of the monotonic clock, the wall clock shows an instant before
the given one. -/
def ShowsBefore (clocks : Clocks) (time : Nat) (stop : Timestamp) : Prop :=
  stop.le (clocks.wallAt time) = false

/-- Clocks that move together from the start of a run on, when the wall clock shows an
instant that it can show. -/
structure MoveTogether (clocks : Clocks) (log : Log) : Prop where
  start : Timestamp.earliest.le clocks.wall = true
  since : ∀ e ∈ log, clocks.mono ≤ e.time
  reads : ∀ e ∈ log, ∀ now, e.note = .read now → now = clocks.wallAt e.time

section

variable {clocks : Clocks} {log past : Log}

/-- In a run in which nobody sets a clock, clocks move together. -/
theorem moveTogether_of_run {α : Type} (s : State α) {happenings : List Happening}
    (hwall : Timestamp.earliest.le s.world.clocks.wall = true)
    (hmanual : s.world.clocks.manual = none) (hclocks : ∀ e ∈ happenings, e.SetsNoClock) :
    MoveTogether s.world.clocks (Chronicle.of s happenings).log := by
  have hkept := chronicle_kept s happenings
  exact ⟨hwall, hkept.le_time, fun e he now hread => hkept.read_eq hclocks hmanual he hread⟩

/-- What holds of a log holds of every earlier one. -/
theorem MoveTogether.of_suffix (h : MoveTogether clocks log) (hs : past <:+ log) :
    MoveTogether clocks past :=
  ⟨h.start, fun e he => h.since e (List.IsSuffix.mem he hs),
    fun e he => h.reads e (List.IsSuffix.mem he hs)⟩

/-- The wall clock moves on with the monotonic clock. -/
theorem le_wallAt {t t' : Nat} (h : t ≤ t') :
    (clocks.wallAt t).le (clocks.wallAt t') = true := by
  unfold Clocks.wallAt
  rw [Timestamp.le_ofTotalNanos]
  omega

/-- Whoever reads the clock later reads no earlier instant. -/
theorem MoveTogether.read_le (h : MoveTogether clocks log) (hsorted : Sorted log) {t t' : Nat}
    {who who' : Option Nat} {now now' : Timestamp} {past' : Log}
    (hread : Tells log ⟨t, who, .read now⟩ past)
    (hread' : Tells past ⟨t', who', .read now'⟩ past') : now'.le now = true := by
  rw [h.reads _ hread.mem now rfl, h.reads _ (hread.trans hread').mem now' rfl]
  exact le_wallAt (Tells.time_le hsorted hread hread')

/-- What has not come yet had not come earlier. -/
theorem ShowsBefore.mono {t t' : Nat} {stop : Timestamp} (h : ShowsBefore clocks t' stop)
    (hle : t ≤ t') : ShowsBefore clocks t stop := by
  unfold ShowsBefore at h ⊢
  cases hstop : stop.le (clocks.wallAt t) with
  | false => rfl
  | true =>
      rw [Timestamp.le_trans hstop (le_wallAt hle)] at h
      exact h

/-- A span that the wall clock has not passed, the monotonic clock has not passed
either. -/
theorem ShowsBefore.lt {t t' : Nat} {ttl : Span}
    (h : ShowsBefore clocks t' ((clocks.wallAt t).addSaturating ttl)) :
    t' < t + ttl.nanos := by
  apply Nat.lt_of_not_le
  intro hle
  unfold ShowsBefore Clocks.wallAt at h
  rw [Timestamp.addSaturating_le (by omega)] at h
  exact Bool.noConfusion h

/-- While a span that began at a reading lasts, its ends can be written. -/
theorem ShowsBefore.writable (hwall : Timestamp.earliest.le clocks.wall = true) {t t' : Nat}
    {ttl : Span} (hsince : clocks.mono ≤ t) (hle : t ≤ t')
    (h : ShowsBefore clocks t' ((clocks.wallAt t).addSaturating ttl)) :
    Rfc3339.Writable (clocks.wallAt t) ∧
      Rfc3339.Writable ((clocks.wallAt t).addSaturating ttl) := by
  have hstart : clocks.wall = clocks.wallAt clocks.mono := rfl
  have hlow : Timestamp.earliest.le (clocks.wallAt t) = true :=
    Timestamp.le_trans hwall (hstart ▸ le_wallAt hsince)
  exact Timestamp.writable_addSaturating hlow (by omega) h

end

end Turnstile.Run

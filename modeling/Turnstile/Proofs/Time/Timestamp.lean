import Turnstile.Proofs.Time.Rfc3339
import Turnstile.Run.Clocks

/-!
# Order of instants

Instants that a clock shows are ordered as their nanoseconds are.  A span that
begins at one of them ends no later than the clock shows its length after.

Main results:

- Theorem `le_ofTotalNanos`: the order of instants is that of their nanoseconds.
- Theorem `addSaturating_le`: a sum is reached once its span has passed.
-/

namespace Turnstile

namespace Timestamp

/-- Timestamps are ordered by their seconds, then by their nanoseconds. -/
theorem le_iff (a b : Timestamp) :
    a.le b = true ↔ a.seconds < b.seconds ∨ (a.seconds = b.seconds ∧ a.nanos ≤ b.nanos) := by
  simp [le]

/-- The order of timestamps is transitive. -/
theorem le_trans {a b c : Timestamp} (h : a.le b = true) (h' : b.le c = true) :
    a.le c = true := by
  rw [le_iff] at h h' ⊢
  omega

/-- The order of instants is that of their nanoseconds. -/
theorem le_ofTotalNanos (m n : Int) :
    (ofTotalNanos m).le (ofTotalNanos n) = true ↔ m ≤ n := by
  rw [le_iff]
  unfold ofTotalNanos
  dsimp only
  omega

/-- A timestamp has the nanoseconds that it is made of. -/
theorem totalNanos_ofTotalNanos (n : Int) : (ofTotalNanos n).totalNanos = n := by
  unfold totalNanos ofTotalNanos
  dsimp only
  omega

/-- It has less than a second of them beside its seconds. -/
theorem nanos_ofTotalNanos (n : Int) : (ofTotalNanos n).nanos < 1_000_000_000 := by
  unfold ofTotalNanos
  dsimp only
  omega

/-- A sum with an instant that a clock shows is that of the nanoseconds, or the
latest instant. -/
theorem addSaturating_ofTotalNanos (n : Int) (s : Span) :
    ((ofTotalNanos n).addSaturating s = ofTotalNanos (n + s.nanos) ∧
      (ofTotalNanos (n + s.nanos)).le latest = true) ∨
    ((ofTotalNanos n).addSaturating s = latest ∧
      (ofTotalNanos (n + s.nanos)).le latest = false) := by
  unfold addSaturating add?
  rw [totalNanos_ofTotalNanos]
  by_cases hlatest : (ofTotalNanos (n + s.nanos)).le latest = true
  · simp [hlatest]
  · simp [hlatest]

/-- What does not lie up to the latest timestamp lies after it. -/
theorem latest_le_of_not_le {t : Timestamp} (h : t.le latest = false) : latest.le t = true := by
  rw [le_iff]
  have hnot : ¬ t.le latest = true := by
    rw [h]
    exact Bool.false_ne_true
  rw [le_iff] at hnot
  omega

/-- A sum is reached once its span has passed. -/
theorem addSaturating_le {n m : Int} {s : Span} (h : n + s.nanos ≤ m) :
    ((ofTotalNanos n).addSaturating s).le (ofTotalNanos m) = true := by
  have hlater := (le_ofTotalNanos (n + s.nanos) m).2 h
  rcases addSaturating_ofTotalNanos n s with ⟨heq, _⟩ | ⟨heq, hover⟩
  · rw [heq]
    exact hlater
  · rw [heq]
    exact le_trans (latest_le_of_not_le hover) hlater

/-! ## Instants that can be written -/

open Rfc3339 (Writable)

/-- An instant that a clock shows can be written if it is neither before the
earliest one nor after the latest one. -/
theorem writable_ofTotalNanos {n : Int} (hlow : earliest.le (ofTotalNanos n) = true)
    (hhigh : (ofTotalNanos n).le latest = true) : Writable (ofTotalNanos n) := by
  rw [le_iff] at hlow hhigh
  refine ⟨?_, ?_, nanos_ofTotalNanos n⟩
  · omega
  · omega

/-- The latest timestamp can be written. -/
theorem writable_latest : Writable latest := by
  refine ⟨by decide, by decide, ?_⟩
  have hnanos : latest.nanos = 999999999 := rfl
  omega

/-- The end of a span that does not begin before the earliest instant can be
written. -/
theorem writable_addSaturating_of_le {t : Timestamp} (h : earliest.le t = true) (s : Span) :
    Writable (t.addSaturating s) := by
  unfold addSaturating add?
  by_cases hlatest : (ofTotalNanos (t.totalNanos + s.nanos)).le latest = true
  · simp only [hlatest, if_true, Option.getD_some]
    refine writable_ofTotalNanos ?_ hlatest
    rw [le_iff] at h ⊢
    unfold ofTotalNanos totalNanos earliest at *
    dsimp only at *
    omega
  · simp only [hlatest, Bool.false_eq_true, if_false, Option.getD_none]
    exact writable_latest

/-- If a clock still shows an instant before the end of a span, then the
instants at which that began and ends can be written. -/
theorem writable_addSaturating {n m : Int} {s : Span}
    (hlow : earliest.le (ofTotalNanos n) = true) (hle : n ≤ m)
    (hend : ((ofTotalNanos n).addSaturating s).le (ofTotalNanos m) = false) :
    Writable (ofTotalNanos n) ∧ Writable ((ofTotalNanos n).addSaturating s) := by
  have hafter := (le_ofTotalNanos n (n + s.nanos)).2 (by omega)
  have hshown := (le_ofTotalNanos n m).2 hle
  have hnot : ¬ ((ofTotalNanos n).addSaturating s).le (ofTotalNanos m) = true := by
    rw [hend]
    exact Bool.false_ne_true
  rcases addSaturating_ofTotalNanos n s with ⟨heq, hfits⟩ | ⟨heq, hover⟩
  · rw [heq]
    exact ⟨writable_ofTotalNanos hlow (le_trans hafter hfits),
      writable_ofTotalNanos (le_trans hlow hafter) hfits⟩
  · rw [heq] at hnot ⊢
    refine ⟨writable_ofTotalNanos hlow ?_, writable_latest⟩
    cases hlatest : (ofTotalNanos n).le latest with
    | true => rfl
    | false => exact absurd (le_trans (latest_le_of_not_le hlatest) hshown) hnot

end Timestamp

end Turnstile

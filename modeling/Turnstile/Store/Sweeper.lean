import Turnstile.Store.Local

/-!
# Sweepers

A sweeper purges a local store at regular times.  What it removes had expired,
so a store with a sweeper answers as one without.
-/

namespace Turnstile.Store

/-- A sweeper that was started at a reading of the monotonic clock. -/
structure Sweeper where
  startedAt : Nat
  every : Span
  /-- The time up to which its sweeps have been made. -/
  sweptTo : Nat
  deriving DecidableEq

namespace Sweeper

/-- The sweeper started at `now`; there is none without time between its
sweeps. -/
def start? (now : Nat) (every : Span) : Option Sweeper :=
  if every.nanos = 0 then none else some ⟨now, every, now⟩

/-- The last time of a sweep up to `finish`. -/
def lastSweep (w : Sweeper) (finish : Nat) : Nat :=
  w.startedAt + (finish - w.startedAt) / w.every.nanos * w.every.nanos

/-- The store after the sweeps that are due while time goes on from `begins` to
`finish`.  Nothing else happens meanwhile, so the last of them does the work of
all; one that was due before is made at once. -/
def run (w : Sweeper) (begins finish : Nat) (s : LocalStore) : LocalStore × Sweeper :=
  let last := w.lastSweep finish
  if w.sweptTo < last then (s.purge (max begins last), { w with sweptTo := last }) else (s, w)

end Sweeper

end Turnstile.Store

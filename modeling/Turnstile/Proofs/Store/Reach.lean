import Turnstile.Proofs.Store.PlainHistory

/-!
# Calls that a store can always carry out

A call overflows where the span that it asks for ends beyond the range of the clock,
or where every stamp from its own on is taken.  Neither happens to a call that is made
before a given reading of the monotonic clock, if its span added to that reading is in
range and its stamp leaves room for as many requests as are counted at all.

Main results:

- Theorem `perform_in_reach`: such a call is carried out, and a window holds at most as
  many stamps as requests were counted.
- Theorems `set_overflows`, `acquire_overflows`, `record_overflows`: a call whose span
  does not end in range is not carried out.
-/

namespace Turnstile.Store

/-- How far a run reaches. -/
structure Reach where
  /-- The last reading of the monotonic clock. -/
  uptime : Nat
  /-- How many requests are counted at most. -/
  requests : Nat

namespace Reach

/-- A span that begins in the run ends in the range of the clock. -/
def Spans (r : Reach) (ttl : Span) : Prop :=
  r.uptime + ttl.nanos < Moment.bound

/-- A call that can be carried out at any time of the run. -/
def Bears (r : Reach) : Call → Prop
  | .set _ _ ttl => r.Spans ttl
  | .acquireLock _ ttl => r.Spans ttl
  | .recordInWindow _ stamp _ _ ttl => stamp + r.requests ≤ Timestamp.maxStamp ∧ r.Spans ttl
  | _ => True

end Reach

/-- How many requests a call counts. -/
def Call.cost : Call → Nat
  | .recordInWindow _ _ _ _ _ => 1
  | _ => 0

namespace LocalStore

variable {s : LocalStore} {r : Reach} {now k : Nat} {fresh : Token} {call : Call}

/-- No window holds more stamps than that. -/
def CountsAtMost (s : LocalStore) (k : Nat) : Prop :=
  ∀ e ∈ s.windows.entries, e.2.stamps.length ≤ k

/-- An empty store counts nothing. -/
theorem countsAtMost_empty : empty.CountsAtMost 0 := nofun

/-- What counts at most so many counts at most more. -/
theorem CountsAtMost.mono {k' : Nat} (h : s.CountsAtMost k) (hle : k ≤ k') : s.CountsAtMost k' :=
  fun e he => Nat.le_trans (h e he) hle

/-- Purging adds no stamp. -/
theorem CountsAtMost.purge (h : s.CountsAtMost k) (now : Nat) : (s.purge now).CountsAtMost k :=
  fun e he => h e (List.mem_filter.1 he).1

/-- The stamps that count under a key are not more either. -/
theorem CountsAtMost.live_le (h : s.CountsAtMost k) (key : String) (now : Nat) (start : Int) :
    (liveStamps ((s.windows.lookup key).getD RateWindow.empty) now start).length ≤ k := by
  have hstamps : ((s.windows.lookup key).getD RateWindow.empty).stamps.length ≤ k := by
    unfold Table.lookup
    cases hfind : s.windows.entries.find? (·.1 = key) with
    | none => exact Nat.zero_le k
    | some e => exact h e (List.mem_of_find?_eq_some hfind)
  unfold liveStamps
  split
  · exact Nat.zero_le k
  · exact Nat.le_trans (List.length_filter_le _ _) hstamps

/-- A window that is put under a key adds as many stamps as it holds. -/
theorem CountsAtMost.insert {k' : Nat} (h : s.CountsAtMost k) (key : String) {window : RateWindow}
    (hwindow : window.stamps.length ≤ k') (hle : k ≤ k') :
    CountsAtMost { s with windows := s.windows.insert key window } k' := by
  intro e he
  rcases List.mem_cons.1 he with rfl | he
  · exact hwindow
  · exact Nat.le_trans (h e (List.mem_filter.1 he).1) hle

/-- A time to live that is spanned ends in range. -/
theorem expiry_of_spans {ttl : Span} (h : r.Spans ttl) (hnow : now ≤ r.uptime) :
    expiry now ttl = .ok (now + ttl.nanos) := by
  have hlt : now + ttl.nanos < Moment.bound := Nat.lt_of_le_of_lt (Nat.add_le_add_right hnow _) h
  exact expiry_ok hlt

/-- A request is counted where its stamp leaves room for all that were counted. -/
theorem record_in_reach {stamp : Int} {ttl : Span} (hcounts : s.CountsAtMost k)
    (hnow : now ≤ r.uptime) (hroom : k + 1 ≤ r.requests)
    (hstamp : stamp + r.requests ≤ Timestamp.maxStamp) (hspans : r.Spans ttl)
    (key : String) (window : Span) (limit : Nat) :
    ∃ outcome s', s.record now key stamp window limit ttl = .ok (outcome, s') ∧
      s'.CountsAtMost (k + 1) := by
  have hlive := hcounts.live_le key now (windowStart stamp window)
  unfold record
  dsimp only
  generalize liveStamps ((s.windows.lookup key).getD RateWindow.empty) now
    (windowStart stamp window) = live at hlive ⊢
  have hfree := RateWindow.firstFree_le stamp live
  have hrange : ¬ Timestamp.maxStamp < RateWindow.firstFree stamp live := by omega
  by_cases hfull : limit ≤ live.length
  · rw [if_pos hfull]
    exact ⟨_, _, rfl, hcounts.insert key (Nat.le_succ_of_le hlive) (Nat.le_succ k)⟩
  · rw [if_neg hfull, if_neg hrange, expiry_of_spans hspans hnow]
    refine ⟨_, _, rfl, hcounts.insert key ?_ (Nat.le_succ k)⟩
    rw [RateWindow.length_insertSorted]
    exact Nat.succ_le_succ hlive

/-- A call in reach is carried out, and a window holds at most as many stamps as requests
were counted. -/
theorem perform_in_reach (hbears : r.Bears call) (hcounts : s.CountsAtMost k)
    (hnow : now ≤ r.uptime) (hroom : k + call.cost ≤ r.requests) :
    ∃ answer s', s.perform now fresh call = .ok (answer, s') ∧
      s'.CountsAtMost (k + call.cost) := by
  cases call with
  | get key => exact ⟨_, _, rfl, hcounts⟩
  | set key value ttl =>
      refine ⟨.done, { s with values := s.values.insert key ⟨value, now + ttl.nanos⟩ }, ?_, hcounts⟩
      simp only [perform, set, expiry_of_spans hbears hnow, Except.map]
  | delete key => exact ⟨_, _, rfl, fun e he => hcounts e (List.mem_filter.1 he).1⟩
  | acquireLock key ttl =>
      rw [perform_acquire_eq, expiry_of_spans hbears hnow]
      cases s.heldAt now key with
      | none => exact ⟨_, _, rfl, hcounts⟩
      | some held => exact ⟨_, _, rfl, hcounts⟩
  | releaseLock key token =>
      refine ⟨_, _, rfl, ?_⟩
      unfold CountsAtMost
      rw [release_windows]
      exact hcounts
  | recordInWindow key stamp window limit ttl =>
      rcases record_in_reach hcounts hnow hroom hbears.1 hbears.2 key window limit with
        ⟨outcome, s', hdone, hnext⟩
      refine ⟨.window outcome, s', ?_, hnext⟩
      simp only [perform, hdone, Except.map]
  | countInWindow key stamp window => exact ⟨_, _, rfl, hcounts⟩

/-! ## Calls that overflow -/

/-- One that ends out of range overflows. -/
theorem expiry_overflows {ttl : Span} (h : ¬ now + ttl.nanos < Moment.bound) :
    expiry now ttl = .error .expiry := by
  unfold expiry Moment.end?
  rw [if_neg h]

/-- So does writing a value with it. -/
theorem set_overflows {ttl : Span} (h : ¬ now + ttl.nanos < Moment.bound) (key : String)
    (value : Bytes) : s.perform now fresh (.set key value ttl) = .error .expiry := by
  simp only [perform, set, expiry_overflows h, Except.map]

/-- So does taking a lock with it. -/
theorem acquire_overflows {ttl : Span} (h : ¬ now + ttl.nanos < Moment.bound) (key : String) :
    s.perform now fresh (.acquireLock key ttl) = .error .expiry := by
  rw [perform_acquire_eq, expiry_overflows h]

/-- The first request of a window that is let through notes when that expires. -/
theorem record_overflows {ttl window : Span} {key : String} {stamp : Int} {limit : Nat}
    (h : ¬ now + ttl.nanos < Moment.bound) (hnone : s.windows.lookup key = none)
    (hlimit : 0 < limit) (hstamp : stamp ≤ Timestamp.maxStamp) :
    s.perform now fresh (.recordInWindow key stamp window limit ttl) = .error .expiry := by
  have hroom : ¬ limit ≤ 0 := by omega
  have hrange : ¬ Timestamp.maxStamp < stamp := by omega
  simp [perform, record, hnone, RateWindow.empty, liveStamps, RateWindow.isExpired, RateWindow.live,
    RateWindow.firstFree, hroom, hrange, expiry_overflows h, Except.map]

end LocalStore

end Turnstile.Store

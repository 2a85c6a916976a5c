import Turnstile.Proofs.Store.PlainHistory

/-!
# Counting what is recorded

Recording a request drops what has expired or is too old, gives the request a free
stamp and puts off when the window is forgotten; counting the requests of a window does
none of this and reads the table as it is.  The two agree all the same, in every store,
whatever its windows hold and whichever way the instants go: a count before the request
is what the request found, and a count after it is what the request was told.

What is kept for no time at all is gone at once, so a count after it would be zero.

Main results:

- Theorem `LocalStore.tallies_of_perform`: counts before and after a request agree with
  its outcome.
- Theorem `LocalStore.exists_outcome_of_count`: a request is answered if the limit is
  reached, or what is noted for it is in range.
- Theorem `Ran.count_of_quiet`: as long as nobody changes the window, a count at the
  instant of a request is what that request was told.
-/

namespace Turnstile.Store

/-- The count before a request, in the store `s`, and the one after it, in the store
`s'`, agree with the outcome of the request. -/
structure Tallies (s s' : LocalStore) (now : Nat) (key : String) (stamp : Int) (window : Span)
    (limit : Nat) (outcome : WindowOutcome) : Prop where
  admitted_iff : outcome.admitted = true ↔ s.count now key stamp window < limit
  before : s.count now key stamp window =
    if outcome.admitted then outcome.count - 1 else outcome.count
  after : s'.count now key stamp window = outcome.count

namespace LocalStore

variable {s s' : LocalStore} {now : Nat} {fresh : Token} {key : String} {stamp : Int}
  {window ttl : Span} {limit : Nat}

/-- A count reads the stamps that a request would find. -/
theorem length_live (s : LocalStore) (now : Nat) (key : String) (stamp : Int) (window : Span) :
    ((s.stampsAt now key).filter (windowStart stamp window ≤ ·)).length =
      s.count now key stamp window := by
  rw [count_eq, List.countP_eq_length_filter]

/-- Counts before and after a request agree with its outcome, unless the request is
kept for no time. -/
theorem tallies_of_perform {outcome : WindowOutcome} (hstamp : Timestamp.minStamp ≤ stamp)
    (httl : 0 < ttl.nanos)
    (hdone : s.perform now fresh (.recordInWindow key stamp window limit ttl) =
      .ok (.window outcome, s')) : Tallies s s' now key stamp window limit outcome := by
  have hstart := windowStart_le stamp window hstamp
  have hcount := s.length_live now key stamp window
  rcases perform_record_cases hdone with
    ⟨hfull, hanswer, entry, hentry, rfl⟩ | ⟨hroom, stamps, rfl, hanswer, rfl⟩
  · rw [Answer.window.injEq] at hanswer
    subst hanswer
    have hlimit : ¬ s.count now key stamp window < limit := by omega
    refine ⟨by simpa using hlimit, hcount.symm, ?_⟩
    -- Pruning drops nothing that the count would find.
    rw [count_eq, stampsAt_of_refused (Nat.le_refl now) hentry rfl,
      countP_filter_of_le (Int.le_refl _), List.countP_eq_length_filter]
  · rw [Answer.window.injEq] at hanswer
    subst hanswer
    have hlimit : s.count now key stamp window < limit := by omega
    refine ⟨by simpa using hlimit, hcount.symm, ?_⟩
    have hkept : ¬ now + ttl.nanos ≤ now := by omega
    have hfree : windowStart stamp window ≤ RateWindow.firstFree stamp
        ((s.stampsAt now key).filter (windowStart stamp window ≤ ·)) :=
      Int.le_trans hstart (RateWindow.firstFree_ge _ _)
    rw [count_eq, stampsAt_of_admitted, if_neg hkept, RateWindow.countP_insertSorted,
      countP_filter_of_le (Int.le_refl _), List.countP_eq_length_filter, decide_eq_true hfree,
      if_pos rfl]

/-- A request is refused if the limit is reached, whatever else. -/
theorem refuses_of_full (s : LocalStore) (fresh : Token) (ttl : Span)
    (hfull : limit ≤ s.count now key stamp window) :
    ∃ outcome s', s.perform now fresh (.recordInWindow key stamp window limit ttl) =
      .ok (.window outcome, s') ∧ outcome.admitted = false := by
  rw [← length_live] at hfull
  exact ⟨_, _, perform_record_refused rfl hfull fresh ttl, rfl⟩

/-- A request is answered if the limit is reached, or if the stamps that it may get and
the end of its time are in range. -/
theorem exists_outcome_of_count (s : LocalStore) (fresh : Token)
    (h : limit ≤ s.count now key stamp window ∨
      (stamp + limit ≤ Timestamp.maxStamp ∧ now + ttl.nanos < Moment.bound)) :
    ∃ outcome s', s.perform now fresh (.recordInWindow key stamp window limit ttl) =
      .ok (.window outcome, s') := by
  rcases h with hfull | ⟨hrange, hend⟩
  · rcases s.refuses_of_full fresh ttl hfull with ⟨outcome, s', hdone, _⟩
    exact ⟨outcome, s', hdone⟩
  · rcases s.perform_record_ok fresh key window hrange hend with ⟨answer, s', hdone⟩
    rcases perform_record_cases hdone with ⟨_, rfl, _⟩ | ⟨_, _, _, rfl, _⟩
    · exact ⟨_, s', hdone⟩
    · exact ⟨_, s', hdone⟩

end LocalStore

/-! ## Until somebody changes the window -/

section

variable {key : String} {newer past deeds : List Deed} {d : Deed} {s : LocalStore} {now : Nat}

/-- As long as nobody changes a window, its stamps are those after the last deed that
did. -/
theorem Ran.stampsAt_of_quiet (h : Ran (newer ++ d :: past) s now)
    (hquiet : ∀ e ∈ newer, e.call.SparesWindow key) :
    ∃ (before after : LocalStore) (fresh : Token),
      before.perform d.time fresh d.call = .ok (d.answer, after) ∧
      ∀ later, now ≤ later → s.stampsAt later key = after.stampsAt later key := by
  generalize hdeeds : newer ++ d :: past = deeds at h
  induction h generalizing newer with
  | start now => simp at hdeeds
  | elapse _ hle ih =>
      rcases ih hquiet hdeeds with ⟨before, after, fresh, hdone, hsame⟩
      exact ⟨before, after, fresh, hdone, fun later hlater => hsame later (Nat.le_trans hle hlater)⟩
  | purge hran ih =>
      rcases ih hquiet hdeeds with ⟨before, after, fresh, hdone, hsame⟩
      refine ⟨before, after, fresh, hdone, fun later hlater => ?_⟩
      rw [LocalStore.stampsAt_purge hran.distinct.windows hlater, hsame later hlater]
  | @perform deeds s now fresh call answer s' _ _ hdone ih =>
      cases newer with
      | nil =>
          rw [List.nil_append, List.cons.injEq] at hdeeds
          rw [hdeeds.1]
          exact ⟨s, s', fresh, hdone, fun _ _ => rfl⟩
      | cons e newer =>
          rw [List.cons_append, List.cons.injEq] at hdeeds
          rcases hdeeds with ⟨rfl, hdeeds⟩
          have hspares : call.SparesWindow key := hquiet _ List.mem_cons_self
          rcases ih (fun e he => hquiet e (List.mem_cons_of_mem _ he)) hdeeds with
            ⟨before, after, fresh', hdone', hsame⟩
          refine ⟨before, after, fresh', hdone', fun later hlater => ?_⟩
          rw [LocalStore.stampsAt_of_spares hdone hspares, hsame later hlater]

/-- As long as nobody changes the window, a count at the instant of a request is what
that request was told, and a request that was refused found the limit reached. -/
theorem Ran.count_of_quiet {stamp : Int} {window ttl : Span} {limit t : Nat}
    {outcome : WindowOutcome}
    (h : Ran (newer ++ ⟨t, .recordInWindow key stamp window limit ttl, .window outcome⟩ :: past)
      s t)
    (hquiet : ∀ e ∈ newer, e.call.SparesWindow key) (hstamp : Timestamp.minStamp ≤ stamp)
    (httl : 0 < ttl.nanos) :
    s.count t key stamp window = outcome.count ∧
      (outcome.admitted = false → limit ≤ outcome.count) := by
  rcases h.stampsAt_of_quiet hquiet with ⟨before, after, fresh, hdone, hsame⟩
  dsimp only at hdone
  have htallies := LocalStore.tallies_of_perform hstamp httl hdone
  refine ⟨?_, fun hrefused => ?_⟩
  · rw [LocalStore.count_eq, hsame t (Nat.le_refl t), ← LocalStore.count_eq]
    exact htallies.after
  · have hlimit : ¬ before.count t key stamp window < limit := by
      rw [← htallies.admitted_iff, hrefused]
      exact Bool.false_ne_true
    have hbefore := htallies.before
    rw [hrefused, if_neg Bool.false_ne_true] at hbefore
    omega

end

end Turnstile.Store

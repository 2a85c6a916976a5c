import Turnstile.Proofs.Store.Sliding

/-!
# What a request costs

Recording a request is the only call that adds to a rate window, and it touches nothing
else: neither values nor locks, nor the window under any other key.  A request that is
admitted adds one stamp to its window, which was not there before; one that is refused
adds none.  Either of them may drop stamps that are too old.

Main results:

- Theorem `Ran.stampsAt_induction`: what every recorded request preserves of a window holds
  throughout.
- Theorem `Ran.pairwise_stampsAt`: every window holds its stamps in increasing order,
  each once.
- Theorem `Ran.length_stampsAt_le`: no window holds more stamps than the limit by which
  requests are recorded in it.
- Theorem `Ran.charges_or_prunes`: what a request does to the store.
- Theorem `LocalStore.windows_of_spares`: no other call of the guards touches a window.
-/

namespace Turnstile.Store

/-! ## What a request may change -/

/-- Nothing has changed but the window under a key. -/
structure OnlyWindow (before after : LocalStore) (key : String) : Prop where
  values : after.values = before.values
  locks : after.locks = before.locks
  others : ∀ other, other ≠ key → after.windows.lookup other = before.windows.lookup other

/-- The window under a key holds one new stamp, and otherwise what it held from some
instant on. -/
structure Charges (before after : LocalStore) (now : Nat) (key : String) : Prop extends
    OnlyWindow before after key where
  window : ∃ stamp start entry, after.windows.lookup key = some entry ∧
    stamp ∉ before.stampsAt now key ∧ entry.stamps.Pairwise (· < ·) ∧
    ∀ x, x ∈ entry.stamps ↔ x = stamp ∨ (x ∈ before.stampsAt now key ∧ start ≤ x)

/-- The window under a key holds no new stamp. -/
structure Prunes (before after : LocalStore) (now : Nat) (key : String) : Prop extends
    OnlyWindow before after key where
  window : ∀ entry, after.windows.lookup key = some entry →
    ∀ x ∈ entry.stamps, x ∈ before.stampsAt now key

/-- Whether a call leaves every rate window as it is. -/
def Call.SparesWindows (call : Call) : Prop :=
  ∀ key, call.SparesWindow key

namespace LocalStore

variable {s s' : LocalStore} {now : Nat} {fresh : Token} {call : Call} {answer : Answer}

/-- A window that is put under a key is the only thing that changes. -/
theorem onlyWindow_insert (s : LocalStore) (key : String) (entry : RateWindow) :
    OnlyWindow s { s with windows := s.windows.insert key entry } key :=
  ⟨rfl, rfl, fun _ hne => Table.lookup_insert_of_ne _ _ hne⟩

/-- A call that spares every window touches none. -/
theorem windows_of_spares (hdone : s.perform now fresh call = .ok (answer, s'))
    (hspares : call.SparesWindows) : s'.windows = s.windows := by
  cases call with
  | get key => rw [(perform_get hdone).2]
  | set key value ttl => rw [(perform_set hdone).2]
  | delete key => exact absurd rfl (hspares key)
  | acquireLock key ttl =>
      rcases perform_acquire hdone with ⟨_, _, rfl⟩ | ⟨_, _, rfl⟩ <;> rfl
  | releaseLock key token =>
      rw [(perform_release hdone).2]
      exact release_windows s key token
  | recordInWindow key stamp window limit ttl => exact absurd rfl (hspares key)
  | countInWindow key stamp window => rw [(perform_count hdone).2]

end LocalStore

/-! ## What a request changes -/

section

variable {deeds : List Deed} {s s' : LocalStore} {now later : Nat} {fresh : Token} {answer : Answer}
  {key : String} {stamp : Int} {window ttl : Span} {limit : Nat}

/-- The stamp that an admitted request gets makes the stamps one more, in order. -/
theorem RateWindow.pairwise_insertSorted_firstFree {stamps : List Int}
    (h : stamps.Pairwise (· < ·)) (stamp : Int) :
    (insertSorted (firstFree stamp stamps) stamps).Pairwise (· < ·) :=
  pairwise_insertSorted h (firstFree_not_mem h)

/-- What a request leaves in its window is in order if what it found was. -/
theorem pairwise_of_record (hdone :
      s.perform now fresh (.recordInWindow key stamp window limit ttl) = .ok (answer, s'))
    (hle : now ≤ later) (hnow : (s.stampsAt now key).Pairwise (· < ·))
    (hlater : (s.stampsAt later key).Pairwise (· < ·)) :
    (s'.stampsAt later key).Pairwise (· < ·) := by
  rcases LocalStore.perform_record_cases hdone with
    ⟨_, _, entry, hentry, rfl⟩ | ⟨_, stamps, rfl, _, rfl⟩
  · rw [LocalStore.stampsAt_of_refused hle hentry rfl]
    exact hlater.filter _
  · rw [LocalStore.stampsAt_of_admitted]
    split
    · exact List.Pairwise.nil
    · exact RateWindow.pairwise_insertSorted_firstFree (hnow.filter _) stamp

/-- What holds of the stamps of a window while there are none, and goes on to hold with every
request that is recorded in it, always holds. -/
theorem Ran.stampsAt_induction {motive : List Int → Prop} (h : Ran deeds s now) (hle : now ≤ later)
    (hnone : motive [])
    (hrecord : ∀ {s s' : LocalStore} {fresh answer now stamp window limit ttl},
      ⟨now, .recordInWindow key stamp window limit ttl, answer⟩ ∈ deeds →
      s.perform now fresh (.recordInWindow key stamp window limit ttl) = .ok (answer, s') →
      (∀ later, now ≤ later → motive (s.stampsAt later key)) →
      ∀ later, now ≤ later → motive (s'.stampsAt later key)) :
    motive (s.stampsAt later key) := by
  induction h generalizing later with
  | start now => exact hnone
  | elapse _ hpass ih => exact ih (Nat.le_trans hpass hle) hrecord
  | purge hran ih =>
      rw [LocalStore.stampsAt_purge hran.distinct.windows hle]
      exact ih hle hrecord
  | @perform deeds s now fresh call answer s' hran _ hdone ih =>
      have hbefore : ∀ later, now ≤ later → motive (s.stampsAt later key) := fun later hle =>
        ih hle fun hmem => hrecord (List.mem_cons_of_mem _ hmem)
      by_cases hspares : call.SparesWindow key
      · rw [LocalStore.stampsAt_of_spares hdone hspares]
        exact hbefore later hle
      · cases call with
        | delete k =>
            have hkey : k = key := Classical.not_not.1 hspares
            rw [(LocalStore.perform_delete hdone).2, hkey]
            unfold LocalStore.stampsAt LocalStore.delete
            rw [Table.lookup_erase_self]
            exact hnone
        | recordInWindow k stamp window limit ttl =>
            have hkey : k = key := Classical.not_not.1 hspares
            subst hkey
            exact hrecord List.mem_cons_self hdone hbefore later hle
        | _ => exact absurd trivial hspares

/-- Every window holds its stamps in increasing order, each once. -/
theorem Ran.pairwise_stampsAt (h : Ran deeds s now) (hle : now ≤ later) (key : String) :
    (s.stampsAt later key).Pairwise (· < ·) := by
  refine h.stampsAt_induction hle List.Pairwise.nil fun _ hdone hbefore later hle => ?_
  exact pairwise_of_record hdone hle (hbefore _ (Nat.le_refl _)) (hbefore later hle)

/-- What a request leaves in its window is no more than its limit, if what it found was no
more than some greater one. -/
theorem length_of_record {most : Nat} (hdone :
      s.perform now fresh (.recordInWindow key stamp window limit ttl) = .ok (answer, s'))
    (hlimit : limit ≤ most) (hle : now ≤ later) (hlater : (s.stampsAt later key).length ≤ most) :
    (s'.stampsAt later key).length ≤ most := by
  rcases LocalStore.perform_record_cases hdone with
    ⟨_, _, entry, hentry, rfl⟩ | ⟨hroom, stamps, rfl, _, rfl⟩
  · rw [LocalStore.stampsAt_of_refused hle hentry rfl]
    exact Nat.le_trans (List.length_filter_le _ _) hlater
  · rw [LocalStore.stampsAt_of_admitted]
    split
    · exact Nat.zero_le most
    · rw [RateWindow.length_insertSorted]
      exact Nat.le_trans hroom hlimit

/-- No window holds more stamps than the greatest limit by which requests were recorded in
it. -/
theorem Ran.length_stampsAt_le (h : Ran deeds s now) (hle : now ≤ later) {most : Nat}
    (hlimits : ∀ d ∈ deeds, ∀ stamp window limit ttl,
      d.call = .recordInWindow key stamp window limit ttl → limit ≤ most) :
    (s.stampsAt later key).length ≤ most := by
  refine h.stampsAt_induction (motive := fun stamps => stamps.length ≤ most) hle
    (Nat.zero_le most) fun hmem hdone hbefore later hle => ?_
  exact length_of_record hdone (hlimits _ hmem _ _ _ _ rfl) hle (hbefore later hle)

/-- A request that is admitted is charged to its window and to nothing else; one that is
refused is charged to nothing. -/
theorem Ran.charges_or_prunes (h : Ran deeds s now) (hstamp : Timestamp.minStamp ≤ stamp)
    (hdone : s.perform now fresh (.recordInWindow key stamp window limit ttl) = .ok (answer, s')) :
    ∃ outcome, answer = .window outcome ∧ (outcome.admitted = true → Charges s s' now key) ∧
      (outcome.admitted = false → Prunes s s' now key) := by
  have hstart := windowStart_le stamp window hstamp
  let live := (s.stampsAt now key).filter (windowStart stamp window ≤ ·)
  have hordered : live.Pairwise (· < ·) := (h.pairwise_stampsAt (Nat.le_refl now) key).filter _
  rcases LocalStore.perform_record_cases hdone with
    ⟨_, hanswer, entry, _, rfl⟩ | ⟨_, stamps, rfl, hanswer, rfl⟩
  · refine ⟨_, hanswer, nofun, fun _ => ⟨s.onlyWindow_insert key _, ?_⟩⟩
    intro entry hentry x hx
    rw [Table.lookup_insert_self, Option.some.injEq] at hentry
    subst hentry
    exact (List.mem_filter.1 hx).1
  · refine ⟨_, hanswer, fun _ => ⟨s.onlyWindow_insert key _, ?_⟩, nofun⟩
    refine ⟨RateWindow.firstFree stamp live, windowStart stamp window, _,
      Table.lookup_insert_self _ _ _, ?_, RateWindow.pairwise_insertSorted_firstFree hordered stamp,
      ?_⟩
    · -- A stamp that the window holds is too old, or it is taken.
      intro hmem
      have hcounts := decide_eq_true (Int.le_trans hstart (RateWindow.firstFree_ge stamp live))
      exact RateWindow.firstFree_not_mem hordered (List.mem_filter.2 ⟨hmem, hcounts⟩)
    · intro x
      rw [RateWindow.mem_insertSorted, List.mem_filter, decide_eq_true_eq]

end

end Turnstile.Store

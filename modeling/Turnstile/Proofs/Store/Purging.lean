import Turnstile.Proofs.Store.PlainHistory
import Turnstile.Store.Sweeper

/-!
# Purges do not show

A purge removes entries that have expired, and an entry that has expired is as
good as gone: no call tells it from one that was never there.  So the answers of
a run are those of the same calls, made at the same readings of the clock on a
store that is never purged, however often and whenever the run purges its store
or lets a sweeper do so.

Lock tokens are drawn afresh in every run, and what is said of two runs is said
up to a renaming of them.

Main results:

- Theorem `Alike.perform`: of two stores that are alike, a call cannot tell
  which one it was made on.
- Theorem `Alike.pass`: what happens between two calls leaves a store alike to
  one that is not purged.
- Theorem `purging_is_unobservable`: two runs that make the same calls at the
  same readings of the clock are answered alike.
-/

namespace Turnstile.Store

/-! ## Renaming tokens -/

/-- The lock with another token. -/
def HeldLock.rename (f : Token → Token) (held : HeldLock) : HeldLock :=
  { held with token := f held.token }

/-- The call with another token. -/
def Call.rename (f : Token → Token) : Call → Call
  | .releaseLock key token => .releaseLock key (f token)
  | call => call

/-- The answer with another token. -/
def Answer.rename (f : Token → Token) : Answer → Answer
  | .token t => .token (t.map f)
  | answer => answer

/-- To rename no token leaves a call as it is. -/
@[simp]
theorem Call.rename_id (call : Call) : call.rename id = call := by
  cases call <;> rfl

/-- To rename no token leaves an answer as it is. -/
@[simp]
theorem Answer.rename_id : Answer.rename id = id := by
  funext answer
  cases answer <;> simp [rename]

/-! ## Runs with upkeep -/

/-- What may happen between two calls. -/
inductive Interlude where
  /-- Time passes, with the sweeps that are due on the way. -/
  | elapse (span : Span)
  | purge
  | startSweeper (every : Span)
  | stopSweeper

/-- A step of a run: a call, with the token for a lock that it takes, or
something between two calls. -/
inductive Step where
  | call (fresh : Token) (call : Call)
  | interlude (i : Interlude)

/-- A local store with its clock and its sweeper. -/
structure Attended where
  store : LocalStore
  now : Nat
  sweeper : Option Sweeper

/-- The store without entries and without a sweeper. -/
def Attended.start (now : Nat) : Attended :=
  ⟨.empty, now, none⟩

/-- The nanoseconds that pass meanwhile. -/
def Interlude.nanos : Interlude → Nat
  | .elapse span => span.nanos
  | _ => 0

/-- What an interlude makes of the store and its sweeper. -/
def Attended.pass (a : Attended) : Interlude → Attended
  | .elapse span =>
      let finish := a.now + span.nanos
      match a.sweeper with
      | none => { a with now := finish }
      | some sweeper =>
          let r := sweeper.run a.now finish a.store
          ⟨r.1, finish, some r.2⟩
  | .purge => { a with store := a.store.purge a.now }
  | .startSweeper every => { a with sweeper := Sweeper.start? a.now every }
  | .stopSweeper => { a with sweeper := none }

/-- The answers to the calls of a run, unless one of them overflows. -/
def Attended.answers : Attended → List Step → Except Overflow (List Answer)
  | _, [] => .ok []
  | a, .interlude i :: rest => (a.pass i).answers rest
  | a, .call fresh call :: rest =>
      match a.store.perform a.now fresh call with
      | .error overflow => .error overflow
      | .ok (answer, store) => ({ a with store := store }.answers rest).map (answer :: ·)

/-- A call with the reading of the clock at which it is made. -/
structure Visit where
  time : Nat
  fresh : Token
  call : Call

/-- The visit with other tokens. -/
def Visit.rename (f : Token → Token) (v : Visit) : Visit :=
  ⟨v.time, f v.fresh, v.call.rename f⟩

/-- To rename no token leaves a visit as it is. -/
@[simp]
theorem Visit.rename_id : Visit.rename id = id := by
  funext v
  simp [rename]

/-- The calls of a run that starts at `now`. -/
def visits : Nat → List Step → List Visit
  | _, [] => []
  | now, .interlude i :: rest => visits (now + i.nanos) rest
  | now, .call fresh call :: rest => ⟨now, fresh, call⟩ :: visits now rest

/-- The answers of a store that is never purged. -/
def LocalStore.answers : LocalStore → List Visit → Except Overflow (List Answer)
  | _, [] => .ok []
  | s, v :: rest =>
      match s.perform v.time v.fresh v.call with
      | .error overflow => .error overflow
      | .ok (answer, s) => (s.answers rest).map (answer :: ·)

/-! ## Stores that are alike -/

/-- From now on two stores hold the same, up to a renaming of the tokens. -/
structure Alike (f : Token → Token) (now : Nat) (s s' : LocalStore) : Prop where
  distinct : Ran.Distinct s'
  values : ∀ t, now ≤ t → ∀ key, s'.get t key = s.get t key
  locks : ∀ t, now ≤ t → ∀ key, s'.heldAt t key = (s.heldAt t key).map (HeldLock.rename f)
  windows : ∀ t, now ≤ t → ∀ key, s'.stampsAt t key = s.stampsAt t key

/-- Two stores are answered alike, and are alike then, or both cannot carry out
the call. -/
inductive AlikeAfter (f : Token → Token) (now : Nat) :
    Except Overflow (Answer × LocalStore) → Except Overflow (Answer × LocalStore) → Prop where
  | overflow (overflow : Overflow) : AlikeAfter f now (.error overflow) (.error overflow)
  | answered {s s' : LocalStore} (answer : Answer) (h : Alike f now s s') :
      AlikeAfter f now (.ok (answer, s)) (.ok (answer.rename f, s'))

section

variable {f : Token → Token} {now : Nat} {s s' : LocalStore}

/-- Empty stores are alike. -/
theorem Alike.empty (f : Token → Token) (now : Nat) : Alike f now .empty .empty where
  distinct := (Ran.start now).distinct
  values _ _ _ := rfl
  locks _ _ _ := rfl
  windows _ _ _ := rfl

/-- Stores that are alike stay so while time passes. -/
theorem Alike.elapse {later : Nat} (h : Alike f now s s') (hle : now ≤ later) :
    Alike f later s s' where
  distinct := h.distinct
  values t ht := h.values t (Nat.le_trans hle ht)
  locks t ht := h.locks t (Nat.le_trans hle ht)
  windows t ht := h.windows t (Nat.le_trans hle ht)

/-- A purge does not show, from then on. -/
theorem Alike.purge {moment : Nat} (h : Alike f now s s') (hle : moment ≤ now) :
    Alike f now s (s'.purge moment) where
  distinct := ⟨Table.keysDistinct_keep _ h.distinct.values, Table.keysDistinct_keep _ h.distinct.locks,
    Table.keysDistinct_keep _ h.distinct.windows⟩
  values t ht key := by
    rw [LocalStore.get_purge h.distinct.values (Nat.le_trans hle ht)]
    exact h.values t ht key
  locks t ht key := by
    rw [LocalStore.heldAt_purge h.distinct.locks (Nat.le_trans hle ht)]
    exact h.locks t ht key
  windows t ht key := by
    rw [LocalStore.stampsAt_purge h.distinct.windows (Nat.le_trans hle ht)]
    exact h.windows t ht key

/-! ## Entries under single keys -/

namespace LocalStore

/-- What a key reads after a value was written. -/
theorem get_insert (s : LocalStore) (t : Nat) (key other : String) (entry : ValueEntry) :
    get { s with values := s.values.insert key entry } t other =
      if other = key then entry.at t else s.get t other := by
  rw [get_eq_bind, get_eq_bind]
  by_cases hkey : other = key
  · simp [hkey]
  · simp [hkey, Table.lookup_insert_of_ne]

/-- What a key reads after one was deleted. -/
theorem get_delete (s : LocalStore) (t : Nat) (key other : String) :
    (s.delete key).get t other = if other = key then none else s.get t other := by
  rw [get_eq_bind, get_eq_bind]
  by_cases hkey : other = key
  · simp [hkey, delete]
  · simp [hkey, delete, Table.lookup_erase_of_ne]

/-- What a window has after one was deleted. -/
theorem stampsAt_delete (s : LocalStore) (t : Nat) (key other : String) :
    (s.delete key).stampsAt t other = if other = key then [] else s.stampsAt t other := by
  unfold stampsAt delete
  by_cases hkey : other = key
  · simp [hkey]
  · simp [hkey, Table.lookup_erase_of_ne]

/-- Who holds a lock after one was taken. -/
theorem heldAt_insert (s : LocalStore) (t : Nat) (key other : String) (held : HeldLock) :
    heldAt { s with locks := s.locks.insert key held } t other =
      if other = key then (some held).filter (t < ·.expiresAt) else s.heldAt t other := by
  unfold heldAt
  by_cases hkey : other = key
  · simp [hkey]
  · simp [hkey, Table.lookup_insert_of_ne]

end LocalStore

/-! ## Calls on stores that are alike -/

/-- A value that is set is seen alike. -/
theorem Alike.set (h : Alike f now s s') (key : String) (entry : ValueEntry) :
    Alike f now { s with values := s.values.insert key entry }
      { s' with values := s'.values.insert key entry } where
  distinct := ⟨Table.keysDistinct_insert _ _ h.distinct.values, h.distinct.locks, h.distinct.windows⟩
  values t ht other := by
    rw [LocalStore.get_insert, LocalStore.get_insert, h.values t ht]
  locks := h.locks
  windows := h.windows

/-- What is deleted is gone alike. -/
theorem Alike.delete (h : Alike f now s s') (key : String) :
    Alike f now (s.delete key) (s'.delete key) where
  distinct := ⟨Table.keysDistinct_erase _ h.distinct.values, h.distinct.locks,
    Table.keysDistinct_erase _ h.distinct.windows⟩
  values t ht other := by
    rw [LocalStore.get_delete, LocalStore.get_delete, h.values t ht]
  locks := h.locks
  windows t ht other := by
    rw [LocalStore.stampsAt_delete, LocalStore.stampsAt_delete, h.windows t ht]

/-- A lock that is taken is held alike. -/
theorem Alike.take (h : Alike f now s s') (key : String) (held : HeldLock) :
    Alike f now { s with locks := s.locks.insert key held }
      { s' with locks := s'.locks.insert key (held.rename f) } where
  distinct := ⟨h.distinct.values, Table.keysDistinct_insert _ _ h.distinct.locks, h.distinct.windows⟩
  values := h.values
  locks t ht other := by
    rw [LocalStore.heldAt_insert, LocalStore.heldAt_insert, h.locks t ht]
    by_cases hkey : other = key
    · by_cases hlive : t < held.expiresAt <;>
        simp [hkey, hlive, HeldLock.rename, Option.filter]
    · simp [hkey]
  windows := h.windows

/-- A release frees the lock of one store if it frees that of the other. -/
theorem Alike.release (h : Alike f now s s') (hf : Function.Injective f) (key : String)
    (token : Token) : Alike f now (s.release key token) (s'.release key (f token)) where
  distinct := Ran.distinct_perform h.distinct
    (show s'.perform now token (.releaseLock key (f token)) = .ok (.done, _) from rfl)
  values t ht other := by
    rw [get_of_values_eq (LocalStore.release_values _ _ _),
      get_of_values_eq (LocalStore.release_values _ _ _), h.values t ht]
  locks t ht other := by
    by_cases hkey : other = key
    · rw [hkey, heldAt_release, heldAt_release, h.locks t ht]
      cases s.heldAt t key with
      | none => rfl
      | some held =>
          by_cases htoken : held.token = token
          · simp [HeldLock.rename, Option.filter, htoken]
          · simp [HeldLock.rename, Option.filter, htoken, hf.eq_iff]
    · rw [heldAt_release_of_ne _ _ _ hkey, heldAt_release_of_ne _ _ _ hkey, h.locks t ht]
  windows t ht other := by
    rw [LocalStore.stampsAt_of_windows_eq (LocalStore.release_windows _ _ _),
      LocalStore.stampsAt_of_windows_eq (LocalStore.release_windows _ _ _), h.windows t ht]

/-- A window that is written keeps the same stamps in both stores. -/
theorem Alike.record {entry entry' : RateWindow} (h : Alike f now s s') (key : String)
    (hsame : ∀ t, now ≤ t → (if entry'.isExpired t then [] else entry'.stamps) =
      if entry.isExpired t then [] else entry.stamps) :
    Alike f now { s with windows := s.windows.insert key entry }
      { s' with windows := s'.windows.insert key entry' } where
  distinct := ⟨h.distinct.values, h.distinct.locks, Table.keysDistinct_insert _ _ h.distinct.windows⟩
  values := h.values
  locks := h.locks
  windows t ht other := by
    by_cases hkey : other = key
    · rw [hkey, LocalStore.stampsAt_insert_self, LocalStore.stampsAt_insert_self, hsame t ht]
    · rw [LocalStore.stampsAt_insert_of_ne hkey, LocalStore.stampsAt_insert_of_ne hkey,
        h.windows t ht]

/-- A lock is taken in one store if it is taken in the other. -/
theorem Alike.perform_acquire (h : Alike f now s s') (fresh : Token) (key : String) (ttl : Span) :
    AlikeAfter f now (s.perform now fresh (.acquireLock key ttl))
      (s'.perform now (f fresh) (.acquireLock key ttl)) := by
  rw [LocalStore.perform_acquire_eq, LocalStore.perform_acquire_eq, h.locks now (Nat.le_refl now)]
  cases expiry now ttl with
  | error overflow => exact .overflow overflow
  | ok expiresAt =>
      cases s.heldAt now key with
      | none => exact .answered _ (h.take key ⟨fresh, expiresAt⟩)
      | some held => exact .answered _ h

/-- A request is admitted in one store if it is admitted in the other. -/
theorem Alike.perform_record (h : Alike f now s s') (fresh fresh' : Token) (key : String)
    (stamp : Int) (window : Span) (limit : Nat) (ttl : Span) :
    AlikeAfter f now (s.perform now fresh (.recordInWindow key stamp window limit ttl))
      (s'.perform now fresh' (.recordInWindow key stamp window limit ttl)) := by
  have hstamps := h.windows now (Nat.le_refl now) key
  simp only [LocalStore.perform, LocalStore.record, LocalStore.liveStamps_eq, hstamps]
  generalize hlive : (s.stampsAt now key).filter (windowStart stamp window ≤ ·) = live
  by_cases hfull : limit ≤ live.length
  · -- The pruned windows may differ in their ends, but not in what they keep.
    simp only [hfull, if_true, Except.map]
    refine .answered _ (h.record key fun t ht => ?_)
    have hkept := LocalStore.stampsAt_of_refused (s := s) ht rfl hlive.symm
    have hkept' := LocalStore.stampsAt_of_refused (s := s') ht rfl (hstamps ▸ hlive.symm)
    rw [LocalStore.stampsAt_insert_self] at hkept hkept'
    rw [hkept, hkept', h.windows t ht]
  · by_cases hrange : Timestamp.maxStamp < RateWindow.firstFree stamp live
    · simp only [hfull, hrange, if_true, if_false, Except.map]
      exact .overflow .stamp
    · simp only [hfull, hrange, if_false]
      cases expiry now ttl with
      | error overflow => exact .overflow overflow
      | ok expiresAt => exact .answered _ (h.record key fun _ _ => rfl)

/-- Of two stores that are alike, a call cannot tell which one it was made on. -/
theorem Alike.perform (h : Alike f now s s') (hf : Function.Injective f) (fresh : Token)
    (call : Call) :
    AlikeAfter f now (s.perform now fresh call) (s'.perform now (f fresh) (call.rename f)) := by
  cases call with
  | get key =>
      simp only [LocalStore.perform, Call.rename, h.values now (Nat.le_refl now)]
      exact .answered _ h
  | set key value ttl =>
      simp only [LocalStore.perform, LocalStore.set, Call.rename]
      cases expiry now ttl with
      | error overflow => exact .overflow overflow
      | ok expiresAt => exact .answered _ (h.set key ⟨value, expiresAt⟩)
  | delete key => exact .answered _ (h.delete key)
  | acquireLock key ttl => exact h.perform_acquire fresh key ttl
  | releaseLock key token => exact .answered _ (h.release hf key token)
  | recordInWindow key stamp window limit ttl =>
      exact h.perform_record fresh (f fresh) key stamp window limit ttl
  | countInWindow key stamp window =>
      simp only [LocalStore.perform, LocalStore.count_eq, Call.rename, h.windows now (Nat.le_refl now)]
      exact .answered _ h

end

/-! ## Whole runs -/

section

variable {f : Token → Token}

/-- A store with upkeep that is alike to one without, and whose sweeper has been
started by now. -/
structure Attended.AlikeTo (f : Token → Token) (s : LocalStore) (a : Attended) : Prop where
  alike : Alike f a.now s a.store
  started : ∀ sweeper ∈ a.sweeper, sweeper.startedAt ≤ a.now

/-- A sweep is made in the span that it is made for. -/
theorem Sweeper.lastSweep_le {sweeper : Sweeper} {finish : Nat} (h : sweeper.startedAt ≤ finish) :
    sweeper.lastSweep finish ≤ finish := by
  have hwhole := Nat.div_mul_le_self (finish - sweeper.startedAt) sweeper.every.nanos
  unfold lastSweep
  omega

/-- What happens between two calls leaves a store alike to one that is not
purged. -/
theorem Attended.AlikeTo.pass {s : LocalStore} {a : Attended} (h : AlikeTo f s a) (i : Interlude) :
    AlikeTo f s (a.pass i) ∧ (a.pass i).now = a.now + i.nanos := by
  rcases a with ⟨store, now, sweeper⟩
  cases i with
  | elapse span =>
      have hlater := h.alike.elapse (Nat.le_add_right now span.nanos)
      cases sweeper with
      | none => exact ⟨⟨hlater, nofun⟩, rfl⟩
      | some sweeper =>
          have hstarted := Nat.le_trans (h.started sweeper rfl) (Nat.le_add_right now span.nanos)
          have hsweep := Sweeper.lastSweep_le hstarted
          refine ⟨⟨?_, ?_⟩, rfl⟩
          · simp only [Attended.pass, Sweeper.run]
            split
            · exact hlater.purge (by omega)
            · exact hlater
          · rintro _ ⟨rfl⟩
            simp only [Attended.pass, Sweeper.run]
            split <;> exact hstarted
  | purge => exact ⟨⟨h.alike.purge (Nat.le_refl now), h.started⟩, rfl⟩
  | startSweeper every =>
      refine ⟨⟨h.alike, ?_⟩, rfl⟩
      intro sweeper hsweeper
      simp only [Attended.pass, Sweeper.start?] at hsweeper
      split at hsweeper
      · cases hsweeper
      · cases hsweeper
        exact Nat.le_refl now
  | stopSweeper => exact ⟨⟨h.alike, nofun⟩, rfl⟩

/-- A run with upkeep is answered as its calls would be without. -/
theorem Attended.AlikeTo.answers {s : LocalStore} {a : Attended} (h : AlikeTo f s a)
    (hf : Function.Injective f) {steps : List Step} {calls : List Visit}
    (hcalls : visits a.now steps = calls.map (Visit.rename f)) :
    a.answers steps = (s.answers calls).map (List.map (Answer.rename f)) := by
  induction steps generalizing a s calls with
  | nil =>
      have hnone : calls = [] := List.map_eq_nil_iff.1 hcalls.symm
      subst hnone
      rfl
  | cons step steps ih =>
      cases step with
      | interlude i =>
          rcases h.pass i with ⟨hpass, hnow⟩
          simp only [visits, ← hnow] at hcalls
          exact ih hpass hcalls
      | call fresh call =>
          cases calls with
          | nil => exact nomatch hcalls
          | cons v calls =>
              rcases v with ⟨time, fresh', call'⟩
              simp only [visits, List.map_cons, List.cons.injEq, Visit.rename, Visit.mk.injEq] at hcalls
              rcases hcalls with ⟨⟨rfl, rfl, rfl⟩, hrest⟩
              have hafter := h.alike.perform hf fresh' call'
              simp only [Attended.answers, LocalStore.answers]
              generalize s.perform a.now fresh' call' = without at hafter ⊢
              generalize a.store.perform a.now (f fresh') (call'.rename f) = withUpkeep at hafter ⊢
              cases hafter with
              | overflow overflow => rfl
              | @answered s₁ s₁' answer halike =>
                  have hnext : AlikeTo f s₁ { a with store := s₁' } := ⟨halike, h.started⟩
                  simp only [ih hnext hrest]
                  cases s₁.answers calls <;> rfl

/-- Two runs that make the same calls at the same readings of the clock, up to a
renaming of the lock tokens, are answered alike, whatever purges and sweepers
there are in either: the same call overflows in both, or none does and the
answers are the same up to that renaming. -/
theorem purging_is_unobservable (hf : Function.Injective f) (now : Nat) (steps steps' : List Step)
    (hcalls : visits now steps' = (visits now steps).map (Visit.rename f)) :
    (Attended.start now).answers steps' =
      ((Attended.start now).answers steps).map (List.map (Answer.rename f)) := by
  have hown : visits now steps = (visits now steps).map (Visit.rename id) := by simp
  have hplain : (Attended.start now).AlikeTo id .empty := ⟨Alike.empty id now, nofun⟩
  have hrenamed : (Attended.start now).AlikeTo f .empty := ⟨Alike.empty f now, nofun⟩
  rw [hrenamed.answers hf hcalls, hplain.answers Function.injective_id hown]
  cases LocalStore.empty.answers (visits now steps) <;> simp [Except.map]

end

/-! ## A run that is swept -/

/-- A value, a lock and a full window expire, and are asked for and taken again. -/
def unsweptRun : List Step :=
  [.call (.issued 1) (.set "k" [] ⟨10⟩),
    .call (.issued 2) (.acquireLock "k" ⟨10⟩),
    .call (.issued 3) (.recordInWindow "k" 0 ⟨10⟩ 1 ⟨10⟩),
    .interlude (.elapse ⟨20⟩),
    .call (.issued 4) (.get "k"),
    .call (.issued 5) (.recordInWindow "k" 0 ⟨10⟩ 0 ⟨10⟩),
    .call (.issued 6) (.releaseLock "k" (.issued 2)),
    .call (.issued 7) (.acquireLock "k" ⟨10⟩),
    .call (.issued 8) (.releaseLock "k" (.issued 2)),
    .call (.issued 9) (.acquireLock "k" ⟨10⟩),
    .call (.issued 10) (.countInWindow "k" 0 ⟨10⟩)]

/-- The same calls with other tokens, a sweeper and purges. -/
def sweptRun : List Step :=
  [.interlude (.startSweeper ⟨3⟩),
    .call (.issued 101) (.set "k" [] ⟨10⟩),
    .call (.issued 102) (.acquireLock "k" ⟨10⟩),
    .call (.issued 103) (.recordInWindow "k" 0 ⟨10⟩ 1 ⟨10⟩),
    .interlude (.elapse ⟨8⟩), .interlude .purge, .interlude (.elapse ⟨12⟩), .interlude .stopSweeper,
    .call (.issued 104) (.get "k"),
    .call (.issued 105) (.recordInWindow "k" 0 ⟨10⟩ 0 ⟨10⟩), .interlude .purge,
    .call (.issued 106) (.releaseLock "k" (.issued 102)),
    .call (.issued 107) (.acquireLock "k" ⟨10⟩), .interlude .purge,
    .call (.issued 108) (.releaseLock "k" (.issued 102)),
    .call (.issued 109) (.acquireLock "k" ⟨10⟩),
    .call (.issued 110) (.countInWindow "k" 0 ⟨10⟩)]

/-- The tokens of the one run in the other. -/
def renumbered : Token → Token
  | .issued n => .issued (n + 100)
  | .text s => .text s

/-- Distinct tokens stay distinct. -/
theorem renumbered_injective : Function.Injective renumbered := by
  intro token token' h
  cases token <;> cases token' <;> simp [renumbered] at h ⊢ <;> exact h

/-- What the run answers with a sweeper is what it answers without one, up to its tokens. -/
theorem sweptRun_answers :
    Function.Injective renumbered ∧
      visits 0 sweptRun = (visits 0 unsweptRun).map (Visit.rename renumbered) ∧
      (Attended.start 0).answers sweptRun =
        .ok [.done, .token (some (.issued 102)), .window ⟨true, 1, some 0⟩, .value none,
          .window ⟨false, 0, none⟩, .done, .token (some (.issued 107)), .done, .token none,
          .count 0] := by
  have hcalls : visits 0 sweptRun = (visits 0 unsweptRun).map (Visit.rename renumbered) := rfl
  refine ⟨renumbered_injective, hcalls, ?_⟩
  rw [purging_is_unobservable renumbered_injective 0 unsweptRun sweptRun hcalls]
  rfl

end Turnstile.Store

import Turnstile.Proofs.Store.Purging

/-!
# Parts of a store

Somebody sees a store under some of its keys only.  A call under a key that is seen
does with the part that is seen what it does with the store, and a call that writes
nothing that is seen leaves that part as it is.

Main results:

- Theorem `LocalStore.perform_within`: a call on the part that is seen.
- Theorem `LocalStore.within_of_spares`: a call beside it.
- Theorem `AlikeWithin.perform`: where the same is seen, a call is answered alike.
-/

namespace Turnstile.Store

/-- The keys under which somebody sees a store. -/
structure Sight where
  values : String → Bool
  locks : String → Bool
  windows : String → Bool

/-- What a call is answered depends on what is seen only. -/
def Sight.Sees (sight : Sight) : Call → Prop
  | .get key => sight.values key = true
  | .set key _ _ => sight.values key = true
  | .delete _ => True
  | .acquireLock key _ => sight.locks key = true
  | .releaseLock key _ => sight.locks key = true
  | .recordInWindow key _ _ _ _ => sight.windows key = true
  | .countInWindow key _ _ => sight.windows key = true

/-- A call writes nothing that is seen. -/
def Sight.Misses (sight : Sight) : Call → Prop
  | .get _ => True
  | .set key _ _ => sight.values key = false
  | .delete key => sight.values key = false ∧ sight.windows key = false
  | .acquireLock key _ => sight.locks key = false
  | .releaseLock key _ => sight.locks key = false
  | .recordInWindow key _ _ _ _ => sight.windows key = false
  | .countInWindow _ _ _ => True

/-- Renaming tokens leaves the kind of a call as it is. -/
@[simp]
theorem Call.operation_rename (f : Token → Token) (call : Call) :
    (call.rename f).operation = call.operation := by
  cases call <;> rfl

/-! ## Parts of a table -/

namespace Table

variable {α : Type} {seen : String → Bool} {key : String}

/-- The entries under keys that are seen. -/
def within (t : Table α) (seen : String → Bool) : Table α :=
  ⟨t.entries.filter fun e => seen e.1⟩

/-- What is in sight is found. -/
theorem lookup_within (t : Table α) (h : seen key = true) :
    (t.within seen).lookup key = t.lookup key := by
  have hsame : ∀ entries : List (String × α),
      (entries.filter fun e => seen e.1).find? (·.1 = key) = entries.find? (·.1 = key) := by
    intro entries
    rw [List.find?_filter]
    congr 1
    funext e
    by_cases hkey : e.1 = key
    · simp [hkey, h]
    · simp [hkey]
  unfold lookup within
  rw [hsame]

/-- Erasing shows in what is in sight. -/
theorem within_erase (t : Table α) (seen : String → Bool) (key : String) :
    (t.erase key).within seen = (t.within seen).erase key := by
  unfold erase within
  rw [List.filter_filter, List.filter_filter]
  simp only [Bool.and_comm]

/-- Erasing what is out of sight does not show. -/
theorem within_erase_of_unseen (t : Table α) (h : seen key = false) :
    (t.erase key).within seen = t.within seen := by
  unfold erase within
  rw [List.filter_filter]
  congr 2
  funext e
  by_cases hkey : e.1 = key
  · simp [hkey, h]
  · simp [hkey]

/-- Inserting what is in sight shows in it. -/
theorem within_insert (t : Table α) (h : seen key = true) (entry : α) :
    (t.insert key entry).within seen = (t.within seen).insert key entry := by
  unfold insert
  rw [← within_erase]
  simp [within, h]

/-- Inserting what is out of sight does not show. -/
theorem within_insert_of_unseen (t : Table α) (h : seen key = false) (entry : α) :
    (t.insert key entry).within seen = t.within seen := by
  rw [← within_erase_of_unseen t h]
  simp [insert, within, h]

/-- Keeping what passes a test shows in what is in sight. -/
theorem within_keep (t : Table α) (seen : String → Bool) (test : α → Bool) :
    (t.keep test).within seen = (t.within seen).keep test := by
  unfold keep within
  rw [List.filter_filter, List.filter_filter]
  simp only [Bool.and_comm]

end Table

/-! ## Parts of a store -/

namespace LocalStore

variable {sight : Sight} {s s' : LocalStore} {now : Nat} {fresh : Token} {call : Call}

/-- The part of a store that is seen. -/
def within (s : LocalStore) (sight : Sight) : LocalStore :=
  ⟨s.values.within sight.values, s.locks.within sight.locks, s.windows.within sight.windows⟩

/-- So does purging. -/
theorem within_purge (s : LocalStore) (sight : Sight) (now : Nat) :
    (s.purge now).within sight = (s.within sight).purge now := by
  unfold purge within
  rw [Table.within_keep, Table.within_keep, Table.within_keep]

/-- A call under a key that is seen does with the part that is seen what it does with
the store. -/
theorem perform_within (h : sight.Sees call) :
    (s.within sight).perform now fresh call =
      (s.perform now fresh call).map fun r => (r.1, r.2.within sight) := by
  cases call with
  | get key =>
      simp only [perform, get, within, Table.lookup_within _ h, Except.map]
  | set key value ttl =>
      simp only [perform, set]
      cases expiry now ttl with
      | error overflow => rfl
      | ok expiresAt => simp only [Except.map, within, Table.within_insert _ h]
  | delete key =>
      simp only [perform, delete, within, Table.within_erase, Except.map]
  | acquireLock key ttl =>
      have hheld : (s.within sight).heldAt now key = s.heldAt now key :=
        congrArg (Option.filter _) (Table.lookup_within _ h)
      rw [perform_acquire_eq, perform_acquire_eq, hheld]
      cases expiry now ttl with
      | error overflow => rfl
      | ok expiresAt =>
          cases s.heldAt now key with
          | none => simp only [Except.map, within, Table.within_insert _ h]
          | some held => rfl
  | releaseLock key token =>
      have hlocks : (s.within sight).locks.lookup key = s.locks.lookup key :=
        Table.lookup_within _ h
      simp only [perform, release, hlocks, Except.map]
      cases s.locks.lookup key with
      | none => rfl
      | some held =>
          by_cases htoken : held.token = token
          · simp only [htoken, if_true, within, Table.within_erase]
          · simp only [htoken, if_false]
  | recordInWindow key stamp window limit ttl =>
      have hwindows : (s.within sight).windows.lookup key = s.windows.lookup key :=
        Table.lookup_within _ h
      simp only [perform, record, hwindows]
      generalize liveStamps ((s.windows.lookup key).getD RateWindow.empty) now
        (windowStart stamp window) = live
      by_cases hfull : limit ≤ live.length
      · simp only [hfull, if_true, Except.map, within, Table.within_insert _ h]
      · by_cases hrange : Timestamp.maxStamp < RateWindow.firstFree stamp live
        · simp only [hfull, hrange, if_true, if_false, Except.map]
        · simp only [hfull, hrange, if_false]
          cases expiry now ttl with
          | error overflow => rfl
          | ok expiresAt => simp only [Except.map, within, Table.within_insert _ h]
  | countInWindow key stamp window =>
      simp only [perform, count, within, Table.lookup_within _ h, Except.map]

/-- Whether a call can be carried out does not depend on the fresh token. -/
theorem perform_error_of_fresh {overflow : Overflow}
    (h : s.perform now fresh call = .error overflow) (fresh' : Token) :
    s.perform now fresh' call = .error overflow := by
  cases call with
  | acquireLock key ttl =>
      rw [perform_acquire_eq] at h ⊢
      cases hexpiry : expiry now ttl with
      | error overflow =>
          rw [hexpiry] at h
          exact h
      | ok expiresAt =>
          rw [hexpiry] at h
          cases hheld : s.heldAt now key <;> simp [hheld] at h
  | _ => exact h

/-- A value out of sight does not show. -/
theorem within_values_insert (s : LocalStore) {key : String} (h : sight.values key = false)
    (entry : ValueEntry) :
    within { s with values := s.values.insert key entry } sight = s.within sight := by
  simp only [within, Table.within_insert_of_unseen _ h]

/-- A lock out of sight does not show. -/
theorem within_locks_insert (s : LocalStore) {key : String} (h : sight.locks key = false)
    (held : HeldLock) :
    within { s with locks := s.locks.insert key held } sight = s.within sight := by
  simp only [within, Table.within_insert_of_unseen _ h]

/-- A window out of sight does not show. -/
theorem within_windows_insert (s : LocalStore) {key : String} (h : sight.windows key = false)
    (window : RateWindow) :
    within { s with windows := s.windows.insert key window } sight = s.within sight := by
  simp only [within, Table.within_insert_of_unseen _ h]

/-- Deleting a key that is out of sight does not show. -/
theorem within_delete (s : LocalStore) {key : String} (hvalue : sight.values key = false)
    (hwindow : sight.windows key = false) : (s.delete key).within sight = s.within sight := by
  simp only [delete, within, Table.within_erase_of_unseen _ hvalue,
    Table.within_erase_of_unseen _ hwindow]

/-- Releasing a lock out of sight does not show. -/
theorem within_release (s : LocalStore) {key : String} (h : sight.locks key = false)
    (token : Token) : (s.release key token).within sight = s.within sight := by
  unfold release
  split
  · split
    · simp only [within, Table.within_erase_of_unseen _ h]
    · rfl
  · rfl

/-- A call that writes nothing that is seen leaves what is seen as it is. -/
theorem within_of_misses (h : sight.Misses call) {answer : Answer}
    (hdone : s.perform now fresh call = .ok (answer, s')) : s'.within sight = s.within sight := by
  cases call with
  | get key => rw [(perform_get hdone).2]
  | set key value ttl => rw [(perform_set hdone).2, within_values_insert s h]
  | delete key => rw [(perform_delete hdone).2, within_delete s h.1 h.2]
  | acquireLock key ttl =>
      rcases perform_acquire hdone with ⟨_, _, rfl⟩ | ⟨_, _, rfl⟩
      · exact within_locks_insert s h _
      · rfl
  | releaseLock key token => rw [(perform_release hdone).2, within_release s h]
  | recordInWindow key stamp window limit ttl =>
      rcases perform_record hdone with ⟨entry, rfl⟩
      exact within_windows_insert s h entry
  | countInWindow key stamp window => rw [(perform_count hdone).2]

end LocalStore

/-! ## Stores of which the same is seen -/

/-- From now on the same is seen of two stores, up to a renaming of the tokens. -/
def AlikeWithin (sight : Sight) (f : Token → Token) (now : Nat) (s s' : LocalStore) : Prop :=
  Alike f now (s.within sight) (s'.within sight)

namespace AlikeWithin

variable {sight : Sight} {f : Token → Token} {now : Nat} {s s' : LocalStore}

/-- Empty stores are alike. -/
theorem empty (sight : Sight) (f : Token → Token) (now : Nat) :
    AlikeWithin sight f now .empty .empty :=
  Alike.empty f now

/-- The same is seen while time passes. -/
theorem elapse {later : Nat} (h : AlikeWithin sight f now s s') (hle : now ≤ later) :
    AlikeWithin sight f later s s' :=
  Alike.elapse h hle

/-- What is written beside what is seen is not seen. -/
theorem beside (h : AlikeWithin sight f now s s') {fresh : Token} {call : Call} {answer : Answer}
    {next : LocalStore} (hmisses : sight.Misses call)
    (hdone : s'.perform now fresh call = .ok (answer, next)) : AlikeWithin sight f now s next := by
  unfold AlikeWithin
  rw [LocalStore.within_of_misses hmisses hdone]
  exact h

/-- Keys are distinct in what is in sight. -/
theorem distinct_within (h : Ran.Distinct s) : Ran.Distinct (s.within sight) :=
  ⟨Table.keysDistinct_filter _ h.values, Table.keysDistinct_filter _ h.locks,
    Table.keysDistinct_filter _ h.windows⟩

/-- A purge of the one store is not seen, from then on. -/
theorem purge (h : AlikeWithin sight f now s s') : AlikeWithin sight f now s (s'.purge now) := by
  unfold AlikeWithin
  rw [LocalStore.within_purge]
  exact Alike.purge h (Nat.le_refl now)

/-- Nor is a purge of both. -/
theorem purge_both (h : AlikeWithin sight f now s s') (hdistinct : Ran.Distinct s) :
    AlikeWithin sight f now (s.purge now) (s'.purge now) := by
  have hpurged : Alike f now (s.within sight) ((s'.purge now).within sight) := h.purge
  have hwithin : Ran.Distinct (s.within sight) := distinct_within hdistinct
  unfold AlikeWithin
  rw [LocalStore.within_purge s]
  refine ⟨hpurged.distinct, fun t ht key => ?_, fun t ht key => ?_, fun t ht key => ?_⟩
  · rw [LocalStore.get_purge hwithin.values ht]
    exact hpurged.values t ht key
  · rw [LocalStore.heldAt_purge hwithin.locks ht]
    exact hpurged.locks t ht key
  · rw [LocalStore.stampsAt_purge hwithin.windows ht]
    exact hpurged.windows t ht key

end AlikeWithin

/-- Two stores are answered alike, and the same is seen of them then, or both cannot
carry out the call. -/
inductive AnsweredAlike (sight : Sight) (f : Token → Token) (now : Nat) :
    Except Overflow (Answer × LocalStore) → Except Overflow (Answer × LocalStore) → Prop where
  | overflow (overflow : Overflow) : AnsweredAlike sight f now (.error overflow) (.error overflow)
  | answered {s s' : LocalStore} (answer : Answer) (h : AlikeWithin sight f now s s') :
      AnsweredAlike sight f now (.ok (answer, s)) (.ok (answer.rename f, s'))

/-- Another token does not change whether a call sees only what is seen. -/
theorem Sight.Sees.rename {sight : Sight} {call : Call} (h : sight.Sees call) (f : Token → Token) :
    sight.Sees (call.rename f) := by
  cases call <;> exact h

/-- Where the same is seen of two stores, a call cannot tell which one it was made
on. -/
theorem AlikeWithin.perform {sight : Sight} {f : Token → Token} {now : Nat} {s s' : LocalStore}
    (h : AlikeWithin sight f now s s') (hf : Function.Injective f) (fresh : Token) {call : Call}
    (hsees : sight.Sees call) :
    AnsweredAlike sight f now (s.perform now fresh call)
      (s'.perform now (f fresh) (call.rename f)) := by
  have hpart := Alike.perform h hf fresh call
  rw [LocalStore.perform_within hsees, LocalStore.perform_within (hsees.rename f)] at hpart
  cases hleft : s.perform now fresh call with
  | error overflow =>
      cases hright : s'.perform now (f fresh) (call.rename f) with
      | error overflow' =>
          rw [hleft, hright] at hpart
          cases hpart
          exact .overflow overflow
      | ok r =>
          rw [hleft, hright] at hpart
          cases hpart
  | ok r =>
      rcases r with ⟨answer, next⟩
      cases hright : s'.perform now (f fresh) (call.rename f) with
      | error overflow' =>
          rw [hleft, hright] at hpart
          cases hpart
      | ok r' =>
          rcases r' with ⟨answer', next'⟩
          rw [hleft, hright] at hpart
          cases hpart with
          | answered _ halike => exact .answered answer halike

end Turnstile.Store

import Turnstile.Store.Local

/-!
# Histories of a local store

The deeds of a store are the calls that it carried out, with the time and the
answer of each, the last one first.  What the store answers next is said of
these deeds alone: a value is the one that was set last and has not expired, and
a lock is held by whoever took it last, until it is released under its own token
or expires.

Purges and the passing of time are no deeds: they never show.

Main results:

- Theorem `Ran.get_eq`: a look-up answers what the deeds say.
- Theorem `Ran.heldAt_eq`: a lock is held as the deeds say.
- Theorem `Ran.released_or_expired`: a lock that is taken again was released
  under its token or has expired.
- Theorem `Ran.token_ne`: no two deeds took a lock under one token.
-/

namespace Turnstile.Store

/-- A call that a store carried out. -/
structure Deed where
  time : Nat
  call : Call
  answer : Answer
  deriving DecidableEq

/-- The store and the reading of its clock after the deeds, the last one
first. -/
inductive Ran : List Deed → LocalStore → Nat → Prop where
  /-- A store without entries. -/
  | start (now : Nat) : Ran [] .empty now
  /-- Time passes. -/
  | elapse {deeds s now later} (h : Ran deeds s now) (hle : now ≤ later) : Ran deeds s later
  /-- The store is purged. -/
  | purge {deeds s now} (h : Ran deeds s now) : Ran deeds (s.purge now) now
  /-- A call is carried out, with a token that no deed has answered. -/
  | perform {deeds s now fresh call answer s'} (h : Ran deeds s now)
      (hfresh : ∀ d ∈ deeds, d.answer ≠ .token (some fresh))
      (hdone : s.perform now fresh call = .ok (answer, s')) :
      Ran (⟨now, call, answer⟩ :: deeds) s' now

/-! ## What the deeds say -/

/-- The value that was set last under a key, unless it was deleted since. -/
def valueUnder (key : String) : List Deed → Option ValueEntry
  | [] => none
  | d :: older =>
      match d.call with
      | .set k value ttl =>
          if k = key then some ⟨value, d.time + ttl.nanos⟩ else valueUnder key older
      | .delete k => if k = key then none else valueUnder key older
      | _ => valueUnder key older

/-- The lock that was taken last under a key, unless it was released since under
its token. -/
def lockUnder (key : String) : List Deed → Option HeldLock
  | [] => none
  | d :: older =>
      match d.call, d.answer with
      | .acquireLock k ttl, .token (some token) =>
          if k = key then some ⟨token, d.time + ttl.nanos⟩ else lockUnder key older
      | .releaseLock k token, _ =>
          if k = key then (lockUnder key older).filter fun held => held.token ≠ token
          else lockUnder key older
      | _, _ => lockUnder key older

/-- The bytes of an entry that has not expired. -/
def ValueEntry.at (now : Nat) (entry : ValueEntry) : Option Bytes :=
  if now < entry.expiresAt then some entry.value else none

/-- The lock that is held under a key at a time, unless it has expired by
then. -/
def LocalStore.heldAt (s : LocalStore) (now : Nat) (key : String) : Option HeldLock :=
  (s.locks.lookup key).filter fun held => now < held.expiresAt

/-- Whether a call changes the value under a key. -/
def Call.Writes (key : String) : Call → Prop
  | .set k _ _ => k = key
  | .delete k => k = key
  | _ => False

/-- A deed that takes the lock under a key. -/
structure Deed.Takes (d : Deed) (key : String) (ttl : Span) (token : Token) : Prop where
  call : d.call = .acquireLock key ttl
  answer : d.answer = .token (some token)

/-! ## Tables -/

namespace Table

variable {α : Type}

/-- A key that no entry has is not found. -/
theorem find?_eq_none_of_not_mem {entries : List (String × α)} {key : String}
    (h : key ∉ entries.map (·.1)) : entries.find? (·.1 = key) = none := by
  rw [List.find?_eq_none]
  intro e he heq
  have hkey : e.1 = key := of_decide_eq_true heq
  exact h (List.mem_map.2 ⟨e, he, hkey⟩)

/-- Keeping the entries that pass a test keeps the entry under a key if it
passes. -/
theorem lookup_keep {t : Table α} (ht : t.KeysDistinct) (test : α → Bool) (key : String) :
    (t.keep test).lookup key = (t.lookup key).filter test := by
  rcases t with ⟨entries⟩
  simp only [keep, lookup]
  induction entries with
  | nil => rfl
  | cons e entries ih =>
      have hnodup : e.1 ∉ entries.map (·.1) ∧ (entries.map (·.1)).Nodup := List.nodup_cons.1 ht
      by_cases hkey : e.1 = key
      · have habsent : key ∉ entries.map (·.1) := by
          rw [← hkey]
          exact hnodup.1
        have hfiltered : key ∉ (entries.filter fun e => test e.2).map (·.1) := by
          intro hmem
          exact habsent ((List.filter_sublist.map _).subset hmem)
        by_cases htest : test e.2 = true
        · simp [hkey, htest, Option.filter]
        · simp [hkey, htest, Option.filter, find?_eq_none_of_not_mem hfiltered]
      · have hrest := ih hnodup.2
        by_cases htest : test e.2 = true
        · simpa [hkey, htest] using hrest
        · simpa [hkey, htest] using hrest

end Table

/-! ## Single calls -/

/-- The end of a span, where it is in range. -/
theorem expiry_eq_ok {now expiresAt : Nat} {ttl : Span} (h : expiry now ttl = .ok expiresAt) :
    expiresAt = now + ttl.nanos := by
  unfold expiry Moment.end? at h
  by_cases hbound : now + ttl.nanos < Moment.bound
  · simp only [hbound, if_true, Except.ok.injEq] at h
    exact h.symm
  · simp [hbound] at h

/-- A span that ends in range has an end. -/
theorem expiry_ok {now : Nat} {ttl : Span} (h : now + ttl.nanos < Moment.bound) :
    expiry now ttl = .ok (now + ttl.nanos) := by
  unfold expiry Moment.end?
  rw [if_pos h]

namespace LocalStore

variable {s s' : LocalStore} {now : Nat} {fresh : Token} {answer : Answer} {key : String}
  {ttl : Span}

/-- Reading a value answers with it and changes nothing. -/
theorem perform_get (h : s.perform now fresh (.get key) = .ok (answer, s')) :
    answer = .value (s.get now key) ∧ s' = s := by
  simp only [perform, Except.ok.injEq, Prod.mk.injEq] at h
  exact ⟨h.1.symm, h.2.symm⟩

/-- Writing a value keeps it until its time to live is over. -/
theorem perform_set {value : Bytes} (h : s.perform now fresh (.set key value ttl) = .ok (answer, s')) :
    answer = .done ∧ s' = { s with values := s.values.insert key ⟨value, now + ttl.nanos⟩ } := by
  simp only [perform, set] at h
  cases hexp : expiry now ttl with
  | error e => simp [hexp, Except.map] at h
  | ok expiresAt =>
      simp only [hexp, Except.map, Except.ok.injEq, Prod.mk.injEq] at h
      rw [← expiry_eq_ok hexp]
      exact ⟨h.1.symm, h.2.symm⟩

/-- A delete answers that it is done, and clears its key. -/
theorem perform_delete (h : s.perform now fresh (.delete key) = .ok (answer, s')) :
    answer = .done ∧ s' = s.delete key := by
  simp only [perform, Except.ok.injEq, Prod.mk.injEq] at h
  exact ⟨h.1.symm, h.2.symm⟩

/-- A lock that is free is taken with the fresh token, and one that is held is
not touched. -/
theorem perform_acquire (h : s.perform now fresh (.acquireLock key ttl) = .ok (answer, s')) :
    (s.heldAt now key = none ∧ answer = .token (some fresh) ∧
      s' = { s with locks := s.locks.insert key ⟨fresh, now + ttl.nanos⟩ }) ∨
    (s.heldAt now key ≠ none ∧ answer = .token none ∧ s' = s) := by
  simp only [perform, acquire] at h
  cases hexp : expiry now ttl with
  | error e => simp [hexp, Except.map] at h
  | ok expiresAt =>
      rw [← expiry_eq_ok hexp]
      unfold heldAt
      cases hlock : s.locks.lookup key with
      | none =>
          simp only [hexp, hlock, Except.map, Except.ok.injEq, Prod.mk.injEq] at h
          exact Or.inl ⟨rfl, h.1.symm, h.2.symm⟩
      | some held =>
          simp only [hexp, hlock] at h
          by_cases hexpired : held.expiresAt ≤ now
          · simp only [hexpired, if_true, Except.map, Except.ok.injEq, Prod.mk.injEq] at h
            have hfree : ¬ now < held.expiresAt := by omega
            exact Or.inl ⟨by simp [Option.filter, hfree], h.1.symm, h.2.symm⟩
          · simp only [hexpired, if_false, Except.map, Except.ok.injEq, Prod.mk.injEq] at h
            have hheld : now < held.expiresAt := by omega
            exact Or.inr ⟨by simp [Option.filter, hheld], h.1.symm, h.2.symm⟩

/-- A release answers that it is done, and lets go of the lock. -/
theorem perform_release {token : Token}
    (h : s.perform now fresh (.releaseLock key token) = .ok (answer, s')) :
    answer = .done ∧ s' = s.release key token := by
  simp only [perform, Except.ok.injEq, Prod.mk.injEq] at h
  exact ⟨h.1.symm, h.2.symm⟩

/-- Releasing a lock leaves the values alone. -/
theorem release_values (s : LocalStore) (key : String) (token : Token) :
    (s.release key token).values = s.values := by
  unfold release
  cases s.locks.lookup key with
  | none => rfl
  | some held => by_cases htoken : held.token = token <;> simp [htoken]

/-- Releasing a lock leaves the windows alone. -/
theorem release_windows (s : LocalStore) (key : String) (token : Token) :
    (s.release key token).windows = s.windows := by
  unfold release
  cases s.locks.lookup key with
  | none => rfl
  | some held => by_cases htoken : held.token = token <;> simp [htoken]

/-- Asking for room in a window changes that window only. -/
theorem perform_record {stamp : Int} {window : Span} {limit : Nat}
    (h : s.perform now fresh (.recordInWindow key stamp window limit ttl) = .ok (answer, s')) :
    ∃ entry, s' = { s with windows := s.windows.insert key entry } := by
  simp only [perform, record] at h
  split at h
  · simp only [Except.map, Except.ok.injEq, Prod.mk.injEq] at h
    exact ⟨_, h.2.symm⟩
  · split at h
    · simp [Except.map] at h
    · cases hexp : expiry now ttl with
      | error e => simp [hexp, Except.map] at h
      | ok expiresAt =>
          simp only [hexp, Except.map, Except.ok.injEq, Prod.mk.injEq] at h
          exact ⟨_, h.2.symm⟩

/-- A lock that nobody holds is taken. -/
theorem perform_acquire_free {expiresAt : Nat} (hfree : s.heldAt now key = none)
    (hexpiry : expiry now ttl = .ok expiresAt) (fresh : Token) :
    s.perform now fresh (.acquireLock key ttl) =
      .ok (.token (some fresh), { s with locks := s.locks.insert key ⟨fresh, expiresAt⟩ }) := by
  unfold heldAt at hfree
  cases hlock : s.locks.lookup key with
  | none => simp only [perform, acquire, hexpiry, hlock, Except.map]
  | some held =>
      have hexpired : held.expiresAt ≤ now := by
        rw [hlock] at hfree
        simpa [Option.filter] using hfree
      simp only [perform, acquire, hexpiry, hlock, hexpired, if_true, Except.map]

/-- A lock is taken if it is not held. -/
theorem perform_acquire_eq (s : LocalStore) (now : Nat) (fresh : Token) (key : String) (ttl : Span) :
    s.perform now fresh (.acquireLock key ttl) =
      match expiry now ttl with
      | .error overflow => .error overflow
      | .ok expiresAt =>
          match s.heldAt now key with
          | none =>
              .ok (.token (some fresh), { s with locks := s.locks.insert key ⟨fresh, expiresAt⟩ })
          | some _ => .ok (.token none, s) := by
  cases hexpiry : expiry now ttl with
  | error overflow => simp [perform, acquire, hexpiry, Except.map]
  | ok expiresAt =>
      cases hheld : s.heldAt now key with
      | none => exact perform_acquire_free hheld hexpiry fresh
      | some held =>
          unfold heldAt at hheld
          cases hlock : s.locks.lookup key with
          | none => simp [hlock] at hheld
          | some found =>
              rw [hlock, Option.filter_eq_some_iff] at hheld
              have hlive : ¬ found.expiresAt ≤ now := by
                have hsome := hheld.2
                rw [← Option.some.inj hheld.1] at hsome
                simpa using hsome
              simp [perform, acquire, hexpiry, hlock, hlive, Except.map]

/-- A value is set if its end is in range. -/
theorem perform_set_ok {expiresAt : Nat} (hexpiry : expiry now ttl = .ok expiresAt) (fresh : Token)
    (value : Bytes) :
    s.perform now fresh (.set key value ttl) =
      .ok (.done, { s with values := s.values.insert key ⟨value, expiresAt⟩ }) := by
  simp only [perform, set, hexpiry, Except.map]

/-- Counting a window changes nothing. -/
theorem perform_count {stamp : Int} {window : Span}
    (h : s.perform now fresh (.countInWindow key stamp window) = .ok (answer, s')) :
    answer = .count (s.count now key stamp window) ∧ s' = s := by
  simp only [perform, Except.ok.injEq, Prod.mk.injEq] at h
  exact ⟨h.1.symm, h.2.symm⟩

end LocalStore

/-! ## Reachable stores -/

namespace Ran

variable {deeds : List Deed} {s s' : LocalStore} {now : Nat}

/-- Every table of a store that ran has each key once. -/
structure Distinct (s : LocalStore) : Prop where
  values : s.values.KeysDistinct
  locks : s.locks.KeysDistinct
  windows : s.windows.KeysDistinct

/-- A call keeps the keys of the store distinct. -/
theorem distinct_perform {fresh : Token} {call : Call} {answer : Answer} (hs : Distinct s)
    (h : s.perform now fresh call = .ok (answer, s')) : Distinct s' := by
  cases call with
  | get key =>
      rw [(LocalStore.perform_get h).2]
      exact hs
  | set key value ttl =>
      rw [(LocalStore.perform_set h).2]
      exact ⟨Table.keysDistinct_insert _ _ hs.values, hs.locks, hs.windows⟩
  | delete key =>
      rw [(LocalStore.perform_delete h).2]
      exact ⟨Table.keysDistinct_erase _ hs.values, hs.locks, Table.keysDistinct_erase _ hs.windows⟩
  | acquireLock key ttl =>
      rcases LocalStore.perform_acquire h with ⟨_, _, rfl⟩ | ⟨_, _, rfl⟩
      · exact ⟨hs.values, Table.keysDistinct_insert _ _ hs.locks, hs.windows⟩
      · exact hs
  | releaseLock key token =>
      rw [(LocalStore.perform_release h).2]
      unfold LocalStore.release
      split
      · split
        · exact ⟨hs.values, Table.keysDistinct_erase _ hs.locks, hs.windows⟩
        · exact hs
      · exact hs
  | recordInWindow key stamp window limit ttl =>
      rcases LocalStore.perform_record h with ⟨entry, rfl⟩
      exact ⟨hs.values, hs.locks, Table.keysDistinct_insert _ _ hs.windows⟩
  | countInWindow key stamp window =>
      rw [(LocalStore.perform_count h).2]
      exact hs

/-- A store that ran has each key once in every table. -/
theorem distinct (h : Ran deeds s now) : Distinct s := by
  induction h with
  | start now => exact ⟨Table.keysDistinct_empty, Table.keysDistinct_empty, Table.keysDistinct_empty⟩
  | elapse _ _ ih => exact ih
  | purge _ ih =>
      exact ⟨Table.keysDistinct_keep _ ih.values, Table.keysDistinct_keep _ ih.locks,
        Table.keysDistinct_keep _ ih.windows⟩
  | perform _ _ hdone ih => exact distinct_perform ih hdone

/-- No deed was done after the clock of the store. -/
theorem time_le (h : Ran deeds s now) : ∀ d ∈ deeds, d.time ≤ now := by
  induction h with
  | start now =>
      intro d hd
      exact absurd hd List.not_mem_nil
  | elapse _ hle ih =>
      intro d hd
      exact Nat.le_trans (ih d hd) hle
  | purge _ ih => exact ih
  | perform _ _ _ ih =>
      intro d hd
      rcases List.mem_cons.1 hd with rfl | hd
      · exact Nat.le_refl _
      · exact ih d hd

/-- Behind every deed lies a store that ran, which then carried it out. -/
theorem behind {d : Deed} {past : List Deed} (h : Ran deeds s now) (hd : d :: past <:+ deeds) :
    ∃ s₀ s₁ fresh, Ran past s₀ d.time ∧ (∀ d' ∈ past, d'.answer ≠ .token (some fresh)) ∧
      s₀.perform d.time fresh d.call = .ok (d.answer, s₁) := by
  induction h with
  | start now => simp at hd
  | elapse _ _ ih => exact ih hd
  | purge _ ih => exact ih hd
  | perform h hfresh hdone ih =>
      rcases List.suffix_cons_iff.1 hd with heq | hd
      · rw [List.cons.injEq] at heq
        rcases heq with ⟨rfl, rfl⟩
        exact ⟨_, _, _, h, hfresh, hdone⟩
      · exact ih hd

/-- The deeds up to a time are the deeds of a store. -/
theorem exists_of_suffix {past : List Deed} (h : Ran deeds s now) (hs : past <:+ deeds) :
    ∃ s₀ now₀, Ran past s₀ now₀ := by
  induction h with
  | start now =>
      rw [List.suffix_nil.1 hs]
      exact ⟨_, now, Ran.start now⟩
  | elapse _ _ ih => exact ih hs
  | purge _ ih => exact ih hs
  | @perform deeds s now fresh call answer s' h hfresh hdone ih =>
      rcases List.suffix_cons_iff.1 hs with rfl | hs
      · exact ⟨s', now, h.perform hfresh hdone⟩
      · exact ih hs

end Ran

/-! ## Values -/

section

variable {deeds : List Deed} {s : LocalStore} {now : Nat}

/-- What a key reads depends on the values only. -/
theorem get_of_values_eq {s s' : LocalStore} (h : s'.values = s.values) (t : Nat) (key : String) :
    s'.get t key = s.get t key := by
  unfold LocalStore.get
  rw [h]

/-- A key reads the value under it, if that has not expired. -/
theorem get_eq_bind (s : LocalStore) (t : Nat) (key : String) :
    s.get t key = (s.values.lookup key).bind (ValueEntry.at t) := by
  unfold LocalStore.get
  cases s.values.lookup key <;> rfl

/-- An entry that has expired is not seen any more. -/
theorem bind_at_filter {now t : Nat} (hle : now ≤ t) (entry : Option ValueEntry) :
    (entry.filter fun e => now < e.expiresAt).bind (ValueEntry.at t) =
      entry.bind (ValueEntry.at t) := by
  cases entry with
  | none => rfl
  | some e =>
      by_cases hlive : now < e.expiresAt
      · simp [Option.filter, hlive]
      · have hgone : ¬ t < e.expiresAt := by omega
        simp [Option.filter, hlive, ValueEntry.at, hgone]

/-- A purge removes no value that is still seen. -/
theorem LocalStore.get_purge {s : LocalStore} (hs : s.values.KeysDistinct) {t : Nat} (hle : now ≤ t)
    (key : String) : (s.purge now).get t key = s.get t key := by
  rw [get_eq_bind, get_eq_bind]
  simp only [purge]
  rw [Table.lookup_keep hs, bind_at_filter hle]

/-- A look-up answers what the deeds say, also when it is made later. -/
theorem Ran.get_eq (h : Ran deeds s now) {t : Nat} (hle : now ≤ t) (key : String) :
    s.get t key = (valueUnder key deeds).bind (ValueEntry.at t) := by
  induction h with
  | start now => rfl
  | elapse _ hlater ih => exact ih (Nat.le_trans hlater hle)
  | @purge deeds s now hran ih =>
      rw [LocalStore.get_purge hran.distinct.values hle]
      exact ih hle
  | @perform deeds s now fresh call answer s' hran hfresh hdone ih =>
      cases call with
      | get k =>
          rw [(LocalStore.perform_get hdone).2]
          exact ih hle
      | set k value ttl =>
          rw [(LocalStore.perform_set hdone).2, get_eq_bind]
          simp only [valueUnder]
          by_cases hk : k = key
          · rw [if_pos hk, hk, Table.lookup_insert_self]
          · rw [if_neg hk, Table.lookup_insert_of_ne _ _ (Ne.symm hk), ← get_eq_bind]
            exact ih hle
      | delete k =>
          rw [(LocalStore.perform_delete hdone).2, get_eq_bind]
          simp only [valueUnder, LocalStore.delete]
          by_cases hk : k = key
          · rw [if_pos hk, hk, Table.lookup_erase_self]
          · rw [if_neg hk, Table.lookup_erase_of_ne _ (Ne.symm hk), ← get_eq_bind]
            exact ih hle
      | acquireLock k ttl =>
          have hvalues : s'.values = s.values := by
            rcases LocalStore.perform_acquire hdone with ⟨_, _, rfl⟩ | ⟨_, _, rfl⟩ <;> rfl
          rw [get_of_values_eq hvalues]
          exact ih hle
      | releaseLock k token =>
          have hvalues : s'.values = s.values := by
            rw [(LocalStore.perform_release hdone).2, LocalStore.release_values]
          rw [get_of_values_eq hvalues]
          exact ih hle
      | recordInWindow k stamp window limit ttl =>
          rcases LocalStore.perform_record hdone with ⟨entry, rfl⟩
          exact ih hle
      | countInWindow k stamp window =>
          rw [(LocalStore.perform_count hdone).2]
          exact ih hle

/-- The answer of a look-up among the deeds. -/
theorem Ran.get_answer {past : List Deed} {t : Nat} {key : String} {answer : Answer}
    (h : Ran deeds s now) (hd : ⟨t, .get key, answer⟩ :: past <:+ deeds) :
    answer = .value ((valueUnder key past).bind (ValueEntry.at t)) := by
  rcases h.behind hd with ⟨s₀, s₁, fresh, hran, _, hdone⟩
  have hanswer := (LocalStore.perform_get hdone).1
  rw [hran.get_eq (Nat.le_refl _)] at hanswer
  exact hanswer

/-- Only deeds that write a key change the value under it. -/
theorem valueUnder_cons_of_not_writes {d : Deed} {key : String} (h : ¬ d.call.Writes key)
    (older : List Deed) : valueUnder key (d :: older) = valueUnder key older := by
  rcases d with ⟨t, call, answer⟩
  cases call with
  | set k value ttl => exact if_neg h
  | delete k => exact if_neg h
  | _ => rfl

/-- As long as nothing is written under a key, the value there stays. -/
theorem valueUnder_of_suffix {key : String} {past : List Deed} (hs : past <:+ deeds)
    (h : ∀ d' past', d' :: past' <:+ deeds → past <:+ past' → ¬ d'.call.Writes key) :
    valueUnder key deeds = valueUnder key past := by
  rcases hs with ⟨newer, rfl⟩
  induction newer with
  | nil => rfl
  | cons d newer ih =>
      have hlast : ¬ d.call.Writes key := h d (newer ++ past) List.suffix_rfl (List.suffix_append _ _)
      rw [List.cons_append, valueUnder_cons_of_not_writes hlast]
      exact ih fun d' past' hd' => h d' past' (hd'.trans (List.suffix_cons _ _))

/-- The value under a key was set by a deed, and nothing was written there
since. -/
theorem exists_of_valueUnder {key : String} {entry : ValueEntry}
    (h : valueUnder key deeds = some entry) :
    ∃ t ttl answer past, ⟨t, .set key entry.value ttl, answer⟩ :: past <:+ deeds ∧
      entry.expiresAt = t + ttl.nanos ∧
      ∀ d' past', d' :: past' <:+ deeds →
        ⟨t, .set key entry.value ttl, answer⟩ :: past <:+ past' → ¬ d'.call.Writes key := by
  induction deeds with
  | nil => simp [valueUnder] at h
  | cons d older ih =>
      by_cases hw : d.call.Writes key
      · rcases d with ⟨t, call, answer⟩
        cases call with
        | set k value ttl =>
            have hk : k = key := hw
            simp only [valueUnder, if_pos hk, Option.some.injEq] at h
            rw [← h, ← hk]
            refine ⟨t, ttl, answer, older, List.suffix_rfl, rfl, ?_⟩
            intro d' past' hd' hafter
            have hlong := List.IsSuffix.length_le hd'
            have hlong' := List.IsSuffix.length_le hafter
            simp only [List.length_cons] at hlong hlong'
            omega
        | delete k =>
            have hk : k = key := hw
            simp [valueUnder, hk] at h
        | _ => exact hw.elim
      · rw [valueUnder_cons_of_not_writes hw] at h
        rcases ih h with ⟨t, ttl, answer, past, hd, hexp, hlast⟩
        refine ⟨t, ttl, answer, past, hd.trans (List.suffix_cons _ _), hexp, ?_⟩
        intro d' past' hd' hafter
        rcases List.suffix_cons_iff.1 hd' with heq | hd'
        · rw [List.cons.injEq] at heq
          rw [heq.1]
          exact hw
        · exact hlast d' past' hd' hafter

/-- What was set under a key stands there as long as nothing is written there
since. -/
theorem valueUnder_of_set {key : String} {value : Bytes} {ttl : Span} {t : Nat} {answer : Answer}
    {past : List Deed} (hd : ⟨t, .set key value ttl, answer⟩ :: past <:+ deeds)
    (hlast : ∀ d' past', d' :: past' <:+ deeds →
      ⟨t, .set key value ttl, answer⟩ :: past <:+ past' → ¬ d'.call.Writes key) :
    valueUnder key deeds = some ⟨value, t + ttl.nanos⟩ := by
  rw [valueUnder_of_suffix hd hlast]
  simp [valueUnder]

end

/-! ## Locks -/

section

variable {deeds : List Deed} {s : LocalStore} {now : Nat} {key : String}

/-- A lock that has expired is not held later either. -/
theorem filter_filter_live {now t : Nat} (hle : now ≤ t) (held : Option HeldLock) :
    ((held.filter fun l => now < l.expiresAt).filter fun l => t < l.expiresAt) =
      held.filter fun l => t < l.expiresAt := by
  cases held with
  | none => rfl
  | some l =>
      by_cases hlive : now < l.expiresAt
      · simp [Option.filter, hlive]
      · have hgone : ¬ t < l.expiresAt := by omega
        simp [Option.filter, hlive, hgone]

/-- Releasing a lock under a token frees it if it is held under that token. -/
theorem heldAt_release (s : LocalStore) (t : Nat) (key : String) (token : Token) :
    (s.release key token).heldAt t key =
      (s.heldAt t key).filter fun held => held.token ≠ token := by
  unfold LocalStore.release LocalStore.heldAt
  cases hlock : s.locks.lookup key with
  | none => simp [hlock]
  | some held =>
      by_cases htoken : held.token = token
      · by_cases hlive : t < held.expiresAt <;> simp [htoken, Option.filter, hlive]
      · by_cases hlive : t < held.expiresAt <;> simp [htoken, hlock, Option.filter, hlive]

/-- A release under one key leaves the locks under the others. -/
theorem heldAt_release_of_ne (s : LocalStore) (t : Nat) {key other : String} (token : Token)
    (h : other ≠ key) : (s.release key token).heldAt t other = s.heldAt t other := by
  unfold LocalStore.release LocalStore.heldAt
  cases hlock : s.locks.lookup key with
  | none => rfl
  | some held =>
      by_cases htoken : held.token = token
      · simp [htoken, Table.lookup_erase_of_ne _ h]
      · simp [htoken]

/-- Two conditions on a lock may be asked in either order. -/
theorem filter_comm (p q : HeldLock → Bool) (held : Option HeldLock) :
    (held.filter p).filter q = (held.filter q).filter p := by
  cases held with
  | none => rfl
  | some l => by_cases hp : p l = true <;> by_cases hq : q l = true <;> simp [Option.filter, hp, hq]

/-- A purge frees no lock that is still held. -/
theorem LocalStore.heldAt_purge {s : LocalStore} (hs : s.locks.KeysDistinct) {t : Nat} (hle : now ≤ t)
    (key : String) : (s.purge now).heldAt t key = s.heldAt t key := by
  unfold heldAt purge
  rw [Table.lookup_keep hs, filter_filter_live hle]

/-- A lock is held as the deeds say, also later. -/
theorem Ran.heldAt_eq (h : Ran deeds s now) {t : Nat} (hle : now ≤ t) (key : String) :
    s.heldAt t key = (lockUnder key deeds).filter fun held => t < held.expiresAt := by
  induction h with
  | start now => rfl
  | elapse _ hlater ih => exact ih (Nat.le_trans hlater hle)
  | @purge deeds s now hran ih =>
      rw [LocalStore.heldAt_purge hran.distinct.locks hle]
      exact ih hle
  | @perform deeds s now fresh call answer s' hran hfresh hdone ih =>
      cases call with
      | get k =>
          rw [(LocalStore.perform_get hdone).2]
          exact ih hle
      | set k value ttl =>
          rw [(LocalStore.perform_set hdone).2]
          exact ih hle
      | delete k =>
          rw [(LocalStore.perform_delete hdone).2]
          exact ih hle
      | acquireLock k ttl =>
          rcases LocalStore.perform_acquire hdone with ⟨_, rfl, rfl⟩ | ⟨_, rfl, rfl⟩
          · simp only [lockUnder]
            unfold LocalStore.heldAt
            by_cases hk : k = key
            · rw [if_pos hk, hk, Table.lookup_insert_self]
            · rw [if_neg hk, Table.lookup_insert_of_ne _ _ (Ne.symm hk)]
              exact ih hle
          · exact ih hle
      | releaseLock k token =>
          rw [(LocalStore.perform_release hdone).2]
          simp only [lockUnder]
          by_cases hk : k = key
          · rw [if_pos hk, hk, heldAt_release, ih hle, filter_comm]
          · rw [if_neg hk, heldAt_release_of_ne _ _ _ (Ne.symm hk)]
            exact ih hle
      | recordInWindow k stamp window limit ttl =>
          rcases LocalStore.perform_record hdone with ⟨entry, rfl⟩
          exact ih hle
      | countInWindow k stamp window =>
          rw [(LocalStore.perform_count hdone).2]
          exact ih hle

/-- A lock that was taken is the last one that was, unless it was released under
its token or has expired. -/
theorem Ran.held_or_released_or_expired {d : Deed} {past : List Deed} {ttl : Span} {token : Token}
    (h : Ran deeds s now) (hd : d :: past <:+ deeds) (htakes : d.Takes key ttl token) :
    lockUnder key deeds = some ⟨token, d.time + ttl.nanos⟩ ∨
    (∃ r past', r :: past' <:+ deeds ∧ d :: past <:+ past' ∧ r.call = .releaseLock key token) ∨
    d.time + ttl.nanos ≤ now := by
  induction h with
  | start now => simp at hd
  | elapse _ hlater ih =>
      rcases ih hd with hheld | hreleased | hexpired
      · exact Or.inl hheld
      · exact Or.inr (Or.inl hreleased)
      · exact Or.inr (Or.inr (Nat.le_trans hexpired hlater))
  | purge _ ih => exact ih hd
  | @perform deeds s now fresh call answer s' hran hfresh hdone ih =>
      rcases List.suffix_cons_iff.1 hd with heq | hbehind
      · rw [List.cons.injEq] at heq
        rcases heq with ⟨rfl, rfl⟩
        have hcall : call = .acquireLock key ttl := htakes.call
        have hanswer : answer = .token (some token) := htakes.answer
        subst hcall hanswer
        exact Or.inl (by simp [lockUnder])
      · rcases ih hbehind with hheld | ⟨r, past', hr, hafter, hrelease⟩ | hexpired
        · cases call with
          | acquireLock k ttl' =>
              rcases LocalStore.perform_acquire hdone with ⟨hfree, rfl, rfl⟩ | ⟨_, rfl, rfl⟩
              · by_cases hk : k = key
                · subst hk
                  rw [hran.heldAt_eq (Nat.le_refl _), hheld] at hfree
                  by_cases hlive : now < d.time + ttl.nanos
                  · simp [Option.filter, hlive] at hfree
                  · exact Or.inr (Or.inr (by omega))
                · simp only [lockUnder, if_neg hk]
                  exact Or.inl hheld
              · exact Or.inl hheld
          | releaseLock k token' =>
              by_cases hk : k = key
              · by_cases htoken : token' = token
                · subst hk htoken
                  exact Or.inr (Or.inl ⟨_, deeds, List.suffix_rfl, hbehind, rfl⟩)
                · refine Or.inl ?_
                  simp only [lockUnder, if_pos hk, hheld]
                  simp [Option.filter, Ne.symm htoken]
              · simp only [lockUnder, if_neg hk]
                exact Or.inl hheld
          | _ => exact Or.inl hheld
        · exact Or.inr (Or.inl ⟨r, past', hr.trans (List.suffix_cons _ _), hafter, hrelease⟩)
        · exact Or.inr (Or.inr hexpired)

/-- A lock that is taken again was released under its token or has expired. -/
theorem Ran.released_or_expired {d d' : Deed} {past past' : List Deed} {ttl ttl' : Span}
    {token token' : Token} (h : Ran deeds s now) (hd' : d' :: past' <:+ deeds)
    (hd : d :: past <:+ past') (htakes : d.Takes key ttl token)
    (htakes' : d'.Takes key ttl' token') :
    (∃ r past'', r :: past'' <:+ past' ∧ d :: past <:+ past'' ∧ r.call = .releaseLock key token) ∨
    d.time + ttl.nanos ≤ d'.time := by
  rcases h.behind hd' with ⟨s₀, s₁, fresh, hran, _, hdone⟩
  rcases hran.held_or_released_or_expired hd htakes with hheld | hreleased | hexpired
  · rw [htakes'.call, htakes'.answer] at hdone
    rcases LocalStore.perform_acquire hdone with ⟨hfree, _, _⟩ | ⟨_, hanswer, _⟩
    · rw [hran.heldAt_eq (Nat.le_refl _), hheld] at hfree
      by_cases hlive : d'.time < d.time + ttl.nanos
      · simp [Option.filter, hlive] at hfree
      · exact Or.inr (by omega)
    · simp at hanswer
  · exact Or.inl hreleased
  · exact Or.inr hexpired

/-- A token that is answered is the fresh one. -/
theorem Ran.fresh_of_perform {s s' : LocalStore} {fresh token : Token} {call : Call}
    {answer : Answer} (h : s.perform now fresh call = .ok (answer, s'))
    (hanswer : answer = .token (some token)) : token = fresh := by
  subst hanswer
  cases call with
  | get k => simpa using (LocalStore.perform_get h).1
  | set k value ttl => simpa using (LocalStore.perform_set h).1
  | delete k => simpa using (LocalStore.perform_delete h).1
  | acquireLock k ttl =>
      rcases LocalStore.perform_acquire h with ⟨_, heq, _⟩ | ⟨_, heq, _⟩
      · simpa using heq
      · simp at heq
  | releaseLock k token' => simpa using (LocalStore.perform_release h).1
  | recordInWindow k stamp window limit ttl =>
      simp only [LocalStore.perform] at h
      cases hrecord : s.record now k stamp window limit ttl with
      | error e => simp [hrecord, Except.map] at h
      | ok r => simp [hrecord, Except.map] at h
  | countInWindow k stamp window => simpa using (LocalStore.perform_count h).1

/-- No two deeds took a lock under one token. -/
theorem Ran.token_ne {d d' : Deed} {past' : List Deed} {key' : String} {ttl ttl' : Span}
    {token token' : Token} (h : Ran deeds s now) (hd' : d' :: past' <:+ deeds) (hd : d ∈ past')
    (htakes : d.Takes key ttl token) (htakes' : d'.Takes key' ttl' token') : token ≠ token' := by
  rcases h.behind hd' with ⟨s₀, s₁, fresh, _, hfresh, hdone⟩
  rw [htakes'.call, htakes'.answer] at hdone
  rcases LocalStore.perform_acquire hdone with ⟨_, hanswer, _⟩ | ⟨_, hanswer, _⟩
  · simp only [Answer.token.injEq, Option.some.injEq] at hanswer
    rw [hanswer]
    intro heq
    apply hfresh d hd
    rw [htakes.answer, heq]
  · simp at hanswer

end

end Turnstile.Store

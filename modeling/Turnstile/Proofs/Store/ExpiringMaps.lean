import Turnstile.Proofs.Store.History

/-!
# Expiring maps

The values and the locks of a local store are two maps whose entries expire, and
which are kept apart.  What is found under a key is decided by the last deed of
one kind: a value by the last call that wrote there, and a lock by the last call
that took it.  Everything else that was done to the store is of no account, the
purges among it.

Main results:

- Theorem `Ran.get_eq_some_iff`: a value is found if it was written last and has
  not expired.
- Theorem `Ran.heldAt_eq_none_iff`: a lock is free if it was never taken, or was
  released under the token of its last holder, or has expired.
- Theorem `Ran.not_held_of_released`: a token whose lock was released is not in the
  table any more.
- Theorem `Ran.refines_expiring_maps`: look-ups and attempts to take a lock are
  answered so, and only the calls that are of account change their answers.
-/

namespace Turnstile.Store

/-! ## The last deed of a kind -/

/-- The last deed of a kind, with the deeds that came after it. -/
structure Latest (kind : Deed → Prop) (deeds newer : List Deed) (d : Deed) : Prop where
  split : ∃ older, deeds = newer ++ d :: older
  holds : kind d
  last : ∀ d' ∈ newer, ¬ kind d'

section

variable {kind : Deed → Prop} {d d' : Deed} {deeds newer : List Deed}

/-- A deed of a kind is the latest one, if it is the last of all. -/
theorem Latest.head (h : kind d) : Latest kind (d :: deeds) [] d :=
  ⟨⟨deeds, rfl⟩, h, by simp⟩

/-- It stays the latest one while no other of its kind is done. -/
theorem Latest.cons (h : Latest kind deeds newer d) (hd' : ¬ kind d') :
    Latest kind (d' :: deeds) (d' :: newer) d := by
  rcases h.split with ⟨older, rfl⟩
  refine ⟨⟨older, rfl⟩, h.holds, ?_⟩
  intro d'' hmem
  rcases List.mem_cons.1 hmem with rfl | hmem
  · exact hd'
  · exact h.last d'' hmem

/-- There is a last deed of a kind, if there is any. -/
theorem latest_or_none (kind : Deed → Prop) (deeds : List Deed) :
    (∀ d ∈ deeds, ¬ kind d) ∨ ∃ newer d, Latest kind deeds newer d := by
  induction deeds with
  | nil => simp
  | cons d deeds ih =>
      by_cases hd : kind d
      · exact Or.inr ⟨[], d, .head hd⟩
      · rcases ih with hnone | ⟨newer, last, hlast⟩
        · refine Or.inl fun d' hmem => ?_
          rcases List.mem_cons.1 hmem with rfl | hmem
          · exact hd
          · exact hnone d' hmem
        · exact Or.inr ⟨d :: newer, last, hlast.cons hd⟩

end

/-! ## Values -/

/-- A deed that changes the value under a key. -/
def Deed.Writes (key : String) (d : Deed) : Prop :=
  d.call.Writes key

section

variable {deeds newer : List Deed} {s : LocalStore} {now : Nat} {key : String}

/-- A key that nobody wrote has no value. -/
theorem valueUnder_of_none (h : ∀ d ∈ deeds, ¬ d.Writes key) : valueUnder key deeds = none := by
  induction deeds with
  | nil => rfl
  | cons d deeds ih =>
      rw [valueUnder_cons_of_not_writes (h d List.mem_cons_self)]
      exact ih fun d' hd' => h d' (List.mem_cons_of_mem _ hd')

/-- The last call that wrote under a key decides what is found there. -/
theorem valueUnder_of_latest {d : Deed} (h : Latest (Deed.Writes key) deeds newer d) :
    valueUnder key deeds = valueUnder key [d] := by
  rcases h with ⟨⟨older, rfl⟩, hwrites, hlast⟩
  induction newer with
  | nil =>
      rcases d with ⟨t, call, answer⟩
      cases call with
      | set k value ttl =>
          have hk : k = key := hwrites
          simp [valueUnder, hk]
      | delete k =>
          have hk : k = key := hwrites
          simp [valueUnder, hk]
      | _ => exact hwrites.elim
  | cons e newer ih =>
      rw [List.cons_append, valueUnder_cons_of_not_writes (hlast e List.mem_cons_self)]
      exact ih fun d' hd' => hlast d' (List.mem_cons_of_mem _ hd')

/-- A value is found if it was written last and has not expired. -/
theorem Ran.get_eq_some_iff (h : Ran deeds s now) (value : Bytes) :
    s.get now key = some value ↔ ∃ newer t ttl answer,
      Latest (Deed.Writes key) deeds newer ⟨t, .set key value ttl, answer⟩ ∧
        now < t + ttl.nanos := by
  rw [h.get_eq (Nat.le_refl now)]
  constructor
  · intro hfound
    rcases latest_or_none (Deed.Writes key) deeds with hnone | ⟨newer, d, hlatest⟩
    · simp [valueUnder_of_none hnone] at hfound
    · rw [valueUnder_of_latest hlatest] at hfound
      have hwrites := hlatest.holds
      rcases d with ⟨t, call, answer⟩
      cases call with
      | set k written ttl =>
          have hk : k = key := hwrites
          subst hk
          by_cases hlive : now < t + ttl.nanos
          · have hvalue : written = value := by
              simpa [valueUnder, ValueEntry.at, hlive] using hfound
            subst hvalue
            exact ⟨newer, t, ttl, answer, hlatest, hlive⟩
          · simp [valueUnder, ValueEntry.at, hlive] at hfound
      | delete k =>
          have hk : k = key := hwrites
          simp [valueUnder, hk] at hfound
      | _ => exact hwrites.elim
  · rintro ⟨newer, t, ttl, answer, hlatest, hlive⟩
    rw [valueUnder_of_latest hlatest]
    simp [valueUnder, ValueEntry.at, hlive]

end

/-! ## Locks -/

/-- A deed that takes the lock under a key. -/
def Deed.TakesLock (key : String) (d : Deed) : Prop :=
  ∃ ttl token, d.Takes key ttl token

/-- The lock under a key was taken under the token, and by no one else since. -/
def LastTaken (key : String) (deeds : List Deed) (token : Token) : Prop :=
  ∃ newer d ttl, Latest (Deed.TakesLock key) deeds newer d ∧ d.Takes key ttl token

/-- The lock under a key was never taken, or who took it last has released it
under its token or let it expire. -/
def IsFree (key : String) (deeds : List Deed) (now : Nat) : Prop :=
  (∀ d ∈ deeds, ¬ d.TakesLock key) ∨
  ∃ newer d ttl token, Latest (Deed.TakesLock key) deeds newer d ∧ d.Takes key ttl token ∧
    ((∃ r ∈ newer, r.call = .releaseLock key token) ∨ d.time + ttl.nanos ≤ now)

section

variable {deeds newer : List Deed} {d : Deed} {s : LocalStore} {now : Nat} {key : String}
  {ttl : Span} {token : Token}

/-- A lock that was taken is held until its time to live is over. -/
theorem lockUnder_cons_of_takes (h : d.Takes key ttl token) (older : List Deed) :
    lockUnder key (d :: older) = some ⟨token, d.time + ttl.nanos⟩ := by
  simp [lockUnder, h.call, h.answer]

/-- A release lets go of the lock, if it has its token. -/
theorem lockUnder_cons_of_release (h : d.call = .releaseLock key token) (older : List Deed) :
    lockUnder key (d :: older) = (lockUnder key older).filter (·.token ≠ token) := by
  simp [lockUnder, h]

/-- A deed that neither takes nor releases a lock leaves it. -/
theorem lockUnder_cons_of_neither (htakes : ¬ d.TakesLock key)
    (hreleases : ∀ token, d.call ≠ .releaseLock key token) (older : List Deed) :
    lockUnder key (d :: older) = lockUnder key older := by
  rcases d with ⟨t, call, answer⟩
  cases call with
  | acquireLock k ttl =>
      cases answer with
      | token given =>
          cases given with
          | none => rfl
          | some token =>
              have hk : ¬ k = key := by
                rintro rfl
                exact htakes ⟨ttl, token, rfl, rfl⟩
              simp [lockUnder, hk]
      | _ => rfl
  | releaseLock k token =>
      have hk : ¬ k = key := by
        rintro rfl
        exact hreleases token rfl
      simp [lockUnder, hk]
  | _ => rfl

/-- A lock that nobody took is not held. -/
theorem lockUnder_of_none (h : ∀ d ∈ deeds, ¬ d.TakesLock key) : lockUnder key deeds = none := by
  induction deeds with
  | nil => rfl
  | cons d deeds ih =>
      have hbefore := ih fun d' hd' => h d' (List.mem_cons_of_mem _ hd')
      by_cases hrelease : ∃ token, d.call = .releaseLock key token
      · rcases hrelease with ⟨token, hcall⟩
        simp [lockUnder_cons_of_release hcall, hbefore]
      · rw [lockUnder_cons_of_neither (h d List.mem_cons_self) (not_exists.1 hrelease), hbefore]

/-- A lock is held by who took it last, until it is released under that token. -/
theorem lockUnder_of_latest (h : Latest (Deed.TakesLock key) deeds newer d)
    (htakes : d.Takes key ttl token) :
    lockUnder key deeds =
      if ∃ r ∈ newer, r.call = .releaseLock key token then none
      else some ⟨token, d.time + ttl.nanos⟩ := by
  rcases h with ⟨⟨older, rfl⟩, _, hlast⟩
  induction newer with
  | nil => simp [lockUnder_cons_of_takes htakes]
  | cons e newer ih =>
      have hbefore := ih fun d' hd' => hlast d' (List.mem_cons_of_mem _ hd')
      rw [List.cons_append]
      by_cases hrelease : ∃ token', e.call = .releaseLock key token'
      · rcases hrelease with ⟨token', hcall⟩
        rw [lockUnder_cons_of_release hcall, hbefore]
        by_cases htoken : token' = token
        · by_cases hearlier : ∃ r ∈ newer, r.call = .releaseLock key token <;>
            simp [hcall, htoken, hearlier, Option.filter]
        · have hother : ¬ token = token' := fun heq => htoken heq.symm
          by_cases hearlier : ∃ r ∈ newer, r.call = .releaseLock key token <;>
            simp [hcall, htoken, hother, hearlier, Option.filter]
      · have hne := not_exists.1 hrelease
        rw [lockUnder_cons_of_neither (hlast e List.mem_cons_self) hne, hbefore]
        simp [hne token]

/-- A lock is free as its last holder left it. -/
theorem Ran.heldAt_eq_none_iff (h : Ran deeds s now) :
    s.heldAt now key = none ↔ IsFree key deeds now := by
  rw [h.heldAt_eq (Nat.le_refl now)]
  constructor
  · intro hfree
    rcases latest_or_none (Deed.TakesLock key) deeds with hnone | ⟨newer, d, hlatest⟩
    · exact Or.inl hnone
    · rcases hlatest.holds with ⟨ttl, token, htakes⟩
      refine Or.inr ⟨newer, d, ttl, token, hlatest, htakes, ?_⟩
      rw [lockUnder_of_latest hlatest htakes] at hfree
      by_cases hreleased : ∃ r ∈ newer, r.call = .releaseLock key token
      · exact Or.inl hreleased
      · rw [if_neg hreleased] at hfree
        have hexpired : ¬ now < d.time + ttl.nanos := by simpa [Option.filter] using hfree
        exact Or.inr (Nat.le_of_not_lt hexpired)
  · rintro (hnone | ⟨newer, d, ttl, token, hlatest, htakes, hreleased | hexpired⟩)
    · rw [lockUnder_of_none hnone]
      rfl
    · rw [lockUnder_of_latest hlatest htakes, if_pos hreleased]
      rfl
    · have hpast : ¬ now < d.time + ttl.nanos := Nat.not_lt_of_le hexpired
      rw [lockUnder_of_latest hlatest htakes]
      split <;> simp [Option.filter, hpast]

/-- Who holds the lock took it last. -/
theorem lastTaken_of_lockUnder {held : HeldLock} (h : lockUnder key deeds = some held) :
    LastTaken key deeds held.token := by
  rcases latest_or_none (Deed.TakesLock key) deeds with hnone | ⟨newer, d, hlatest⟩
  · simp [lockUnder_of_none hnone] at h
  · rcases hlatest.holds with ⟨ttl, token, htakes⟩
    rw [lockUnder_of_latest hlatest htakes] at h
    split at h
    · cases h
    · cases h
      exact ⟨newer, d, ttl, hlatest, htakes⟩

end

/-! ## The table of locks -/

section

variable {deeds past past' : List Deed} {d d' r : Deed} {s : LocalStore} {now : Nat}
  {key key' : String} {ttl ttl' : Span} {token : Token} {held : HeldLock}

/-- A release takes no lock out of the table that is held under another token. -/
theorem LocalStore.lookup_release_of_ne (h : s.locks.lookup key' = some held)
    (htoken : held.token ≠ token) : (s.release key token).locks.lookup key' = some held := by
  unfold release
  cases hlock : s.locks.lookup key with
  | none => exact h
  | some other =>
      by_cases hother : other.token = token
      · have hkey : key' ≠ key := by
          rintro rfl
          rw [h, Option.some.injEq] at hlock
          exact htoken (hlock ▸ hother)
        simp [hother, Table.lookup_erase_of_ne _ hkey, h]
      · simp [hother, h]

/-- What a release leaves in the table was there before, and not under its token. -/
theorem LocalStore.lookup_of_release (h : (s.release key token).locks.lookup key' = some held) :
    s.locks.lookup key' = some held ∧ (key = key' → held.token ≠ token) := by
  unfold release at h
  cases hlock : s.locks.lookup key with
  | none =>
      rw [hlock] at h
      refine ⟨h, ?_⟩
      rintro rfl
      exact nomatch hlock.symm.trans h
  | some other =>
      rw [hlock] at h
      by_cases hother : other.token = token
      · simp only [hother, if_true] at h
        by_cases hkey : key' = key
        · rw [hkey, Table.lookup_erase_self] at h
          exact nomatch h
        · rw [Table.lookup_erase_of_ne _ hkey] at h
          exact ⟨h, fun heq => absurd heq.symm hkey⟩
      · simp only [hother, if_false] at h
        refine ⟨h, ?_⟩
        rintro rfl
        rw [h, Option.some.injEq] at hlock
        exact hlock ▸ hother

/-- What the table holds the deeds say, also after it has expired. -/
theorem Ran.lockUnder_of_lookup (h : Ran deeds s now) (hlookup : s.locks.lookup key = some held) :
    lockUnder key deeds = some held := by
  induction h with
  | start now => exact nomatch hlookup
  | elapse _ _ ih => exact ih hlookup
  | purge hran ih =>
      simp only [LocalStore.purge] at hlookup
      rw [Table.lookup_keep hran.distinct.locks] at hlookup
      exact ih (Option.filter_eq_some_iff.1 hlookup).1
  | @perform deeds s now fresh call answer s' hran hfresh hdone ih =>
      cases call with
      | get k =>
          rw [(LocalStore.perform_get hdone).2] at hlookup
          exact ih hlookup
      | set k value ttl =>
          rw [(LocalStore.perform_set hdone).2] at hlookup
          exact ih hlookup
      | delete k =>
          rw [(LocalStore.perform_delete hdone).2] at hlookup
          exact ih hlookup
      | acquireLock k ttl =>
          rcases LocalStore.perform_acquire hdone with ⟨_, rfl, rfl⟩ | ⟨_, rfl, rfl⟩
          · simp only [lockUnder]
            by_cases hk : k = key
            · rw [hk, Table.lookup_insert_self] at hlookup
              rw [if_pos hk]
              exact hlookup
            · rw [Table.lookup_insert_of_ne _ _ (Ne.symm hk)] at hlookup
              rw [if_neg hk]
              exact ih hlookup
          · exact ih hlookup
      | releaseLock k token =>
          rw [(LocalStore.perform_release hdone).2] at hlookup
          rcases LocalStore.lookup_of_release hlookup with ⟨hbefore, hother⟩
          simp only [lockUnder, ih hbefore]
          by_cases hk : k = key
          · simp [hk, Option.filter, hother hk]
          · rw [if_neg hk]
      | recordInWindow k stamp window limit ttl =>
          rcases LocalStore.perform_record hdone with ⟨entry, rfl⟩
          exact ih hlookup
      | countInWindow k stamp window =>
          rw [(LocalStore.perform_count hdone).2] at hlookup
          exact ih hlookup

/-- Two deeds that took a lock under one token are the same. -/
theorem Ran.same_deed (h : Ran deeds s now) (hd : d :: past <:+ deeds) (hd' : d' :: past' <:+ deeds)
    (htakes : d.Takes key ttl token) (htakes' : d'.Takes key' ttl' token) : d = d' ∧ past = past' := by
  have hlater : ∀ {e e' : Deed} {older older' : List Deed} {k k' : String} {t t' : Span},
      e :: older <:+ deeds → e' :: older' <:+ older → e.Takes k t token → e'.Takes k' t' token →
        False := by
    intro e e' older older' k k' t t' he he' htakes htakes'
    exact h.token_ne he (List.IsSuffix.mem List.mem_cons_self he') htakes' htakes rfl
  rcases List.suffix_or_suffix_of_suffix hd hd' with hs | hs
  · rcases List.suffix_cons_iff.1 hs with heq | hbehind
    · exact List.cons.inj heq
    · exact (hlater hd' hbehind htakes' htakes).elim
  · rcases List.suffix_cons_iff.1 hs with heq | hbehind
    · rcases List.cons.inj heq with ⟨hsame, hpast⟩
      exact ⟨hsame.symm, hpast.symm⟩
    · exact (hlater hd hbehind htakes htakes').elim

/-- A token whose lock was released is not in the table any more. -/
theorem Ran.not_held_of_released (h : Ran deeds s now) (hr : r :: past' <:+ deeds)
    (hd : d :: past <:+ past') (htakes : d.Takes key ttl token)
    (hrelease : r.call = .releaseLock key token) (hlookup : s.locks.lookup key' = some held) :
    held.token ≠ token := by
  rintro rfl
  have hunder := h.lockUnder_of_lookup hlookup
  rcases lastTaken_of_lockUnder hunder with ⟨newer, d', ttl', hlatest, htakes'⟩
  rcases hlatest.split with ⟨older, hdeeds⟩
  have hbehind : past' <:+ deeds := (List.suffix_cons _ _).trans hr
  rcases h.same_deed (hd.trans hbehind) ⟨newer, hdeeds.symm⟩ htakes htakes' with ⟨rfl, rfl⟩
  have hkey : key = key' := (Call.acquireLock.inj (htakes.call.symm.trans htakes'.call)).1
  subst hkey
  -- The release came after the lock was taken for the last time.
  have hnewer : r ∈ newer := by
    rcases hr with ⟨front, hfront⟩
    rcases hd with ⟨middle, hmiddle⟩
    have hparts : (front ++ r :: middle) ++ d :: past = newer ++ d :: past := by
      rw [← hdeeds, ← hfront, ← hmiddle]
      simp
    rw [← List.append_cancel_right hparts]
    simp
  rw [lockUnder_of_latest hlatest htakes', if_pos ⟨r, hnewer, hrelease⟩] at hunder
  exact nomatch hunder

end

/-! ## What changes an answer -/

/-- Whether a deed takes the lock under a key or frees it: it is not refused the
lock, or it names the token that the lock was taken under last. -/
def Deed.MovesLock (key : String) (deeds : List Deed) (d : Deed) : Prop :=
  match d.call with
  | .acquireLock k _ => k = key ∧ d.answer ≠ .token none
  | .releaseLock k token => k = key ∧ LastTaken key deeds token
  | _ => False

/-- What a store answers to a call. -/
def LocalStore.answer (s : LocalStore) (now : Nat) (fresh : Token) (call : Call) :
    Except Overflow Answer :=
  (s.perform now fresh call).map (·.1)

section

variable {deeds : List Deed} {d : Deed} {s s' : LocalStore} {now t : Nat} {key : String}

/-- A deed that does not move a lock leaves it. -/
theorem lockUnder_cons_of_not_moves (h : ¬ d.MovesLock key deeds) :
    lockUnder key (d :: deeds) = lockUnder key deeds := by
  by_cases hrelease : ∃ token, d.call = .releaseLock key token
  · rcases hrelease with ⟨token, hcall⟩
    rw [lockUnder_cons_of_release hcall]
    cases hheld : lockUnder key deeds with
    | none => rfl
    | some held =>
        have hother : held.token ≠ token := by
          intro htoken
          apply h
          simp only [Deed.MovesLock, hcall, true_and]
          exact htoken ▸ lastTaken_of_lockUnder hheld
        simp [Option.filter, hother]
  · refine lockUnder_cons_of_neither ?_ (not_exists.1 hrelease) deeds
    rintro ⟨ttl, token, htakes⟩
    apply h
    simp [Deed.MovesLock, htakes.call, htakes.answer]

/-- Stores that find the same under a key answer the same to a look-up. -/
theorem answer_get_congr (h : s'.get t key = s.get t key) (fresh : Token) :
    s'.answer t fresh (.get key) = s.answer t fresh (.get key) := by
  simp [LocalStore.answer, LocalStore.perform, Except.map, h]

/-- Stores in which a lock is free alike answer the same to who wants it. -/
theorem answer_acquire_congr (h : s'.heldAt t key = s.heldAt t key) (fresh : Token) (ttl : Span) :
    s'.answer t fresh (.acquireLock key ttl) = s.answer t fresh (.acquireLock key ttl) := by
  unfold LocalStore.answer
  rw [LocalStore.perform_acquire_eq, LocalStore.perform_acquire_eq, h]
  cases expiry t ttl with
  | error overflow => rfl
  | ok expiresAt => cases s.heldAt t key <;> rfl

/-- A lock is taken with the fresh token if it is free. -/
theorem Ran.answer_acquire {ttl : Span} (h : Ran deeds s now)
    (hend : now + ttl.nanos < Moment.bound) (fresh : Token) :
    ∃ token, s.answer now fresh (.acquireLock key ttl) = .ok (.token token) ∧
      (token = some fresh ∨ token = none) ∧ (token = some fresh ↔ IsFree key deeds now) := by
  rw [← h.heldAt_eq_none_iff]
  unfold LocalStore.answer
  rw [LocalStore.perform_acquire_eq, expiry_ok hend]
  cases s.heldAt now key with
  | none => exact ⟨some fresh, rfl, by simp, by simp⟩
  | some held => exact ⟨none, rfl, by simp, by simp⟩

/-- Look-ups find the value that was written last under their key, unless it has
expired.  Attempts to take a lock succeed, with the fresh token, if it is free.  Of
the calls that a store carries out, only those that write under a key change what
is found there, and only those that move a lock change who can take it; purges
change neither. -/
theorem Ran.refines_expiring_maps (h : Ran deeds s now) (key : String) (fresh : Token) :
    (∃ found, s.answer now fresh (.get key) = .ok (.value found) ∧
      ∀ value, found = some value ↔ ∃ newer t ttl answer,
        Latest (Deed.Writes key) deeds newer ⟨t, .set key value ttl, answer⟩ ∧
          now < t + ttl.nanos) ∧
    (∀ ttl, now + ttl.nanos < Moment.bound →
      ∃ token, s.answer now fresh (.acquireLock key ttl) = .ok (.token token) ∧
        (token = some fresh ∨ token = none) ∧ (token = some fresh ↔ IsFree key deeds now)) ∧
    (∀ call answer s' drawn, (∀ d ∈ deeds, d.answer ≠ .token (some drawn)) →
      s.perform now drawn call = .ok (answer, s') → ∀ later, now ≤ later →
      (¬ call.Writes key → s'.answer later fresh (.get key) = s.answer later fresh (.get key)) ∧
      (¬ Deed.MovesLock key deeds ⟨now, call, answer⟩ → ∀ ttl,
        s'.answer later fresh (.acquireLock key ttl) =
          s.answer later fresh (.acquireLock key ttl))) ∧
    (∀ later, now ≤ later →
      (s.purge now).answer later fresh (.get key) = s.answer later fresh (.get key) ∧
      ∀ ttl, (s.purge now).answer later fresh (.acquireLock key ttl) =
        s.answer later fresh (.acquireLock key ttl)) := by
  refine ⟨⟨_, rfl, fun value => h.get_eq_some_iff value⟩, fun ttl hend => h.answer_acquire hend fresh,
    ?_, ?_⟩
  · intro call answer s' drawn hfresh hdone later hlater
    have hnext := h.perform hfresh hdone
    constructor
    · intro hwrites
      apply answer_get_congr
      rw [hnext.get_eq hlater, h.get_eq hlater, valueUnder_cons_of_not_writes hwrites]
    · intro hmoves ttl
      apply answer_acquire_congr
      rw [hnext.heldAt_eq hlater, h.heldAt_eq hlater, lockUnder_cons_of_not_moves hmoves]
  · intro later hlater
    have hdistinct := h.distinct
    exact ⟨answer_get_congr (LocalStore.get_purge hdistinct.values hlater key) fresh,
      answer_acquire_congr (LocalStore.heldAt_purge hdistinct.locks hlater key) fresh⟩

end

/-! ## A lock that is taken over -/

/-- A lock that has expired is taken over, and its first holder releases it late. -/
def takeover : List Deed :=
  [⟨20, .releaseLock "k" (.issued 1), .done⟩,
    ⟨20, .acquireLock "k" ⟨10⟩, .token (some (.issued 2))⟩,
    ⟨0, .acquireLock "k" ⟨10⟩, .token (some (.issued 1))⟩,
    ⟨0, .set "k" [1] ⟨100⟩, .done⟩]

/-- The store that carried it out. -/
def takeoverStore : LocalStore :=
  ⟨⟨[("k", ⟨[1], 100⟩)]⟩, ⟨[("k", ⟨.issued 2, 30⟩)]⟩, .empty⟩

/-- The example is a history of its store. -/
theorem takeover_ran {later : Nat} (h : 20 ≤ later) : Ran takeover takeoverStore later := by
  have hset := @Ran.perform _ _ _ (.issued 0) (.set "k" [1] ⟨100⟩) _ _ (Ran.start 0) (by simp) rfl
  have hfirst := @Ran.perform _ _ _ (.issued 1) (.acquireLock "k" ⟨10⟩) _ _ hset (by simp) rfl
  have hlater := hfirst.elapse (Nat.zero_le 20)
  have hsecond := @Ran.perform _ _ _ (.issued 2) (.acquireLock "k" ⟨10⟩) _ _ hlater (by simp) rfl
  have hlate := @Ran.perform _ _ _ (.issued 3) (.releaseLock "k" (.issued 1)) _ _ hsecond (by simp)
    rfl
  exact hlate.elapse h

/-- When the second holder's time is up too, the value is still found and the lock
is free, and a delete then takes the value away but not the lock. -/
theorem takeover_expires :
    Ran takeover takeoverStore 35 ∧
      takeoverStore.answer 35 (.issued 4) (.get "k") = .ok (.value (some [1])) ∧
      takeoverStore.answer 35 (.issued 4) (.acquireLock "k" ⟨10⟩) =
        .ok (.token (some (.issued 4))) ∧
      (takeoverStore.delete "k").answer 35 (.issued 4) (.acquireLock "k" ⟨10⟩) =
        .ok (.token (some (.issued 4))) := by
  have hran : Ran takeover takeoverStore 35 := takeover_ran (by decide)
  rcases hran.refines_expiring_maps "k" (.issued 4) with
    ⟨⟨found, hget, hfound⟩, hacquire, hcalls, _⟩
  have hset : Latest (Deed.Writes "k") takeover _ ⟨0, .set "k" [1] ⟨100⟩, .done⟩ :=
    .cons (.cons (.cons (.head rfl) nofun) nofun) nofun
  have hlast : Latest (Deed.TakesLock "k") takeover _
      ⟨20, .acquireLock "k" ⟨10⟩, .token (some (.issued 2))⟩ :=
    .cons (.head ⟨⟨10⟩, .issued 2, rfl, rfl⟩) nofun
  have hvalue : found = some [1] := (hfound [1]).2 ⟨_, _, _, _, hset, by decide⟩
  rcases hacquire ⟨10⟩ (by decide) with ⟨token, htoken, _, hfree⟩
  have htaken : token = some (.issued 4) :=
    hfree.2 (Or.inr ⟨_, _, ⟨10⟩, .issued 2, hlast, ⟨rfl, rfl⟩, Or.inr (by decide)⟩)
  have hdelete := (hcalls (.delete "k") .done (takeoverStore.delete "k") (.issued 5) (by simp [takeover])
    rfl 35 (Nat.le_refl 35)).2 nofun ⟨10⟩
  rw [htaken] at htoken
  exact ⟨hran, hvalue ▸ hget, htoken, hdelete.trans htoken⟩

end Turnstile.Store

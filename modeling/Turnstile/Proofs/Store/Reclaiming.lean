import Mathlib.Data.List.Induction
import Turnstile.Proofs.Store.Purging

/-!
# What purges give back

A store keeps something under a key for as long as a call asks for, and a purge gives
back what has been kept for that long.  There is one exception.  A request that is
recorded under a limit of none is refused before its window gets an end, so where the
key had no window it has one without an end from then on.  No purge gives that back: it
stays until its key is deleted or a request is admitted under it.

Main results:

- Theorem `LocalStore.ends_perform`: whatever a store keeps has an end that some call
  asked for.
- Theorem `LocalStore.bare_perform`: how a window gets to have no end, and how it gets
  one.
- Theorem `purge_leaves_stranded`: at any time a purge keeps what has not ended and the
  windows that are stranded; once every end has passed, it leaves these windows only.
- Theorem `refused_window_stays`: a window that no purge gives back.
-/

namespace Turnstile.Store

/-! ## Entries of tables -/

namespace Table

variable {α : Type} {t : Table α} {key : String} {entry : α} {e : String × α}

/-- What a look-up finds is an entry. -/
theorem mem_of_lookup (h : t.lookup key = some entry) : (key, entry) ∈ t.entries := by
  rcases Option.map_eq_some_iff.1 h with ⟨⟨k, found⟩, hfound, rfl⟩
  have hkey : k = key := by simpa using List.find?_some hfound
  rw [← hkey]
  exact List.mem_of_find?_eq_some hfound

/-- What remains after an entry was erased was there before. -/
theorem mem_of_mem_erase (h : e ∈ (t.erase key).entries) : e ∈ t.entries :=
  (List.mem_filter.1 h).1

/-- What is there after an insertion is what was inserted or was there before. -/
theorem mem_of_mem_insert (h : e ∈ (t.insert key entry).entries) :
    e = (key, entry) ∨ e ∈ t.entries := by
  rcases List.mem_cons.1 h with heq | hmem
  · exact .inl heq
  · exact .inr (mem_of_mem_erase hmem)

/-- What is kept was there and passes the test. -/
theorem mem_keep {test : α → Bool} :
    e ∈ (t.keep test).entries ↔ e ∈ t.entries ∧ test e.2 = true :=
  List.mem_filter

/-- Where nothing passes the test nothing is kept. -/
theorem keep_eq_empty {test : α → Bool} (h : ∀ e ∈ t.entries, test e.2 = false) :
    t.keep test = empty := by
  have hnone : t.entries.filter (fun e => test e.2) = [] :=
    List.filter_eq_nil_iff.2 fun e he => by simp [h e he]
  rw [keep, hnone]
  rfl

/-- A table under whose keys there is nothing is empty. -/
theorem eq_empty_of_lookup (h : ∀ key, t.lookup key = none) : t = empty := by
  rcases t with ⟨entries⟩
  cases entries with
  | nil => rfl
  | cons e entries =>
      have hfound := h e.1
      simp [lookup] at hfound

end Table

/-! ## Where a run leads -/

/-- What a step makes of a store with upkeep, unless it is a call that overflows. -/
def Attended.step (a : Attended) : Step → Except Overflow Attended
  | .interlude i => .ok (a.pass i)
  | .call fresh call => (a.store.perform a.now fresh call).map fun r => { a with store := r.2 }

/-- Where a run leads, unless one of its calls overflows. -/
def Attended.after (a : Attended) : List Step → Except Overflow Attended
  | [] => .ok a
  | step :: rest =>
      match a.step step with
      | .error overflow => .error overflow
      | .ok b => b.after rest

namespace Attended

variable {a b c : Attended} {steps : List Step} {step : Step}

/-- Steps are made one after the other. -/
theorem after_cons : a.after (step :: steps) = .ok c ↔
    ∃ b, a.step step = .ok b ∧ b.after steps = .ok c := by
  rw [after]
  cases a.step step with
  | error overflow => simp
  | ok b => simp

/-- A run goes on where it has led. -/
theorem after_concat : a.after (steps ++ [step]) = .ok c ↔
    ∃ b, a.after steps = .ok b ∧ b.step step = .ok c := by
  induction steps generalizing a with
  | nil =>
      rw [List.nil_append, after_cons]
      simp [after]
  | cons first steps ih =>
      rw [List.cons_append, after_cons]
      simp only [after_cons, ih]
      constructor
      · rintro ⟨b, hfirst, d, hsteps, hstep⟩
        exact ⟨d, ⟨b, hfirst, hsteps⟩, hstep⟩
      · rintro ⟨d, ⟨b, hfirst, hsteps⟩, hstep⟩
        exact ⟨b, hfirst, d, hsteps, hstep⟩

/-- A step that is a call is one that the store carries out. -/
theorem step_call {fresh : Token} {call : Call} (h : a.step (.call fresh call) = .ok b) :
    ∃ answer s', a.store.perform a.now fresh call = .ok (answer, s') ∧
      b = { a with store := s' } := by
  unfold step at h
  cases hdone : a.store.perform a.now fresh call with
  | error overflow => simp [hdone, Except.map] at h
  | ok r =>
      simp only [hdone, Except.map, Except.ok.injEq] at h
      exact ⟨r.1, r.2, rfl, h.symm⟩

/-- An interlude moves the clock by its length. -/
theorem now_pass (a : Attended) (i : Interlude) : (a.pass i).now = a.now + i.nanos := by
  rcases a with ⟨store, now, sweeper⟩
  cases i with
  | elapse span => cases sweeper <;> rfl
  | _ => rfl

/-- Between two calls a store is purged or left alone. -/
theorem store_pass (a : Attended) (i : Interlude) :
    (a.pass i).store = a.store ∨ ∃ moment, (a.pass i).store = a.store.purge moment := by
  rcases a with ⟨store, now, sweeper⟩
  cases i with
  | elapse span =>
      cases sweeper with
      | none => exact .inl rfl
      | some sweeper =>
          simp only [pass, Sweeper.run]
          split
          · exact .inr ⟨_, rfl⟩
          · exact .inl rfl
  | purge => exact .inr ⟨now, rfl⟩
  | startSweeper every => exact .inl rfl
  | stopSweeper => exact .inl rfl

/-- The calls of a run are those of its beginning and of what comes then. -/
theorem visits_concat (h : a.after steps = .ok b) (step : Step) :
    visits a.now (steps ++ [step]) = visits a.now steps ++ visits b.now [step] := by
  induction steps generalizing a with
  | nil =>
      rw [Except.ok.inj h]
      rfl
  | cons first steps ih =>
      rcases after_cons.1 h with ⟨c, hfirst, hrest⟩
      cases first with
      | interlude i =>
          have hnow : c.now = a.now + i.nanos := by
            rw [← Except.ok.inj hfirst, now_pass]
          simp only [List.cons_append, visits, ← hnow, ih hrest]
      | call fresh call =>
          rcases step_call hfirst with ⟨_, _, _, rfl⟩
          have hrest := ih hrest
          simp only [List.cons_append, visits, hrest]

end Attended

/-! ## Ends -/

/-- The span for which a call asks something to be kept. -/
def Call.ttl? : Call → Option Span
  | .set _ _ ttl => some ttl
  | .acquireLock _ ttl => some ttl
  | .recordInWindow _ _ _ _ ttl => some ttl
  | _ => none

/-- A call asks for something to be kept until a reading of the clock. -/
def Visit.KeepsUntil (v : Visit) (moment : Nat) : Prop :=
  ∃ ttl, v.call.ttl? = some ttl ∧ moment = v.time + ttl.nanos

/-- The clock has passed the end of all that the calls of a run asked to be kept. -/
def Idle (now : Nat) (steps : List Step) (later : Nat) : Prop :=
  ∀ v ∈ visits now steps, ∀ moment, v.KeepsUntil moment → moment ≤ later

namespace LocalStore

/-- Some entry of a store is kept until a reading of the clock. -/
inductive Ends (s : LocalStore) (moment : Nat) : Prop where
  | value {key : String} {entry : ValueEntry} (h : (key, entry) ∈ s.values.entries)
      (hend : entry.expiresAt = moment)
  | lock {key : String} {held : HeldLock} (h : (key, held) ∈ s.locks.entries)
      (hend : held.expiresAt = moment)
  | window {key : String} {w : RateWindow} (h : (key, w) ∈ s.windows.entries)
      (hend : w.expiresAt = some moment)

variable {s s' : LocalStore} {now moment : Nat} {fresh : Token} {answer : Answer} {key : String}

/-- What ends in a store whose entries are among those of another one ends there. -/
theorem Ends.mono (h : s'.Ends moment) (hvalues : s'.values.entries ⊆ s.values.entries)
    (hlocks : s'.locks.entries ⊆ s.locks.entries)
    (hwindows : s'.windows.entries ⊆ s.windows.entries) : s.Ends moment := by
  cases h with
  | value h hend => exact .value (hvalues h) hend
  | lock h hend => exact .lock (hlocks h) hend
  | window h hend => exact .window (hwindows h) hend

/-- A purge gives nothing a new end. -/
theorem ends_purge (h : (s.purge now).Ends moment) : s.Ends moment :=
  h.mono (fun _ he => (Table.mem_keep.1 he).1) (fun _ he => (Table.mem_keep.1 he).1)
    (fun _ he => (Table.mem_keep.1 he).1)

/-- What ends at a moment after a release did so before. -/
theorem ends_release {token : Token} (h : (s.release key token).Ends moment) : s.Ends moment := by
  unfold release at h
  split at h
  · split at h
    · exact h.mono (fun _ he => he) (fun _ he => Table.mem_of_mem_erase he) (fun _ he => he)
    · exact h
  · exact h

/-- What is written ends when it is said to, and everything else when it did. -/
theorem ends_insert_value {entry : ValueEntry}
    (h : Ends { s with values := s.values.insert key entry } moment) :
    s.Ends moment ∨ entry.expiresAt = moment := by
  cases h with
  | value h hend =>
      rcases Table.mem_of_mem_insert h with heq | hmem
      · rcases heq with ⟨rfl, rfl⟩
        exact .inr hend
      · exact .inl (.value hmem hend)
  | lock h hend => exact .inl (.lock h hend)
  | window h hend => exact .inl (.window h hend)

/-- A lock that is taken ends when it is said to, and everything else when it did. -/
theorem ends_insert_lock {held : HeldLock}
    (h : Ends { s with locks := s.locks.insert key held } moment) :
    s.Ends moment ∨ held.expiresAt = moment := by
  cases h with
  | value h hend => exact .inl (.value h hend)
  | lock h hend =>
      rcases Table.mem_of_mem_insert h with heq | hmem
      · rcases heq with ⟨rfl, rfl⟩
        exact .inr hend
      · exact .inl (.lock hmem hend)
  | window h hend => exact .inl (.window h hend)

/-- So does a window that is put. -/
theorem ends_insert_window {w : RateWindow}
    (h : Ends { s with windows := s.windows.insert key w } moment) :
    s.Ends moment ∨ w.expiresAt = some moment := by
  cases h with
  | value h hend => exact .inl (.value h hend)
  | lock h hend => exact .inl (.lock h hend)
  | window h hend =>
      rcases Table.mem_of_mem_insert h with heq | hmem
      · rcases heq with ⟨rfl, rfl⟩
        exact .inr hend
      · exact .inl (.window hmem hend)

/-- A window that is written has the end that it had, or one that the call asks for. -/
theorem ends_record {stamp : Int} {window ttl : Span} {limit : Nat}
    (h : s.perform now fresh (.recordInWindow key stamp window limit ttl) = .ok (answer, s'))
    (hends : s'.Ends moment) : s.Ends moment ∨ moment = now + ttl.nanos := by
  rcases perform_record_cases h with ⟨_, _, entry, hentry, rfl⟩ | ⟨_, stamps, _, _, rfl⟩
  · rcases ends_insert_window hends with hold | hend
    · exact .inl hold
    · -- The window of a refused request keeps the end that it had, if there was one.
      rw [← hentry] at hend
      cases hlookup : s.windows.lookup key with
      | none =>
          rw [hlookup] at hend
          exact nomatch hend
      | some w =>
          rw [hlookup] at hend
          exact .inl (.window (Table.mem_of_lookup hlookup) hend)
  · rcases ends_insert_window hends with hold | hend
    · exact .inl hold
    · exact .inr (Option.some.inj hend).symm

/-- After a call everything has the end that it had, or one that the call asks for. -/
theorem ends_perform {call : Call} (h : s.perform now fresh call = .ok (answer, s'))
    (hends : s'.Ends moment) : s.Ends moment ∨ Visit.KeepsUntil ⟨now, fresh, call⟩ moment := by
  cases call with
  | get key =>
      rw [(perform_get h).2] at hends
      exact .inl hends
  | set key value ttl =>
      rw [(perform_set h).2] at hends
      rcases ends_insert_value hends with hold | hnew
      · exact .inl hold
      · exact .inr ⟨ttl, rfl, hnew.symm⟩
  | delete key =>
      rw [(perform_delete h).2] at hends
      exact .inl (hends.mono (fun _ he => Table.mem_of_mem_erase he) (fun _ he => he)
        (fun _ he => Table.mem_of_mem_erase he))
  | acquireLock key ttl =>
      rcases perform_acquire h with ⟨_, _, rfl⟩ | ⟨_, _, rfl⟩
      · rcases ends_insert_lock hends with hold | hnew
        · exact .inl hold
        · exact .inr ⟨ttl, rfl, hnew.symm⟩
      · exact .inl hends
  | releaseLock key token =>
      rw [(perform_release h).2] at hends
      exact .inl (ends_release hends)
  | recordInWindow key stamp window limit ttl =>
      rcases ends_record h hends with hold | hnew
      · exact .inl hold
      · exact .inr ⟨ttl, rfl, hnew⟩
  | countInWindow key stamp window =>
      rw [(perform_count h).2] at hends
      exact .inl hends

end LocalStore

/-! ## Windows without an end -/

/-- A step gives the window under a key no end: it neither deletes the key nor asks for
room under it with a limit. -/
def Step.GivesNoEnd (key : String) : Step → Prop
  | .call _ (.delete k) => k ≠ key
  | .call _ (.recordInWindow k _ _ limit _) => k = key → limit = 0
  | _ => True

/-- A step that asks for room under a key with a limit of none. -/
def Step.AsksForNone (key : String) (step : Step) : Prop :=
  ∃ fresh stamp window ttl, step = .call fresh (.recordInWindow key stamp window 0 ttl)

/-- A window without an end is under a key: room was asked for under a limit of none
while the key had no window, and nothing has given the window an end since. -/
def Stranded (a : Attended) (steps : List Step) (key : String) : Prop :=
  ∃ before refused later b, steps = before ++ refused :: later ∧ refused.AsksForNone key ∧
    a.after before = .ok b ∧ b.store.windows.lookup key = none ∧
    ∀ step ∈ later, step.GivesNoEnd key

/-- A window is stranded after a step if it was before and gets no end, or if the step
strands it. -/
theorem stranded_concat {a : Attended} {steps : List Step} {step : Step} {key : String} :
    Stranded a (steps ++ [step]) key ↔
      (Stranded a steps key ∧ step.GivesNoEnd key) ∨
      step.AsksForNone key ∧ ∃ b, a.after steps = .ok b ∧ b.store.windows.lookup key = none := by
  constructor
  · rintro ⟨before, refused, later, b, heq, hasks, hafter, hnone, hlater⟩
    rcases List.eq_nil_or_concat later with rfl | ⟨between, last, rfl⟩
    · rcases List.append_inj' heq rfl with ⟨rfl, hlast⟩
      rw [(List.cons.inj hlast).1]
      exact .inr ⟨hasks, b, hafter, hnone⟩
    · rw [List.concat_eq_append] at heq hlater
      rw [← List.cons_append, ← List.append_assoc] at heq
      rcases List.append_inj' heq rfl with ⟨hsteps, hlast⟩
      rw [(List.cons.inj hlast).1]
      refine .inl ⟨⟨before, refused, between, b, hsteps, hasks, hafter, hnone, ?_⟩, ?_⟩
      · intro step hstep
        exact hlater step (List.mem_append_left _ hstep)
      · exact hlater last (by simp)
  · rintro (⟨⟨before, refused, later, b, rfl, hasks, hafter, hnone, hlater⟩, hstep⟩ |
      ⟨hasks, b, hafter, hnone⟩)
    · refine ⟨before, refused, later ++ [step], b, by simp, hasks, hafter, hnone, ?_⟩
      intro other hother
      rcases List.mem_append.1 hother with hlate | hlast
      · exact hlater other hlate
      · rw [List.mem_singleton.1 hlast]
        exact hstep
    · exact ⟨steps, step, [], b, rfl, hasks, hafter, hnone, nofun⟩

namespace LocalStore

/-- There is a window without an end under a key. -/
def Bare (s : LocalStore) (key : String) : Prop :=
  ∃ w, s.windows.lookup key = some w ∧ w.expiresAt = none

/-- A window without an end holds no request. -/
def Blank (s : LocalStore) : Prop :=
  ∀ key w, s.windows.lookup key = some w → w.expiresAt = none → w.stamps = []

variable {s s' : LocalStore} {now : Nat} {fresh : Token} {answer : Answer} {key : String}

/-- Whether a window is bare depends on the windows only. -/
theorem bare_of_windows_eq (h : s'.windows = s.windows) (key : String) :
    s'.Bare key ↔ s.Bare key := by
  rw [Bare, h, Bare]

/-- So does whether all bare windows are without stamps. -/
theorem Blank.of_windows_eq (hs : s.Blank) (h : s'.windows = s.windows) : s'.Blank := by
  intro key w hw hend
  rw [h] at hw
  exact hs key w hw hend

/-- No stamps are under a key without a window, or with a window without an end. -/
theorem stampsAt_eq_nil (hs : s.Blank) (h : s.windows.lookup key = none ∨ s.Bare key) (now : Nat) :
    s.stampsAt now key = [] := by
  unfold stampsAt
  rcases h with hnone | ⟨w, hw, hend⟩
  · rw [hnone]
  · rw [hw]
    simp [hs key w hw hend]

/-- A purge keeps the windows without an end, and takes no end away. -/
theorem bare_purge (hs : s.windows.KeysDistinct) (now : Nat) (key : String) :
    (s.purge now).Bare key ↔ s.Bare key := by
  unfold Bare purge
  simp only [Table.lookup_keep hs, Option.filter_eq_some_iff]
  constructor
  · rintro ⟨w, ⟨hw, _⟩, hend⟩
    exact ⟨w, hw, hend⟩
  · rintro ⟨w, hw, hend⟩
    exact ⟨w, ⟨hw, by simp [RateWindow.isExpired, hend]⟩, hend⟩

/-- Purging keeps bare windows without stamps. -/
theorem Blank.purge (hs : s.Blank) (hdistinct : s.windows.KeysDistinct) (now : Nat) :
    (s.purge now).Blank := by
  intro key w hw hend
  rw [LocalStore.purge, Table.lookup_keep hdistinct, Option.filter_eq_some_iff] at hw
  exact hs key w hw.1 hend

/-- A window that was put under a key is bare if it never expires. -/
theorem bare_insert_self {w : RateWindow} :
    Bare { s with windows := s.windows.insert key w } key ↔ w.expiresAt = none := by
  simp [Bare]

/-- Putting a window under one key leaves the others as bare as they were. -/
theorem bare_insert_of_ne {other : String} {w : RateWindow} (h : other ≠ key) :
    Bare { s with windows := s.windows.insert key w } other ↔ s.Bare other := by
  simp [Bare, Table.lookup_insert_of_ne _ _ h]

/-- Putting a window keeps bare windows without stamps, if that one has none or expires. -/
theorem Blank.insert {w : RateWindow} (hs : s.Blank) (h : w.expiresAt = none → w.stamps = []) :
    Blank { s with windows := s.windows.insert key w } := by
  intro other found hfound hend
  by_cases hkey : other = key
  · rw [hkey, Table.lookup_insert_self] at hfound
    rw [← Option.some.inj hfound] at hend ⊢
    exact h hend
  · rw [Table.lookup_insert_of_ne _ _ hkey] at hfound
    exact hs other found hfound hend

/-- A key that was deleted is not bare. -/
theorem bare_delete_self : ¬ (s.delete key).Bare key := by
  simp [Bare, delete]

/-- Deleting one key leaves the others as bare as they were. -/
theorem bare_delete_of_ne {other : String} (h : other ≠ key) :
    (s.delete key).Bare other ↔ s.Bare other := by
  simp [Bare, delete, Table.lookup_erase_of_ne _ h]

/-- Deleting keeps bare windows without stamps. -/
theorem Blank.delete (hs : s.Blank) : (s.delete key).Blank := by
  intro other w hw hend
  by_cases hkey : other = key
  · simp [LocalStore.delete, hkey] at hw
  · rw [LocalStore.delete, Table.lookup_erase_of_ne _ hkey] at hw
    exact hs other w hw hend

/-- The window that a request finds, or that is made for it, has no end. -/
theorem expiresAt_eq_none_iff :
    ((s.windows.lookup key).getD .empty).expiresAt = none ↔
      s.windows.lookup key = none ∨ s.Bare key := by
  unfold Bare
  cases s.windows.lookup key with
  | none => simp [RateWindow.empty]
  | some w => simp

/-- A request under a limit of none leaves a window without an end where there was none
at all; one that is admitted gives the window an end. -/
theorem bare_record {stamp : Int} {window ttl : Span} {limit : Nat} (hs : s.Blank)
    (h : s.perform now fresh (.recordInWindow key stamp window limit ttl) = .ok (answer, s')) :
    (s'.Bare key ↔ limit = 0 ∧ (s.windows.lookup key = none ∨ s.Bare key)) ∧ s'.Blank := by
  rcases perform_record_cases h with ⟨hfull, _, entry, rfl, rfl⟩ | ⟨hroom, stamps, _, _, rfl⟩
  · have hlive : ((s.windows.lookup key).getD .empty).expiresAt = none → s.stampsAt now key = [] :=
      fun hend => stampsAt_eq_nil hs (expiresAt_eq_none_iff.1 hend) now
    refine ⟨?_, hs.insert fun hend => by rw [hlive hend, List.filter_nil]⟩
    rw [bare_insert_self]
    constructor
    · intro hend
      rw [hlive hend] at hfull
      exact ⟨Nat.le_zero.1 hfull, expiresAt_eq_none_iff.1 hend⟩
    · rintro ⟨_, hbefore⟩
      exact expiresAt_eq_none_iff.2 hbefore
  · have hend : some (now + ttl.nanos) ≠ none := Option.some_ne_none _
    refine ⟨?_, hs.insert fun hnone => absurd hnone hend⟩
    rw [bare_insert_self]
    constructor
    · intro hnone
      exact absurd hnone hend
    · rintro ⟨rfl, _⟩
      exact absurd hroom (Nat.not_lt_zero _)

/-- A window without an end is left by a call that gives it none, or by one that asks
for room under a limit of none where there is no window. -/
theorem bare_perform {call : Call} (hs : s.Blank)
    (h : s.perform now fresh call = .ok (answer, s')) :
    (∀ key, s'.Bare key ↔ (s.Bare key ∧ (Step.call fresh call).GivesNoEnd key) ∨
      (Step.call fresh call).AsksForNone key ∧ s.windows.lookup key = none) ∧ s'.Blank := by
  -- Calls that leave the windows alone give no end and ask for no room.
  have hsame : s'.windows = s.windows → (∀ key, (Step.call fresh call).GivesNoEnd key) →
      (∀ key, ¬ (Step.call fresh call).AsksForNone key) →
      (∀ key, s'.Bare key ↔ (s.Bare key ∧ (Step.call fresh call).GivesNoEnd key) ∨
        (Step.call fresh call).AsksForNone key ∧ s.windows.lookup key = none) ∧ s'.Blank := by
    intro hwindows hgives hasks
    refine ⟨fun key => ?_, hs.of_windows_eq hwindows⟩
    rw [bare_of_windows_eq hwindows]
    simp [hgives key, hasks key]
  cases call with
  | get k =>
      exact hsame (by rw [(perform_get h).2]) (fun _ => trivial) (by simp [Step.AsksForNone])
  | set k value ttl =>
      exact hsame (by rw [(perform_set h).2]) (fun _ => trivial) (by simp [Step.AsksForNone])
  | delete k =>
      rw [(perform_delete h).2]
      refine ⟨fun key => ?_, hs.delete⟩
      by_cases hkey : key = k
      · subst hkey
        simp [bare_delete_self, Step.GivesNoEnd, Step.AsksForNone]
      · simp [bare_delete_of_ne hkey, Step.GivesNoEnd, Step.AsksForNone, Ne.symm hkey]
  | acquireLock k ttl =>
      refine hsame ?_ (fun _ => trivial) (by simp [Step.AsksForNone])
      rcases perform_acquire h with ⟨_, _, rfl⟩ | ⟨_, _, rfl⟩ <;> rfl
  | releaseLock k token =>
      refine hsame ?_ (fun _ => trivial) (by simp [Step.AsksForNone])
      rw [(perform_release h).2, release_windows]
  | recordInWindow k stamp window limit ttl =>
      rcases bare_record hs h with ⟨hbare, hblank⟩
      refine ⟨fun key => ?_, hblank⟩
      by_cases hkey : k = key
      · subst hkey
        rw [hbare]
        simp only [Step.GivesNoEnd, Step.AsksForNone, forall_const, Step.call.injEq,
          Call.recordInWindow.injEq]
        grind
      · rcases perform_record h with ⟨entry, rfl⟩
        simp [bare_insert_of_ne (Ne.symm hkey), Step.GivesNoEnd, Step.AsksForNone, hkey]
  | countInWindow k stamp window =>
      exact hsame (by rw [(perform_count h).2]) (fun _ => trivial) (by simp [Step.AsksForNone])

end LocalStore

/-! ## Whole runs -/

/-- What a run from one store to another leaves there: whatever is kept ends when some
call of the run asks for, and the windows without an end are the stranded ones. -/
structure Leaves (a : Attended) (steps : List Step) (b : Attended) : Prop where
  distinct : Ran.Distinct b.store
  ends : ∀ moment, b.store.Ends moment → ∃ v ∈ visits a.now steps, v.KeepsUntil moment
  blank : b.store.Blank
  bare : ∀ key, b.store.Bare key ↔ Stranded a steps key

namespace Leaves

variable {a b c : Attended} {steps : List Step}

/-- At the start nothing is left. -/
theorem start (now : Nat) : Leaves (.start now) [] (.start now) where
  distinct := (Ran.start now).distinct
  ends := by
    rintro moment (⟨h, _⟩ | ⟨h, _⟩ | ⟨h, _⟩)
    · exact nomatch h
    · exact nomatch h
    · exact nomatch h
  blank := by
    intro key w hw
    exact nomatch hw
  bare key := by
    constructor
    · rintro ⟨w, hw, _⟩
      exact nomatch hw
    · rintro ⟨before, refused, later, _, heq, _⟩
      simp at heq

/-- What is left after something happened between two calls. -/
theorem interlude (h : Leaves a steps b) (hafter : a.after steps = .ok b) (i : Interlude) :
    Leaves a (steps ++ [.interlude i]) (b.pass i) := by
  have hstranded : ∀ key, Stranded a (steps ++ [.interlude i]) key ↔ Stranded a steps key := by
    intro key
    rw [stranded_concat]
    simp [Step.GivesNoEnd, Step.AsksForNone]
  have hvisits : visits a.now (steps ++ [.interlude i]) = visits a.now steps := by
    rw [Attended.visits_concat hafter]
    simp [visits]
  rcases b.store_pass i with hsame | ⟨moment, hpurged⟩
  · refine ⟨hsame ▸ h.distinct, ?_, hsame ▸ h.blank, fun key => ?_⟩
    · rw [hsame, hvisits]
      exact h.ends
    · rw [hsame, hstranded]
      exact h.bare key
  · refine ⟨?_, fun moment' hends => ?_, ?_, fun key => ?_⟩
    · rw [hpurged]
      exact ⟨Table.keysDistinct_keep _ h.distinct.values, Table.keysDistinct_keep _ h.distinct.locks,
        Table.keysDistinct_keep _ h.distinct.windows⟩
    · rw [hpurged] at hends
      rw [hvisits]
      exact h.ends moment' (LocalStore.ends_purge hends)
    · rw [hpurged]
      exact h.blank.purge h.distinct.windows moment
    · rw [hpurged, LocalStore.bare_purge h.distinct.windows, hstranded]
      exact h.bare key

/-- What is left after a call. -/
theorem call (h : Leaves a steps b) (hafter : a.after steps = .ok b) {fresh : Token} {call : Call}
    {answer : Answer} {s' : LocalStore} (hdone : b.store.perform b.now fresh call = .ok (answer, s')) :
    Leaves a (steps ++ [.call fresh call]) { b with store := s' } where
  distinct := Ran.distinct_perform h.distinct hdone
  ends moment hends := by
    rw [Attended.visits_concat hafter]
    rcases LocalStore.ends_perform hdone hends with hold | hnew
    · rcases h.ends moment hold with ⟨v, hv, hkeeps⟩
      exact ⟨v, List.mem_append_left _ hv, hkeeps⟩
    · exact ⟨⟨b.now, fresh, call⟩, by simp [visits], hnew⟩
  blank := (LocalStore.bare_perform h.blank hdone).2
  bare key := by
    rw [(LocalStore.bare_perform h.blank hdone).1, h.bare, stranded_concat, hafter]
    simp

/-- What a whole run from an empty store leaves. -/
theorem of_after {now : Nat} (h : (Attended.start now).after steps = .ok b) :
    Leaves (.start now) steps b := by
  induction steps using List.reverseRecOn generalizing b with
  | nil =>
      rw [← Except.ok.inj h]
      exact start now
  | append_singleton steps step ih =>
      rcases Attended.after_concat.1 h with ⟨c, hafter, hstep⟩
      cases step with
      | interlude i =>
          rw [← Except.ok.inj hstep]
          exact (ih hafter).interlude hafter i
      | call fresh call =>
          rcases Attended.step_call hstep with ⟨answer, s', hdone, rfl⟩
          exact (ih hafter).call hafter hdone

end Leaves

/-! ## Purges -/

namespace LocalStore

variable {s : LocalStore} {now : Nat}

/-- A purge that keeps nothing removes as many entries as there are. -/
theorem purgeable_eq_size (h : s.purge now = .empty) : s.purgeable now = s.size := by
  rw [purgeable, h]
  rfl

/-- Once the end of everything has passed, a purge leaves no value and no lock. -/
theorem purge_of_ends (h : ∀ moment, s.Ends moment → moment ≤ now) :
    (s.purge now).values = .empty ∧ (s.purge now).locks = .empty := by
  constructor
  · show (s.values.keep fun entry => now < entry.expiresAt) = .empty
    refine Table.keep_eq_empty fun e he => ?_
    have hpast := h _ (.value he rfl)
    simpa using hpast
  · show (s.locks.keep fun held => now < held.expiresAt) = .empty
    refine Table.keep_eq_empty fun e he => ?_
    have hpast := h _ (.lock he rfl)
    simpa using hpast

/-- A window is kept by a purge if its end is ahead or it has none. -/
theorem lookup_windows_purge (hs : s.windows.KeysDistinct) (key : String) (w : RateWindow) :
    (s.purge now).windows.lookup key = some w ↔ s.windows.lookup key = some w ∧
      ((∃ moment, w.expiresAt = some moment ∧ now < moment) ∨ w.expiresAt = none) := by
  rw [purge, Table.lookup_keep hs, Option.filter_eq_some_iff]
  cases hend : w.expiresAt <;> simp [RateWindow.isExpired, hend]

end LocalStore

/-- At any time a purge keeps what has not ended, and the windows that are stranded.
Once the end of everything that was ever asked for has passed, it leaves no value, no
lock, and the windows that are stranded; so it leaves nothing, and returns the number of
all entries, just when no window is. -/
theorem purge_leaves_stranded {now : Nat} {steps : List Step} {a : Attended}
    (h : (Attended.start now).after steps = .ok a) :
    (∀ key,
      (a.store.purge a.now).values.lookup key =
        (a.store.values.lookup key).filter (a.now < ·.expiresAt) ∧
      (a.store.purge a.now).locks.lookup key =
        (a.store.locks.lookup key).filter (a.now < ·.expiresAt) ∧
      ∀ w, (a.store.purge a.now).windows.lookup key = some w ↔
        a.store.windows.lookup key = some w ∧
          ((∃ moment, w.expiresAt = some moment ∧ a.now < moment) ∨
            Stranded (.start now) steps key)) ∧
    (Idle now steps a.now →
      (a.store.purge a.now).values = .empty ∧ (a.store.purge a.now).locks = .empty ∧
      (∀ key, ((a.store.purge a.now).windows.lookup key).isSome = true ↔
        Stranded (.start now) steps key) ∧
      ((a.store.purge a.now = .empty ∧ a.store.purgeable a.now = a.store.size) ↔
        ∀ key, ¬ Stranded (.start now) steps key)) := by
  have hleaves := Leaves.of_after h
  have hkept : ∀ key w, (a.store.purge a.now).windows.lookup key = some w ↔
      a.store.windows.lookup key = some w ∧
        ((∃ moment, w.expiresAt = some moment ∧ a.now < moment) ∨
          Stranded (.start now) steps key) := by
    intro key w
    rw [LocalStore.lookup_windows_purge hleaves.distinct.windows, ← hleaves.bare]
    refine and_congr_right fun hw => or_congr_right ⟨fun hend => ⟨w, hw, hend⟩, ?_⟩
    rintro ⟨w', hw', hend⟩
    rw [hw, Option.some.injEq] at hw'
    rw [hw']
    exact hend
  refine ⟨fun key => ⟨Table.lookup_keep hleaves.distinct.values _ key,
    Table.lookup_keep hleaves.distinct.locks _ key, hkept key⟩, fun hidle => ?_⟩
  have hends : ∀ moment, a.store.Ends moment → moment ≤ a.now := by
    intro moment hends
    rcases hleaves.ends moment hends with ⟨v, hv, hkeeps⟩
    exact hidle v hv moment hkeeps
  rcases LocalStore.purge_of_ends hends with ⟨hvalues, hlocks⟩
  have hwindows : ∀ key, ((a.store.purge a.now).windows.lookup key).isSome = true ↔
      Stranded (.start now) steps key := by
    intro key
    rw [Option.isSome_iff_exists]
    constructor
    · rintro ⟨w, hw⟩
      rcases (hkept key w).1 hw with ⟨hfound, ⟨moment, hend, hahead⟩ | hstranded⟩
      · have hpast := hends moment (.window (Table.mem_of_lookup hfound) hend)
        omega
      · exact hstranded
    · intro hstranded
      rcases (hleaves.bare key).2 hstranded with ⟨w, hw, _⟩
      exact ⟨w, (hkept key w).2 ⟨hw, .inr hstranded⟩⟩
  refine ⟨hvalues, hlocks, hwindows, ?_⟩
  constructor
  · rintro ⟨hempty, _⟩ key hstranded
    have hsome := (hwindows key).2 hstranded
    rw [hempty] at hsome
    exact nomatch hsome
  · intro hnone
    have hgone : (a.store.purge a.now).windows = .empty := by
      refine Table.eq_empty_of_lookup fun key => ?_
      rw [← Option.not_isSome_iff_eq_none, hwindows]
      exact hnone key
    have hempty : a.store.purge a.now = .empty := by
      unfold LocalStore.empty
      rw [← hvalues, ← hlocks, ← hgone]
    exact ⟨hempty, LocalStore.purgeable_eq_size hempty⟩

/-- A value, a lock and windows under three keys: one request is admitted, one is
refused under a limit of none and admitted then, and one is only refused. -/
def threeWindows : List Step :=
  [.call (.issued 1) (.set "k" [1] ⟨10⟩),
    .call (.issued 2) (.acquireLock "k" ⟨20⟩),
    .call (.issued 3) (.recordInWindow "k" 0 ⟨5⟩ 1 ⟨10⟩),
    .call (.issued 4) (.recordInWindow "late" 0 ⟨5⟩ 0 ⟨10⟩),
    .call (.issued 5) (.recordInWindow "late" 0 ⟨5⟩ 1 ⟨10⟩),
    .call (.issued 6) (.recordInWindow "refused" 0 ⟨5⟩ 0 ⟨10⟩),
    .interlude (.elapse ⟨15⟩),
    .call (.issued 7) (.recordInWindow "refused" 15 ⟨5⟩ 0 ⟨10⟩),
    .interlude .purge,
    .interlude (.elapse ⟨15⟩)]

/-- Where they lead. -/
def afterThreeWindows : Attended :=
  ⟨⟨⟨[]⟩, ⟨[("k", ⟨.issued 2, 20⟩)]⟩, ⟨[("refused", ⟨[], none⟩)]⟩⟩, 30, none⟩

/-- The last of the three windows is left by a purge, and nothing else. -/
theorem threeWindows_purged :
    (Attended.start 0).after threeWindows = .ok afterThreeWindows ∧
      Idle 0 threeWindows 30 ∧
      (afterThreeWindows.store.purge 30).values = .empty ∧
      (afterThreeWindows.store.purge 30).locks = .empty ∧
      Stranded (.start 0) threeWindows "refused" ∧
      ¬ Stranded (.start 0) threeWindows "late" ∧ ¬ Stranded (.start 0) threeWindows "k" := by
  have hafter : (Attended.start 0).after threeWindows = .ok afterThreeWindows := rfl
  have hidle : Idle 0 threeWindows 30 := by
    rintro v hv moment ⟨ttl, httl, rfl⟩
    simp only [threeWindows, visits, Interlude.nanos, List.mem_cons, List.not_mem_nil, or_false] at hv
    rcases hv with rfl | rfl | rfl | rfl | rfl | rfl | rfl
    all_goals
      rw [← Option.some.inj httl]
      decide
  rcases purge_leaves_stranded hafter with ⟨_, hpurged⟩
  rcases hpurged hidle with ⟨hvalues, hlocks, hwindows, _⟩
  refine ⟨hafter, hidle, hvalues, hlocks, (hwindows "refused").1 (by decide), ?_, ?_⟩
  · rw [← hwindows "late"]
    decide
  · rw [← hwindows "k"]
    decide

/-- A request is refused under a key without a window, and its time passes. -/
def refusedOnce : List Step :=
  [.call (.issued 1) (.recordInWindow "k" 0 ⟨10⟩ 0 ⟨11⟩), .interlude (.elapse ⟨20⟩)]

/-- The window that was made for the refused request stays although all that was asked
for has ended, and a purge returns nothing. -/
theorem refused_window_stays :
    ∃ a, (Attended.start 0).after refusedOnce = .ok a ∧ Idle 0 refusedOnce a.now ∧
      a.store.size = 1 ∧ a.store.purgeable a.now = 0 ∧ a.store.purge a.now ≠ .empty := by
  refine ⟨⟨⟨⟨[]⟩, ⟨[]⟩, ⟨[("k", ⟨[], none⟩)]⟩⟩, 20, none⟩, rfl, ?_, rfl, rfl, by decide⟩
  rintro v hv moment ⟨ttl, httl, rfl⟩
  simp only [refusedOnce, visits, List.mem_singleton] at hv
  subst hv
  rw [← Option.some.inj httl]
  decide

end Turnstile.Store

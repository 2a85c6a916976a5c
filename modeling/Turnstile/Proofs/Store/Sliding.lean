import Turnstile.Proofs.Store.History

/-!
# Sliding windows

A rate window forgets stamps in four ways: a request prunes those that are too
old for it, the whole window expires by another clock than that of the stamps,
a purge removes it, and a stamp that is taken is moved on to the next free one.
None of them forgets a stamp that still counts: from the beginning of any window
that may still be asked for, the store keeps as many stamps as there were
admissions.

So in any interval that is no longer than the window, whatever its ends are, no
more requests are admitted than the limit.

Main results:

- Theorem `LocalStore.perform_record_cases`: a request is refused, and the window
  pruned, or admitted under the first free stamp from its own on.
- Theorem `Ran.admittedSince_le`: the store keeps the stamps that still count.
- Theorem `Ran.admittedWithin_le`: no interval holds more admissions than the
  limit.
-/

namespace Turnstile.Store

/-! ## Admissions -/

/-- The stamp that the deed was asked to record, if it admitted a request under
the key. -/
def Deed.admits? (key : String) (d : Deed) : Option Int :=
  match d.call, d.answer with
  | .recordInWindow k stamp _ _ _, .window outcome =>
      if k = key ∧ outcome.admitted then some stamp else none
  | _, _ => none

/-- The stamps that were asked for by the requests admitted under a key. -/
def admissions (key : String) (deeds : List Deed) : List Int :=
  deeds.filterMap (Deed.admits? key)

/-- The number of requests admitted from an instant on. -/
def admittedSince (key : String) (deeds : List Deed) (low : Int) : Nat :=
  (admissions key deeds).countP (low ≤ ·)

/-- The number of requests admitted in an interval with its ends. -/
def admittedWithin (key : String) (deeds : List Deed) (low high : Int) : Nat :=
  (admissions key deeds).countP fun stamp => low ≤ stamp ∧ stamp ≤ high

/-- Whether a call leaves the rate window under a key as it is. -/
def Call.SparesWindow (key : String) : Call → Prop
  | .delete k => k ≠ key
  | .recordInWindow k _ _ _ _ => k ≠ key
  | _ => True

/-- What is done to the window under a key: requests are recorded at the instants
of their stamps, in windows of one length under one limit, and are kept longer
than that. -/
structure Slides (key : String) (offset : Int) (window : Span) (limit : Nat) (ttl : Span)
    (deeds : List Deed) : Prop where
  recorded : ∀ d ∈ deeds, ¬ d.call.SparesWindow key →
    d.call = .recordInWindow key (offset + d.time) window limit ttl
  ranged : ∀ d ∈ deeds, ¬ d.call.SparesWindow key → Timestamp.minStamp ≤ offset + d.time
  outlasts : window.nanos < ttl.nanos

/-- A window that slides did so before. -/
theorem Slides.of_suffix {key : String} {offset : Int} {window ttl : Span} {limit : Nat}
    {deeds past : List Deed} (h : Slides key offset window limit ttl deeds) (hs : past <:+ deeds) :
    Slides key offset window limit ttl past :=
  ⟨fun d hd => h.recorded d (List.IsSuffix.mem hd hs),
    fun d hd => h.ranged d (List.IsSuffix.mem hd hs), h.outlasts⟩

section

variable {key : String} {d : Deed} {deeds : List Deed} {low high stamp : Int}

/-- A deed admits a request by recording its stamp. -/
theorem admits?_eq_some : d.admits? key = some stamp ↔ ∃ window limit ttl outcome,
    d.call = .recordInWindow key stamp window limit ttl ∧ d.answer = .window outcome ∧
      outcome.admitted = true := by
  constructor
  · intro h
    rcases d with ⟨t, call, answer⟩
    cases call with
    | recordInWindow k stamp' window limit ttl =>
        cases answer with
        | window outcome =>
            by_cases hboth : k = key ∧ outcome.admitted = true
            · simp only [Deed.admits?, if_pos hboth, Option.some.injEq] at h
              rw [h, hboth.1]
              exact ⟨window, limit, ttl, outcome, rfl, rfl, hboth.2⟩
            · simp only [Deed.admits?, if_neg hboth] at h
              exact nomatch h
        | _ => exact nomatch h
    | _ => exact nomatch h
  · rintro ⟨window, limit, ttl, outcome, hcall, hanswer, hadmitted⟩
    simp only [Deed.admits?, hcall, hanswer, hadmitted, and_self, if_true]

/-- A request that is recorded is admitted as the outcome says. -/
theorem admits?_window (t : Nat) (stamp : Int) (window : Span) (limit : Nat) (ttl : Span)
    (outcome : WindowOutcome) :
    Deed.admits? key ⟨t, .recordInWindow key stamp window limit ttl, .window outcome⟩ =
      if outcome.admitted then some stamp else none := by
  simp [Deed.admits?]

/-- A deed that admits a request does not spare its window. -/
theorem not_spares_of_admits? (h : d.admits? key = some stamp) : ¬ d.call.SparesWindow key := by
  rcases admits?_eq_some.1 h with ⟨window, limit, ttl, outcome, hcall, _, _⟩
  rw [hcall]
  exact fun hspares => hspares rfl

/-- A deed that spares the window admits nothing there. -/
theorem admits?_of_spares (h : d.call.SparesWindow key) : d.admits? key = none := by
  cases hadmits : d.admits? key with
  | none => rfl
  | some stamp => exact absurd h (not_spares_of_admits? hadmits)

/-- A request that is admitted adds its stamp to the admissions. -/
theorem admissions_cons_some (h : d.admits? key = some stamp) :
    admissions key (d :: deeds) = stamp :: admissions key deeds :=
  List.filterMap_cons_some h

/-- Nothing else adds to them. -/
theorem admissions_cons_none (h : d.admits? key = none) :
    admissions key (d :: deeds) = admissions key deeds :=
  List.filterMap_cons_none h

/-- Every admission has its deed. -/
theorem exists_of_mem_admissions (h : stamp ∈ admissions key deeds) :
    ∃ d ∈ deeds, d.admits? key = some stamp :=
  List.mem_filterMap.1 h

/-- Where requests are recorded at the instants of their stamps, an admission has
the stamp of its time. -/
theorem Slides.stamp_eq {offset : Int} {window ttl : Span} {limit : Nat}
    (h : Slides key offset window limit ttl deeds) (hd : d ∈ deeds)
    (hadmits : d.admits? key = some stamp) :
    stamp = offset + d.time ∧ Timestamp.minStamp ≤ stamp := by
  have hcall := h.recorded d hd (not_spares_of_admits? hadmits)
  have hlow := h.ranged d hd (not_spares_of_admits? hadmits)
  rcases admits?_eq_some.1 hadmits with ⟨_, _, _, _, hcall', _, _⟩
  have heq : stamp = offset + d.time := by
    rw [hcall, Call.recordInWindow.injEq] at hcall'
    exact hcall'.2.1.symm
  rw [heq]
  exact ⟨rfl, hlow⟩

/-- The admissions of an interval lie after its beginning. -/
theorem admittedWithin_le_since {low' : Int} (h : ∀ stamp ∈ admissions key deeds,
    low ≤ stamp → stamp ≤ high → low' ≤ stamp) :
    admittedWithin key deeds low high ≤ admittedSince key deeds low' := by
  unfold admittedWithin admittedSince
  apply List.countP_mono_left
  intro stamp hmem hin
  have hboth : low ≤ stamp ∧ stamp ≤ high := of_decide_eq_true hin
  exact decide_eq_true (h stamp hmem hboth.1 hboth.2)

end

/-! ## Recording a request -/

/-- The stamps of the window under a key, unless it has expired. -/
def LocalStore.stampsAt (s : LocalStore) (now : Nat) (key : String) : List Int :=
  match s.windows.lookup key with
  | some entry => if entry.isExpired now then [] else entry.stamps
  | none => []

/-- A window that has expired stays so. -/
theorem RateWindow.isExpired_mono {entry : RateWindow} {now later : Nat} (hle : now ≤ later)
    (h : entry.isExpired now = true) : entry.isExpired later = true := by
  unfold isExpired at h ⊢
  cases hend : entry.expiresAt with
  | none =>
      rw [hend] at h
      exact nomatch h
  | some moment =>
      rw [hend] at h
      have hpast : moment ≤ now := of_decide_eq_true h
      exact decide_eq_true (Nat.le_trans hpast hle)

namespace LocalStore

variable {s s' : LocalStore} {now later : Nat} {fresh : Token} {answer : Answer} {key : String}
  {stamp start : Int} {window ttl : Span} {limit : Nat}

/-- What a window has depends on the windows only. -/
theorem stampsAt_of_windows_eq (h : s'.windows = s.windows) (now : Nat) (key : String) :
    s'.stampsAt now key = s.stampsAt now key := by
  unfold stampsAt
  rw [h]

/-- Putting a window leaves the others as they are. -/
theorem stampsAt_insert_of_ne {other : String} (h : other ≠ key) (entry : RateWindow) (now : Nat) :
    stampsAt { s with windows := s.windows.insert key entry } now other = s.stampsAt now other := by
  unfold stampsAt
  rw [Table.lookup_insert_of_ne _ _ h]

/-- A window that was put has its stamps until it expires. -/
theorem stampsAt_insert_self (entry : RateWindow) (now : Nat) :
    stampsAt { s with windows := s.windows.insert key entry } now key =
      if entry.isExpired now then [] else entry.stamps := by
  unfold stampsAt
  rw [Table.lookup_insert_self]

/-- The stamps that count for a request are those that have not expired and are
not too old. -/
theorem liveStamps_eq (s : LocalStore) (now : Nat) (key : String) (start : Int) :
    liveStamps ((s.windows.lookup key).getD .empty) now start =
      (s.stampsAt now key).filter (start ≤ ·) := by
  unfold liveStamps stampsAt
  cases s.windows.lookup key with
  | none => rfl
  | some entry =>
      dsimp only [Option.getD_some]
      by_cases hexpired : entry.isExpired now = true
      · rw [if_pos hexpired, if_pos hexpired]
        rfl
      · rw [if_neg hexpired, if_neg hexpired]
        rfl

/-- A request is refused, and the window pruned, or admitted under the first free
stamp from its own on. -/
theorem perform_record_cases
    (h : s.perform now fresh (.recordInWindow key stamp window limit ttl) = .ok (answer, s')) :
    let live := (s.stampsAt now key).filter (windowStart stamp window ≤ ·)
    (limit ≤ live.length ∧ answer = .window ⟨false, live.length, live.head?⟩ ∧
      ∃ entry, (s.windows.lookup key).getD .empty = entry ∧
        s' = { s with windows := s.windows.insert key ⟨live, entry.expiresAt⟩ }) ∨
    (live.length < limit ∧ ∃ stamps,
      stamps = RateWindow.insertSorted (RateWindow.firstFree stamp live) live ∧
      answer = .window ⟨true, live.length + 1, stamps.head?⟩ ∧
      s' = { s with windows := s.windows.insert key ⟨stamps, some (now + ttl.nanos)⟩ }) := by
  dsimp only
  simp only [perform, record, liveStamps_eq] at h
  generalize (s.stampsAt now key).filter (windowStart stamp window ≤ ·) = live at h ⊢
  by_cases hfull : limit ≤ live.length
  · simp only [hfull, if_true, Except.map, Except.ok.injEq, Prod.mk.injEq] at h
    exact Or.inl ⟨hfull, h.1.symm, _, rfl, h.2.symm⟩
  · simp only [hfull, if_false] at h
    by_cases hrange : Timestamp.maxStamp < RateWindow.firstFree stamp live
    · simp [hrange, Except.map] at h
    · simp only [hrange, if_false] at h
      cases hexp : expiry now ttl with
      | error e => simp [hexp, Except.map] at h
      | ok expiresAt =>
          simp only [hexp, Except.map, Except.ok.injEq, Prod.mk.injEq] at h
          rw [← expiry_eq_ok hexp]
          exact Or.inr ⟨by omega, _, rfl, h.1.symm, h.2.symm⟩

/-- A request that finds its limit reached is refused. -/
theorem perform_record_refused {live : List Int}
    (hlive : (s.stampsAt now key).filter (windowStart stamp window ≤ ·) = live)
    (hfull : limit ≤ live.length) (fresh : Token) (ttl : Span) :
    s.perform now fresh (.recordInWindow key stamp window limit ttl) =
      .ok (.window ⟨false, live.length, live.head?⟩, { s with windows := s.windows.insert key ⟨live,
        ((s.windows.lookup key).getD .empty).expiresAt⟩ }) := by
  simp only [perform, record, liveStamps_eq, hlive, if_pos hfull, Except.map]

/-- A request that finds room is admitted, if what is noted for it is in range. -/
theorem perform_record_admitted {live : List Int} {expiresAt : Nat}
    (hlive : (s.stampsAt now key).filter (windowStart stamp window ≤ ·) = live)
    (hroom : live.length < limit) (hrange : RateWindow.firstFree stamp live ≤ Timestamp.maxStamp)
    (hexpiry : expiry now ttl = .ok expiresAt) (fresh : Token) :
    let stamps := RateWindow.insertSorted (RateWindow.firstFree stamp live) live
    s.perform now fresh (.recordInWindow key stamp window limit ttl) =
      .ok (.window ⟨true, live.length + 1, stamps.head?⟩,
        { s with windows := s.windows.insert key ⟨stamps, some expiresAt⟩ }) := by
  have hnotFull : ¬ limit ≤ live.length := by omega
  have hfits : ¬ Timestamp.maxStamp < RateWindow.firstFree stamp live := by omega
  simp only [perform, record, liveStamps_eq, hlive, if_neg hnotFull, if_neg hfits, hexpiry,
    Except.map]

/-- A request that finds no stamp is admitted as the first one, if there is room for any. -/
theorem perform_record_of_nil {expiresAt : Nat} (hnil : s.stampsAt now key = [])
    (hroom : 0 < limit) (hstamp : stamp ≤ Timestamp.maxStamp)
    (hexpiry : expiry now ttl = .ok expiresAt) (fresh : Token) :
    s.perform now fresh (.recordInWindow key stamp window limit ttl) =
      .ok (.window ⟨true, 1, some stamp⟩,
        { s with windows := s.windows.insert key ⟨[stamp], some expiresAt⟩ }) := by
  have hlive : (s.stampsAt now key).filter (windowStart stamp window ≤ ·) = [] := by
    rw [hnil, List.filter_nil]
  exact perform_record_admitted hlive hroom hstamp hexpiry fresh

/-- So is the first request in a window. -/
theorem perform_record_first {expiresAt : Nat} (hnone : s.windows.lookup key = none)
    (hroom : 0 < limit) (hstamp : stamp ≤ Timestamp.maxStamp)
    (hexpiry : expiry now ttl = .ok expiresAt) (fresh : Token) :
    s.perform now fresh (.recordInWindow key stamp window limit ttl) =
      .ok (.window ⟨true, 1, some stamp⟩,
        { s with windows := s.windows.insert key ⟨[stamp], some expiresAt⟩ }) := by
  have hnil : s.stampsAt now key = [] := by rw [stampsAt, hnone]
  exact perform_record_of_nil hnil hroom hstamp hexpiry fresh

/-- The stamps of a window that has not expired. -/
theorem stampsAt_of_lookup {stamps : List Int} {expiresAt : Nat}
    (hwindow : s.windows.lookup key = some ⟨stamps, some expiresAt⟩) (hlive : now < expiresAt) :
    s.stampsAt now key = stamps := by
  have hkept : ¬ RateWindow.isExpired ⟨stamps, some expiresAt⟩ now = true := by
    simpa [RateWindow.isExpired] using hlive
  rw [stampsAt, hwindow]
  exact if_neg hkept

/-- A purge removes no stamp that has not expired. -/
theorem stampsAt_purge (hs : s.windows.KeysDistinct) (hle : now ≤ later) (key : String) :
    (s.purge now).stampsAt later key = s.stampsAt later key := by
  unfold stampsAt purge
  dsimp only
  rw [Table.lookup_keep hs]
  cases s.windows.lookup key with
  | none => rfl
  | some entry =>
      by_cases hexpired : entry.isExpired now = true
      · have hlater := RateWindow.isExpired_mono hle hexpired
        simp [Option.filter, hexpired, hlater]
      · simp [Option.filter, hexpired]

/-- Calls that spare a window leave its stamps. -/
theorem stampsAt_of_spares {call : Call} (h : s.perform now fresh call = .ok (answer, s'))
    (hspares : call.SparesWindow key) (later : Nat) :
    s'.stampsAt later key = s.stampsAt later key := by
  cases call with
  | get k => rw [(perform_get h).2]
  | set k value ttl =>
      rw [(perform_set h).2]
      exact stampsAt_of_windows_eq rfl later key
  | delete k =>
      rw [(perform_delete h).2]
      unfold stampsAt delete
      rw [Table.lookup_erase_of_ne _ (Ne.symm hspares)]
  | acquireLock k ttl =>
      rcases perform_acquire h with ⟨_, _, rfl⟩ | ⟨_, _, rfl⟩
      · exact stampsAt_of_windows_eq rfl later key
      · rfl
  | releaseLock k token =>
      have hwindows : s'.windows = s.windows := by
        rw [(perform_release h).2]
        unfold release
        cases s.locks.lookup k with
        | none => rfl
        | some held => by_cases htoken : held.token = token <;> simp [htoken]
      exact stampsAt_of_windows_eq hwindows later key
  | recordInWindow k stamp window limit ttl =>
      rcases perform_record h with ⟨entry, rfl⟩
      exact stampsAt_insert_of_ne (Ne.symm hspares) entry later
  | countInWindow k stamp window => rw [(perform_count h).2]

/-- A request that is refused only prunes the window. -/
theorem stampsAt_of_refused {entry : RateWindow} {live : List Int} (hle : now ≤ later)
    (hentry : (s.windows.lookup key).getD .empty = entry)
    (hlive : live = (s.stampsAt now key).filter (start ≤ ·)) :
    stampsAt { s with windows := s.windows.insert key ⟨live, entry.expiresAt⟩ } later key =
      (s.stampsAt later key).filter (start ≤ ·) := by
  rw [stampsAt_insert_self, hlive]
  unfold stampsAt
  cases hlookup : s.windows.lookup key with
  | none =>
      rw [hlookup] at hentry
      have hempty : RateWindow.empty = entry := hentry
      rw [← hempty]
      rfl
  | some found =>
      rw [hlookup] at hentry
      have hfound : found = entry := hentry
      rw [← hfound]
      dsimp only
      have hsame : ∀ stamps t, RateWindow.isExpired ⟨stamps, found.expiresAt⟩ t = found.isExpired t :=
        fun _ _ => rfl
      rw [hsame]
      by_cases hlater : found.isExpired later = true
      · rw [if_pos hlater, if_pos hlater]
        rfl
      · have hnow : ¬ found.isExpired now = true :=
          fun hnow => hlater (RateWindow.isExpired_mono hle hnow)
        rw [if_neg hlater, if_neg hlater, if_neg hnow]

/-- A window that admitted a request is kept until it expires. -/
theorem stampsAt_of_admitted (s : LocalStore) (key : String) (stamps : List Int)
    (expiresAt later : Nat) :
    stampsAt { s with windows := s.windows.insert key ⟨stamps, some expiresAt⟩ } later key =
      if expiresAt ≤ later then [] else stamps := by
  rw [stampsAt_insert_self]
  by_cases hexpired : expiresAt ≤ later <;> simp [RateWindow.isExpired, hexpired]

end LocalStore

/-! ## The stamps that still count -/

/-- Inserting a stamp adds one to the number from an instant on, if the stamp is
not before that instant. -/
theorem RateWindow.countP_insertSorted (p : Int → Bool) (stamp : Int) (stamps : List Int) :
    (insertSorted stamp stamps).countP p = stamps.countP p + if p stamp then 1 else 0 := by
  induction stamps with
  | nil => rw [insertSorted, List.countP_cons]
  | cons first rest ih =>
      unfold insertSorted
      by_cases hlt : first < stamp
      · rw [if_pos hlt, List.countP_cons, List.countP_cons, ih]
        omega
      · rw [if_neg hlt, List.countP_cons]

/-- Pruning takes away no stamp from an instant on that is not pruned. -/
theorem countP_filter_of_le {start low : Int} (h : start ≤ low) (stamps : List Int) :
    (stamps.filter (start ≤ ·)).countP (low ≤ ·) = stamps.countP (low ≤ ·) := by
  rw [List.countP_filter]
  apply List.countP_congr
  intro stamp _
  simp only [Bool.and_eq_true, decide_eq_true_eq]
  omega

/-- A window that ends later begins later. -/
theorem windowStart_mono {now later : Int} (h : now ≤ later) (window : Span) :
    windowStart now window ≤ windowStart later window := by
  unfold windowStart
  omega

section

variable {key : String} {offset : Int} {window ttl : Span} {limit : Nat} {deeds : List Deed}
  {s : LocalStore} {now : Nat}

/-- Once a window has expired, nothing that was admitted counts any more. -/
theorem Slides.admittedSince_eq_zero (h : Slides key offset window limit ttl deeds)
    (htime : ∀ d ∈ deeds, d.time ≤ now) {later : Nat} (hlater : now + ttl.nanos ≤ later) {low : Int}
    (hlow : windowStart (offset + later) window ≤ low) : admittedSince key deeds low = 0 := by
  have hlong := h.outlasts
  unfold admittedSince
  rw [List.countP_eq_zero]
  intro stamp hmem
  rcases exists_of_mem_admissions hmem with ⟨d, hd, hadmits⟩
  have hstamp := (h.stamp_eq hd hadmits).1
  have hbefore := htime d hd
  unfold windowStart at hlow
  simp only [decide_eq_true_eq]
  omega

/-- The store keeps the stamps that still count: from the beginning of any window
that may still be asked for, there are as many as there were admissions. -/
theorem Ran.admittedSince_le (h : Ran deeds s now)
    (hslides : Slides key offset window limit ttl deeds) {later : Nat} (hle : now ≤ later) {low : Int}
    (hlow : windowStart (offset + later) window ≤ low) :
    admittedSince key deeds low ≤ (s.stampsAt later key).countP (low ≤ ·) := by
  induction h generalizing later with
  | start now => exact Nat.zero_le _
  | elapse _ hlater ih => exact ih hslides (Nat.le_trans hlater hle) hlow
  | purge hran ih =>
      rw [LocalStore.stampsAt_purge hran.distinct.windows hle]
      exact ih hslides hle hlow
  | @perform deeds s now fresh call answer s' hran hfresh hdone ih =>
      have hbefore := hslides.of_suffix (List.suffix_cons _ _)
      by_cases hspares : call.SparesWindow key
      · have hadmits : Deed.admits? key ⟨now, call, answer⟩ = none := admits?_of_spares hspares
        rw [LocalStore.stampsAt_of_spares hdone hspares, admittedSince, admissions_cons_none hadmits]
        exact ih hbefore hle hlow
      · have hcall : call = .recordInWindow key (offset + now) window limit ttl :=
          hslides.recorded _ List.mem_cons_self hspares
        subst hcall
        have hstart : windowStart (offset + now) window ≤ low :=
          Int.le_trans (windowStart_mono (by omega) window) hlow
        rcases LocalStore.perform_record_cases hdone with
          ⟨_, rfl, entry, hentry, rfl⟩ | ⟨_, stamps, rfl, rfl, rfl⟩
        · -- The pruned stamps lie before the window that is asked for.
          rw [LocalStore.stampsAt_of_refused hle hentry rfl, countP_filter_of_le hstart,
            admittedSince, admissions_cons_none (admits?_window _ _ _ _ _ _)]
          exact ih hbefore hle hlow
        · rw [LocalStore.stampsAt_of_admitted]
          by_cases hexpired : now + ttl.nanos ≤ later
          · have htime := (hran.perform hfresh hdone).time_le
            rw [hslides.admittedSince_eq_zero htime hexpired hlow]
            exact Nat.zero_le _
          · have hfree := RateWindow.firstFree_ge (offset + now)
              ((s.stampsAt now key).filter (windowStart (offset + now) window ≤ ·))
            have hcovered := ih hbefore (Nat.le_refl now) hstart
            rw [if_neg hexpired, RateWindow.countP_insertSorted, countP_filter_of_le hstart,
              admittedSince, admissions_cons_some (admits?_window _ _ _ _ _ _), List.countP_cons]
            unfold admittedSince at hcovered
            simp only [decide_eq_true_eq]
            split <;> split <;> omega

/-- A request is admitted only if the window that ends at its instant has room
for it. -/
theorem Ran.admittedSince_of_admits {d : Deed} {past : List Deed} (h : Ran deeds s now)
    (hslides : Slides key offset window limit ttl deeds) (hd : d :: past <:+ deeds) {stamp : Int}
    (hadmits : d.admits? key = some stamp) :
    admittedSince key (d :: past) (windowStart stamp window) ≤ limit := by
  have hmem := List.IsSuffix.mem List.mem_cons_self hd
  have hstamp := (hslides.stamp_eq hmem hadmits).1
  have hcall := hslides.recorded d hmem (not_spares_of_admits? hadmits)
  rcases h.behind hd with ⟨s₀, s₁, fresh, hran, _, hdone⟩
  have hpast := hslides.of_suffix ((List.suffix_cons d past).trans hd)
  have hcovered := hran.admittedSince_le hpast (Nat.le_refl _) (Int.le_refl _)
  rcases admits?_eq_some.1 hadmits with ⟨_, _, _, outcome, _, hanswer, hadmitted⟩
  rw [hcall, hanswer] at hdone
  rw [hstamp, admittedSince, admissions_cons_some hadmits, List.countP_cons]
  rcases LocalStore.perform_record_cases hdone with ⟨_, heq, _⟩ | ⟨hroom, _⟩
  · rw [Answer.window.injEq] at heq
    rw [heq] at hadmitted
    exact nomatch hadmitted
  · unfold admittedSince at hcovered
    rw [← List.countP_eq_length_filter] at hroom
    split <;> omega

/-- No interval that is no longer than the window holds more admissions than the
limit. -/
theorem Ran.admittedWithin_le (h : Ran deeds s now)
    (hslides : Slides key offset window limit ttl deeds)
    (hwindow : (window.nanos : Int) ≤ Timestamp.maxStamp) {low high : Int}
    (hspan : high ≤ low + window.nanos) : admittedWithin key deeds low high ≤ limit := by
  induction deeds generalizing s now with
  | nil => exact Nat.zero_le _
  | cons d older ih =>
      have holder := List.suffix_cons d older
      rcases h.exists_of_suffix holder with ⟨s₀, now₀, hran⟩
      have hbefore := ih hran (hslides.of_suffix holder)
      cases hadmits : d.admits? key with
      | none =>
          rw [admittedWithin, admissions_cons_none hadmits]
          exact hbefore
      | some stamp =>
          by_cases hin : low ≤ stamp ∧ stamp ≤ high
          · -- The last admission of the interval saw all the others.
            have hseen := h.admittedSince_of_admits hslides List.suffix_rfl hadmits
            refine Nat.le_trans (admittedWithin_le_since ?_) hseen
            intro other hother hlow hhigh
            rcases exists_of_mem_admissions hother with ⟨d', hd', hadmits'⟩
            have hrange := (hslides.stamp_eq hd' hadmits').2
            unfold windowStart
            omega
          · rw [admittedWithin, admissions_cons_some hadmits, List.countP_cons]
            unfold admittedWithin at hbefore
            simpa [hin] using hbefore

end

end Turnstile.Store

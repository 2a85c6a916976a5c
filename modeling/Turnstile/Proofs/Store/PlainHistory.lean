import Turnstile.Proofs.Store.Sliding

/-!
# Rate windows as plain histories

A rate window forgets stamps: a request prunes those that are too old for it, the
whole window expires by the clock of the store, a purge removes it, and a delete
clears it.  The history of a key forgets nothing but what was deleted: it has
every stamp that was admitted since.

Where requests are recorded at the pace of the clock and are kept long enough, the
window answers every request as the history does.  What ties the two clocks
together is that stamps which were moved on lie close behind the request that
moved them: from the last request on, the stamps that are taken follow each other
without a gap, so no stamp lies further ahead than the limit.  By the time a
window expires, the last of its stamps is too old for any request.

A count is not bound to the pace of the clock.  One whose instant lags behind the
clock may ask for stamps that have expired with their window; it answers zero.

Main results:

- Theorem `Ran.packed`: no gap lies between the stamps ahead of the clock.
- Theorem `Ran.mirrors`: what the store keeps is what the history has, until
  it expires.
- Theorem `Ran.answers_from_history`: requests and counts are answered from the
  history.
-/

namespace Turnstile.Store

/-! ## Histories -/

/-- The stamps that were admitted under a key since it was last deleted, in
increasing order. -/
def history (key : String) : List Deed → List Int
  | [] => []
  | d :: older =>
      if d.call = .delete key then []
      else
        match d.admits? key with
        | some stamp =>
            RateWindow.insertSorted (RateWindow.firstFree stamp (history key older))
              (history key older)
        | none => history key older

/-- The time for which a deed keeps what it records. -/
def Deed.keepsUntil (d : Deed) : Nat :=
  match d.call with
  | .recordInWindow _ _ _ _ ttl => d.time + ttl.nanos
  | _ => d.time

/-- When what the last admission under a key keeps is forgotten; `none` if nothing
was admitted since the key was last deleted. -/
def keptUntil (key : String) : List Deed → Option Nat
  | [] => none
  | d :: older =>
      if d.call = .delete key then none
      else if (d.admits? key).isSome then some d.keepsUntil
      else keptUntil key older

/-- The last admission under a key is forgotten at a time. -/
def IsForgotten (key : String) (deeds : List Deed) (now : Nat) : Prop :=
  ∃ moment, keptUntil key deeds = some moment ∧ moment ≤ now

instance (key : String) (deeds : List Deed) (now : Nat) : Decidable (IsForgotten key deeds now) :=
  decidable_of_iff ((keptUntil key deeds).any (· ≤ now)) <| by
    unfold IsForgotten
    cases keptUntil key deeds <;> simp

/-- Whether a window is forgotten goes by how long it is kept. -/
theorem isForgotten_congr {key : String} {deeds deeds' : List Deed}
    (h : keptUntil key deeds = keptUntil key deeds') (now : Nat) :
    IsForgotten key deeds now ↔ IsForgotten key deeds' now := by
  unfold IsForgotten
  rw [h]

/-- A request keeps pace with the clock: its stamp is the reading of the clock,
moved by a fixed distance, and it is kept beyond its window for as many nanoseconds
as the limit allows requests. -/
structure KeepsPace (offset : Int) (window : Span) (time : Nat) (stamp : Int) (length : Span)
    (limit : Nat) (ttl : Span) : Prop where
  stamp_eq : stamp = offset + time
  length_eq : length = window
  low : Timestamp.minStamp ≤ stamp
  high : stamp + limit ≤ Timestamp.maxStamp
  outlasts : window.nanos + limit ≤ ttl.nanos

/-- All requests under a key keep pace with the clock. -/
def Steady (key : String) (offset : Int) (window : Span) (deeds : List Deed) : Prop :=
  ∀ d ∈ deeds, ∀ stamp length limit ttl, d.call = .recordInWindow key stamp length limit ttl →
    KeepsPace offset window d.time stamp length limit ttl

/-- No request under a key was made after an instant. -/
def RecordedUpTo (key : String) (instant : Int) (deeds : List Deed) : Prop :=
  ∀ d ∈ deeds, ∀ stamp length limit ttl, d.call = .recordInWindow key stamp length limit ttl →
    stamp ≤ instant

/-- Deeds that keep pace kept it before the last one. -/
theorem Steady.tail {key : String} {offset : Int} {window : Span} {d : Deed} {deeds : List Deed}
    (h : Steady key offset window (d :: deeds)) : Steady key offset window deeds :=
  fun d' hd' => h d' (List.mem_cons_of_mem _ hd')

/-- What was recorded up to an instant was so before the last deed. -/
theorem RecordedUpTo.tail {key : String} {instant : Int} {d : Deed} {deeds : List Deed}
    (h : RecordedUpTo key instant (d :: deeds)) : RecordedUpTo key instant deeds :=
  fun d' hd' => h d' (List.mem_cons_of_mem _ hd')

/-! ## Sorted stamps -/

namespace RateWindow

/-- Every stamp before the first free one is taken. -/
theorem mem_of_lt_firstFree {stamp x : Int} {stamps : List Int} (hle : stamp ≤ x)
    (hlt : x < firstFree stamp stamps) : x ∈ stamps := by
  induction stamps generalizing stamp with
  | nil =>
      unfold firstFree at hlt
      omega
  | cons first rest ih =>
      unfold firstFree at hlt
      split at hlt
      · exact List.mem_cons_of_mem _ (ih hle hlt)
      · split at hlt
        · next heq =>
            by_cases hx : x = stamp
            · rw [hx, heq]
              exact List.mem_cons_self
            · exact List.mem_cons_of_mem _ (ih (by omega) hlt)
        · omega

/-- The first free stamp is no further away than there are stamps. -/
theorem firstFree_le (stamp : Int) (stamps : List Int) :
    firstFree stamp stamps ≤ stamp + stamps.length := by
  induction stamps generalizing stamp with
  | nil => simp [firstFree]
  | cons first rest ih =>
      have hhere := ih stamp
      have hnext := ih (stamp + 1)
      unfold firstFree
      rw [List.length_cons]
      split
      · omega
      · split <;> omega

/-- Stamps before the one that is asked for do not matter to the first free one. -/
theorem firstFree_filter {start stamp : Int} (h : start ≤ stamp) (stamps : List Int) :
    firstFree stamp (stamps.filter (start ≤ ·)) = firstFree stamp stamps := by
  induction stamps generalizing stamp with
  | nil => rfl
  | cons first rest ih =>
      by_cases hkept : start ≤ first
      · rw [List.filter_cons_of_pos (by simpa using hkept)]
        unfold firstFree
        rw [ih h, ih (by omega)]
      · rw [List.filter_cons_of_neg (by simpa using hkept), ih h, firstFree]
        rw [if_pos (show first < stamp by omega)]

/-- Pruning after an insertion is inserting after pruning. -/
theorem filter_insertSorted (start stamp : Int) (stamps : List Int) :
    (insertSorted stamp stamps).filter (start ≤ ·) =
      if start ≤ stamp then insertSorted stamp (stamps.filter (start ≤ ·))
      else stamps.filter (start ≤ ·) := by
  induction stamps with
  | nil => by_cases hin : start ≤ stamp <;> simp [insertSorted, hin]
  | cons first rest ih =>
      by_cases hlt : first < stamp
      · rw [insertSorted, if_pos hlt, List.filter_cons, List.filter_cons, ih]
        by_cases hin : start ≤ stamp <;> by_cases hfirst : start ≤ first <;>
          simp [insertSorted, hin, hfirst, hlt]
      · rw [insertSorted, if_neg hlt]
        by_cases hin : start ≤ stamp
        · have hfirst : start ≤ first := by omega
          simp [insertSorted, hin, hfirst, hlt]
        · simp [hin]

end RateWindow

/-- Pruning twice is pruning to the later start. -/
theorem filter_filter_of_le {start low : Int} (h : start ≤ low) (stamps : List Int) :
    (stamps.filter (start ≤ ·)).filter (low ≤ ·) = stamps.filter (low ≤ ·) := by
  rw [List.filter_filter]
  apply List.filter_congr
  intro stamp _
  by_cases hlow : low ≤ stamp
  · simp [hlow, Int.le_trans h hlow]
  · simp [hlow]

/-- The first of increasing stamps is the least. -/
theorem min?_eq_head? {stamps : List Int} (h : stamps.Pairwise (· < ·)) :
    stamps.min? = stamps.head? := by
  apply List.min?_eq_head?
  refine h.imp ?_
  intro a b hlt
  omega

/-! ## What a deed does to the history -/

section

variable {key : String} {d : Deed}

/-- A deed that spares the window, or refuses a request, leaves the history. -/
theorem history_of_none (deeds : List Deed) (hdelete : d.call ≠ .delete key) (hnone : d.admits? key = none) :
    history key (d :: deeds) = history key deeds ∧ keptUntil key (d :: deeds) = keptUntil key deeds := by
  simp [history, keptUntil, hdelete, hnone]

/-- A request that is admitted adds its stamp, and says how long the window is kept. -/
theorem history_of_admits {stamp : Int} (deeds : List Deed) (hadmits : d.admits? key = some stamp) :
    history key (d :: deeds) =
        RateWindow.insertSorted (RateWindow.firstFree stamp (history key deeds)) (history key deeds) ∧
      keptUntil key (d :: deeds) = some d.keepsUntil := by
  have hdelete : d.call ≠ .delete key := by
    intro hcall
    rcases admits?_eq_some.1 hadmits with ⟨_, _, _, _, hrecord, _, _⟩
    rw [hcall] at hrecord
    exact nomatch hrecord
  simp [history, keptUntil, hdelete, hadmits]

/-- A window that is deleted has no history. -/
theorem history_of_delete (deeds : List Deed) (hdelete : d.call = .delete key) :
    history key (d :: deeds) = [] ∧ keptUntil key (d :: deeds) = none := by
  simp [history, keptUntil, hdelete]

/-- A history is increasing: no stamp is admitted twice. -/
theorem history_sorted (key : String) (deeds : List Deed) :
    (history key deeds).Pairwise (· < ·) := by
  induction deeds with
  | nil => exact List.Pairwise.nil
  | cons d older ih =>
      by_cases hdelete : d.call = .delete key
      · rw [(history_of_delete _ hdelete).1]
        exact List.Pairwise.nil
      · cases hadmits : d.admits? key with
        | none =>
            rw [(history_of_none _ hdelete hadmits).1]
            exact ih
        | some stamp =>
            rw [(history_of_admits _ hadmits).1]
            exact RateWindow.pairwise_insertSorted ih (RateWindow.firstFree_not_mem ih)

end

/-! ## The stamps ahead of the clock -/

section

variable {key : String} {offset : Int} {window : Span} {deeds : List Deed} {s : LocalStore}
  {now : Nat}

/-- Requests that keep pace lie no later than the clock. -/
theorem Ran.recordedUpTo (h : Ran deeds s now) (hsteady : Steady key offset window deeds) :
    RecordedUpTo key (offset + now) deeds := by
  intro d hd stamp length limit ttl hcall
  have hstamp := (hsteady d hd stamp length limit ttl hcall).stamp_eq
  have htime := h.time_le d hd
  omega

/-- No gap lies between the stamps ahead of the clock. -/
theorem Ran.packed (h : Ran deeds s now) (hsteady : Steady key offset window deeds) {x y : Int}
    (hx : x ∈ history key deeds) (hy : offset + now ≤ y) (hle : y ≤ x) : y ∈ history key deeds := by
  induction h generalizing x y with
  | start now => exact absurd hx List.not_mem_nil
  | elapse _ hlater ih => exact ih hsteady hx (by omega) hle
  | purge _ ih => exact ih hsteady hx hy hle
  | @perform deeds s now fresh call answer s' hran hfresh hdone ih =>
      by_cases hdelete : call = .delete key
      · rw [(history_of_delete _ hdelete).1] at hx
        exact absurd hx List.not_mem_nil
      · cases hadmits : Deed.admits? key ⟨now, call, answer⟩ with
        | none =>
            rw [(history_of_none _ hdelete hadmits).1] at hx ⊢
            exact ih hsteady.tail hx hy hle
        | some stamp =>
            rcases admits?_eq_some.1 hadmits with ⟨length, limit, ttl, _, hcall, _, _⟩
            have hstamp : stamp = offset + now :=
              (hsteady _ List.mem_cons_self stamp length limit ttl hcall).stamp_eq
            subst hstamp
            rw [(history_of_admits _ hadmits).1, RateWindow.mem_insertSorted] at hx ⊢
            rcases hx with hfree | hx
            · -- The stamp that was given is the first one after those that are taken.
              by_cases hsame : y = x
              · exact Or.inl (hsame.trans hfree)
              · exact Or.inr (RateWindow.mem_of_lt_firstFree (by omega) (by omega))
            · exact Or.inr (ih hsteady.tail hx hy hle)

/-- The stamp that a request at the pace of the clock gets lies after all others. -/
theorem Ran.lt_firstFree (h : Ran deeds s now) (hsteady : Steady key offset window deeds) {x : Int}
    (hx : x ∈ history key deeds) : x < RateWindow.firstFree (offset + now) (history key deeds) := by
  have hge := RateWindow.firstFree_ge (offset + now) (history key deeds)
  have hfree : RateWindow.firstFree (offset + now) (history key deeds) ∉ history key deeds :=
    RateWindow.firstFree_not_mem (history_sorted key deeds)
  rcases Int.lt_or_le x (RateWindow.firstFree (offset + now) (history key deeds)) with hlt | hle
  · exact hlt
  · exact absurd (h.packed hsteady hx hge hle) hfree

/-! ## What the store keeps -/

/-- The store keeps what the history has, until it is forgotten, and no stamp of
the history is ahead of that time by less than the window. -/
structure Mirrors (key : String) (offset : Int) (window : Span) (deeds : List Deed) (s : LocalStore)
    (now : Nat) : Prop where
  kept : ∀ later, now ≤ later → ∀ instant low, RecordedUpTo key instant deeds →
    windowStart instant window ≤ low →
    (s.stampsAt later key).filter (low ≤ ·) =
      if IsForgotten key deeds later then [] else (history key deeds).filter (low ≤ ·)
  passed : ∀ moment, keptUntil key deeds = some moment → ∀ x ∈ history key deeds,
    x + window.nanos < offset + moment

/-- Once the last admission is forgotten, no stamp of the history counts for an
instant that does not lag behind the clock. -/
theorem Mirrors.filter_eq_nil (h : Mirrors key offset window deeds s now) {later : Nat}
    (hgone : IsForgotten key deeds later) {instant low : Int} (hpace : offset + later ≤ instant)
    (hlow : windowStart instant window ≤ low) : (history key deeds).filter (low ≤ ·) = [] := by
  rcases hgone with ⟨moment, hmoment, hle⟩
  rw [List.filter_eq_nil_iff]
  intro x hx hin
  have hpassed := h.passed moment hmoment x hx
  have hcounts : low ≤ x := of_decide_eq_true hin
  unfold windowStart at hlow
  omega

/-- For an instant that does not lag behind the clock, the store keeps what the
history has. -/
theorem Mirrors.filter_eq (h : Mirrors key offset window deeds s now) {instant low : Int}
    (hupto : RecordedUpTo key instant deeds) (hpace : offset + now ≤ instant)
    (hlow : windowStart instant window ≤ low) :
    (s.stampsAt now key).filter (low ≤ ·) = (history key deeds).filter (low ≤ ·) := by
  rw [h.kept now (Nat.le_refl now) instant low hupto hlow]
  by_cases hgone : IsForgotten key deeds now
  · rw [if_pos hgone, h.filter_eq_nil hgone hpace hlow]
  · rw [if_neg hgone]

/-- A request that keeps pace finds the stamps of the history. -/
theorem Mirrors.live_eq (h : Mirrors key offset window deeds s now) (hran : Ran deeds s now)
    (hsteady : Steady key offset window deeds) :
    (s.stampsAt now key).filter (windowStart (offset + now) window ≤ ·) =
      (history key deeds).filter (windowStart (offset + now) window ≤ ·) :=
  h.filter_eq (hran.recordedUpTo hsteady) (Int.le_refl _) (Int.le_refl _)

/-- An empty store mirrors that nothing was done. -/
theorem Mirrors.start (key : String) (offset : Int) (window : Span) (now : Nat) :
    Mirrors key offset window [] .empty now := by
  refine ⟨fun later _ instant low _ _ => ?_, fun moment hmoment => nomatch hmoment⟩
  simp [LocalStore.stampsAt, LocalStore.empty, history]

/-- What mirrors the deeds does so as time passes. -/
theorem Mirrors.elapse {later : Nat} (h : Mirrors key offset window deeds s now)
    (hle : now ≤ later) : Mirrors key offset window deeds s later :=
  ⟨fun t ht => h.kept t (Nat.le_trans hle ht), h.passed⟩

/-- It does so after it was purged. -/
theorem Mirrors.purge (h : Mirrors key offset window deeds s now) (hs : s.windows.KeysDistinct) :
    Mirrors key offset window deeds (s.purge now) now := by
  refine ⟨fun later hle instant low hupto hlow => ?_, h.passed⟩
  rw [LocalStore.stampsAt_purge hs hle]
  exact h.kept later hle instant low hupto hlow

section

variable {s' : LocalStore} {fresh : Token} {call : Call} {answer : Answer}

/-- What adds nothing to the history keeps the mirror, if it prunes only stamps that are too
old for any later instant. -/
theorem Mirrors.of_admits_none (h : Mirrors key offset window deeds s now) {d : Deed}
    (hdelete : d.call ≠ .delete key) (hnone : d.admits? key = none)
    (hpruned : ∀ later, now ≤ later → ∀ instant low, RecordedUpTo key instant (d :: deeds) →
      windowStart instant window ≤ low →
      (s'.stampsAt later key).filter (low ≤ ·) = (s.stampsAt later key).filter (low ≤ ·)) :
    Mirrors key offset window (d :: deeds) s' now := by
  have hsame := history_of_none deeds hdelete hnone
  refine ⟨fun later hle instant low hupto hlow => ?_, fun moment hmoment x hx => ?_⟩
  · rw [hpruned later hle instant low hupto hlow, h.kept later hle instant low hupto.tail hlow]
    simp only [isForgotten_congr hsame.2, hsame.1]
  · rw [hsame.2] at hmoment
    rw [hsame.1] at hx
    exact h.passed moment hmoment x hx

/-- It does so after a call that spares the window. -/
theorem Mirrors.spare (h : Mirrors key offset window deeds s now)
    (hdone : s.perform now fresh call = .ok (answer, s')) (hspares : call.SparesWindow key) :
    Mirrors key offset window (⟨now, call, answer⟩ :: deeds) s' now := by
  have hdelete : call ≠ .delete key := by
    intro hcall
    rw [hcall] at hspares
    exact hspares rfl
  refine h.of_admits_none hdelete (admits?_of_spares hspares) fun later _ _ _ _ _ => ?_
  rw [LocalStore.stampsAt_of_spares hdone hspares]

/-- It does so after the window was deleted. -/
theorem Mirrors.delete (hdone : s.perform now fresh (.delete key) = .ok (answer, s')) :
    Mirrors key offset window (⟨now, .delete key, answer⟩ :: deeds) s' now := by
  have hdelete : (⟨now, .delete key, answer⟩ : Deed).call = .delete key := rfl
  have hnone := history_of_delete deeds hdelete
  refine ⟨fun later _ instant low _ _ => ?_, fun moment hmoment => ?_⟩
  · rw [(LocalStore.perform_delete hdone).2, hnone.1]
    simp [LocalStore.stampsAt, LocalStore.delete]
  · rw [hnone.2] at hmoment
    cases hmoment

/-- A request that is refused prunes what is too old for any later instant. -/
theorem Mirrors.refuse {stamp : Int} {ttl : Span} {limit count : Nat} {oldest : Option Int}
    {entry : RateWindow} {live : List Int} (h : Mirrors key offset window deeds s now)
    (hentry : (s.windows.lookup key).getD .empty = entry)
    (hlive : live = (s.stampsAt now key).filter (windowStart stamp window ≤ ·)) :
    Mirrors key offset window
      (⟨now, .recordInWindow key stamp window limit ttl, .window ⟨false, count, oldest⟩⟩ :: deeds)
      { s with windows := s.windows.insert key ⟨live, entry.expiresAt⟩ } now := by
  refine h.of_admits_none (by simp) (admits?_window _ _ _ _ _ _)
    fun later hle instant low hupto hlow => ?_
  have hnow := hupto _ List.mem_cons_self _ _ _ _ rfl
  have hpruned := Int.le_trans (windowStart_mono hnow window) hlow
  rw [LocalStore.stampsAt_of_refused hle hentry hlive, filter_filter_of_le hpruned]

/-- A request that keeps pace is admitted under a stamp that is too old by the time
it is forgotten. -/
theorem Mirrors.admit {ttl : Span} {limit count : Nat} {oldest : Option Int} {live : List Int}
    (h : Mirrors key offset window deeds s now) (hran : Ran deeds s now)
    (hsteady : Steady key offset window deeds)
    (hpace : KeepsPace offset window now (offset + now) window limit ttl)
    (hlive : live = (s.stampsAt now key).filter (windowStart (offset + now) window ≤ ·))
    (hroom : live.length < limit) :
    Mirrors key offset window
      (⟨now, .recordInWindow key (offset + now) window limit ttl, .window ⟨true, count, oldest⟩⟩ ::
        deeds)
      { s with windows := s.windows.insert key ⟨RateWindow.insertSorted
        (RateWindow.firstFree (offset + now) live) live, some (now + ttl.nanos)⟩ } now := by
  let d : Deed :=
    ⟨now, .recordInWindow key (offset + now) window limit ttl, .window ⟨true, count, oldest⟩⟩
  have hadmitted : d.admits? key = some (offset + now) := admits?_window _ _ _ _ _ _
  have hnext := history_of_admits deeds hadmitted
  have hstart := windowStart_le (offset + now) window hpace.low
  rw [h.live_eq hran hsteady] at hlive
  rw [hlive] at hroom
  refine ⟨fun later hle instant low hupto hlow => ?_, fun moment hmoment x hx => ?_⟩
  · have hnow := hupto _ List.mem_cons_self _ _ _ _ rfl
    have hpruned := Int.le_trans (windowStart_mono hnow window) hlow
    have hgone : IsForgotten key (d :: deeds) later ↔ now + ttl.nanos ≤ later := by
      unfold IsForgotten
      rw [hnext.2]
      simp [d, Deed.keepsUntil]
    rw [LocalStore.stampsAt_of_admitted, hnext.1, hlive]
    by_cases hexpired : now + ttl.nanos ≤ later
    · rw [if_pos hexpired, if_pos (hgone.2 hexpired)]
      rfl
    · rw [if_neg hexpired, if_neg (fun hforgotten => hexpired (hgone.1 hforgotten)),
        RateWindow.firstFree_filter hstart, RateWindow.filter_insertSorted,
        RateWindow.filter_insertSorted, filter_filter_of_le hpruned]
  · have hfree := RateWindow.firstFree_le (offset + now)
      ((history key deeds).filter (windowStart (offset + now) window ≤ ·))
    rw [RateWindow.firstFree_filter hstart] at hfree
    have hmax : x ≤ RateWindow.firstFree (offset + now) (history key deeds) := by
      rw [hnext.1, RateWindow.mem_insertSorted] at hx
      rcases hx with rfl | hx
      · exact Int.le_refl _
      · exact Int.le_of_lt (hran.lt_firstFree hsteady hx)
    have hmoment' : moment = now + ttl.nanos := by
      rw [hnext.2] at hmoment
      exact (Option.some.inj hmoment).symm
    have hlong := hpace.outlasts
    omega

/-- It does so after a request was recorded in the window. -/
theorem Mirrors.record {length ttl : Span} {limit : Nat} (h : Mirrors key offset window deeds s now)
    (hran : Ran deeds s now) (hsteady : Steady key offset window deeds)
    (hpace : KeepsPace offset window now (offset + now) length limit ttl)
    (hdone : s.perform now fresh (.recordInWindow key (offset + now) length limit ttl) =
      .ok (answer, s')) :
    Mirrors key offset window
      (⟨now, .recordInWindow key (offset + now) length limit ttl, answer⟩ :: deeds) s' now := by
  have hlength := hpace.length_eq
  subst hlength
  rcases LocalStore.perform_record_cases hdone with
    ⟨_, rfl, entry, hentry, rfl⟩ | ⟨hroom, stamps, rfl, rfl, rfl⟩
  · exact h.refuse hentry rfl
  · exact h.admit hran hsteady hpace rfl hroom

end

/-- The store mirrors the history throughout. -/
theorem Ran.mirrors (h : Ran deeds s now) (hsteady : Steady key offset window deeds) :
    Mirrors key offset window deeds s now := by
  induction h with
  | start now => exact Mirrors.start key offset window now
  | elapse _ hle ih => exact (ih hsteady).elapse hle
  | purge hran ih => exact (ih hsteady).purge hran.distinct.windows
  | @perform deeds s now fresh call answer s' hran hfresh hdone ih =>
      have hbefore := ih hsteady.tail
      by_cases hspares : call.SparesWindow key
      · exact hbefore.spare hdone hspares
      · cases call with
        | delete k =>
            have hk : k = key := Decidable.not_not.1 hspares
            subst hk
            exact Mirrors.delete hdone
        | recordInWindow k stamp length limit ttl =>
            have hk : k = key := Decidable.not_not.1 hspares
            subst hk
            have hpace := hsteady _ List.mem_cons_self stamp length limit ttl rfl
            have hstamp : stamp = offset + now := hpace.stamp_eq
            subst hstamp
            exact hbefore.record hran hsteady.tail hpace hdone
        | _ => exact absurd trivial hspares

/-! ## Answers -/

/-- A request whose stamps and whose end are in range is answered. -/
theorem LocalStore.perform_record_ok {stamp : Int} {ttl : Span} {limit : Nat} (s : LocalStore)
    (fresh : Token) (key : String) (window : Span)
    (hstamp : stamp + limit ≤ Timestamp.maxStamp) (hend : now + ttl.nanos < Moment.bound) :
    ∃ answer s', s.perform now fresh (.recordInWindow key stamp window limit ttl) =
      .ok (answer, s') := by
  have hfree := RateWindow.firstFree_le stamp
    ((s.stampsAt now key).filter (windowStart stamp window ≤ ·))
  by_cases hfull : limit ≤ ((s.stampsAt now key).filter (windowStart stamp window ≤ ·)).length
  · exact ⟨_, _, perform_record_refused rfl hfull fresh ttl⟩
  · exact ⟨_, _, perform_record_admitted rfl (by omega) (by omega) (expiry_ok hend) fresh⟩

/-- What a request is answered, said of the history before it and after it. -/
structure AnsweredFrom (before after : List Int) (stamp : Int) (window : Span) (limit : Nat)
    (outcome : WindowOutcome) : Prop where
  admitted_iff : outcome.admitted = true ↔ before.countP (windowStart stamp window ≤ ·) < limit
  count_eq : outcome.count =
    before.countP (windowStart stamp window ≤ ·) + if outcome.admitted then 1 else 0
  oldest_eq : outcome.oldest = (after.filter (windowStart stamp window ≤ ·)).min?

/-- A request that keeps pace is answered from the history. -/
theorem Ran.record_answer {stamp : Int} {limit : Nat} {ttl : Span} (h : Ran deeds s now)
    (hsteady : Steady key offset window deeds)
    (hpace : KeepsPace offset window now stamp window limit ttl)
    (hend : now + ttl.nanos < Moment.bound) (fresh : Token) :
    ∃ outcome s',
      s.perform now fresh (.recordInWindow key stamp window limit ttl) = .ok (.window outcome, s') ∧
      AnsweredFrom (history key deeds)
        (history key (⟨now, .recordInWindow key stamp window limit ttl, .window outcome⟩ :: deeds))
        stamp window limit outcome := by
  have hstamp := hpace.stamp_eq
  subst hstamp
  have hstart := windowStart_le (offset + now) window hpace.low
  have hlive := (h.mirrors hsteady).live_eq h hsteady
  rcases s.perform_record_ok fresh key window hpace.high hend with ⟨answer, s', hdone⟩
  have hcases := LocalStore.perform_record_cases hdone
  rw [hlive] at hcases
  rcases hcases with ⟨hfull, rfl, _⟩ | ⟨hroom, stamps, rfl, rfl, _⟩
  · refine ⟨_, s', hdone, ?_, ?_, ?_⟩
    · rw [← List.countP_eq_length_filter] at hfull
      simp only [Bool.false_eq_true, false_iff]
      omega
    · simp [List.countP_eq_length_filter]
    · rw [(history_of_none deeds (by simp) (admits?_window _ _ _ _ _ _)).1,
        min?_eq_head? ((history_sorted key deeds).filter _)]
  · refine ⟨_, s', hdone, ?_, ?_, ?_⟩
    · rw [← List.countP_eq_length_filter] at hroom
      simpa using hroom
    · simp [List.countP_eq_length_filter]
    · have hsorted := history_sorted key deeds
      have hfree := RateWindow.firstFree_ge (offset + now) (history key deeds)
      rw [(history_of_admits deeds (admits?_window _ _ _ _ _ _)).1,
        RateWindow.filter_insertSorted, if_pos (Int.le_trans hstart hfree),
        RateWindow.firstFree_filter hstart, min?_eq_head?]
      apply RateWindow.pairwise_insertSorted (hsorted.filter _)
      intro hmem
      exact RateWindow.firstFree_not_mem hsorted (List.mem_filter.1 hmem).1

/-- A count is the number of stamps that the store keeps from its start on. -/
theorem LocalStore.count_eq (s : LocalStore) (now : Nat) (key : String) (stamp : Int)
    (window : Span) :
    s.count now key stamp window = (s.stampsAt now key).countP (windowStart stamp window ≤ ·) := by
  rw [List.countP_eq_length_filter, ← liveStamps_eq]
  unfold count
  cases s.windows.lookup key <;> rfl

/-- A count is answered from the history, until that is forgotten. -/
theorem Ran.count_answer {stamp : Int} (h : Ran deeds s now)
    (hsteady : Steady key offset window deeds) (hupto : RecordedUpTo key stamp deeds) :
    s.count now key stamp window =
      if IsForgotten key deeds now then 0
      else (history key deeds).countP (windowStart stamp window ≤ ·) := by
  rw [LocalStore.count_eq, List.countP_eq_length_filter,
    (h.mirrors hsteady).kept now (Nat.le_refl now) stamp _ hupto (Int.le_refl _)]
  by_cases hgone : IsForgotten key deeds now
  · rw [if_pos hgone, if_pos hgone]
    rfl
  · rw [if_neg hgone, if_neg hgone, List.countP_eq_length_filter]

/-- Requests and counts are answered from the history, which has no stamp twice and
which the store keeps as far as it still counts.  This holds of every request that
keeps pace, and of every count whose instant does not lag behind the clock or that
comes before the last admission is forgotten; a count that comes later and lags
behind is zero. -/
theorem Ran.answers_from_history (h : Ran deeds s now)
    (hsteady : Steady key offset window deeds) :
    (history key deeds).Nodup ∧
    (s.stampsAt now key).filter (windowStart (offset + now) window ≤ ·) =
      (history key deeds).filter (windowStart (offset + now) window ≤ ·) ∧
    (∀ stamp limit ttl fresh, KeepsPace offset window now stamp window limit ttl →
      now + ttl.nanos < Moment.bound →
      ∃ outcome s',
        s.perform now fresh (.recordInWindow key stamp window limit ttl) =
          .ok (.window outcome, s') ∧
        AnsweredFrom (history key deeds)
          (history key (⟨now, .recordInWindow key stamp window limit ttl, .window outcome⟩ :: deeds))
          stamp window limit outcome) ∧
    (∀ stamp fresh, RecordedUpTo key stamp deeds →
      ∃ n, s.perform now fresh (.countInWindow key stamp window) = .ok (.count n, s) ∧
        (offset + now ≤ stamp ∨ ¬ IsForgotten key deeds now →
          n = (history key deeds).countP (windowStart stamp window ≤ ·)) ∧
        (IsForgotten key deeds now → n = 0)) := by
  have hmirrors := h.mirrors hsteady
  refine ⟨(history_sorted key deeds).imp Int.ne_of_lt, hmirrors.live_eq h hsteady, ?_, ?_⟩
  · intro stamp limit ttl fresh hpace hend
    exact h.record_answer hsteady hpace hend fresh
  · intro stamp fresh hupto
    have hcount := h.count_answer hsteady hupto
    refine ⟨_, rfl, ?_, ?_⟩
    · rintro (hpace | hkept)
      · rw [LocalStore.count_eq, List.countP_eq_length_filter, List.countP_eq_length_filter,
          (h.mirrors hsteady).filter_eq hupto hpace (Int.le_refl _)]
      · rw [hcount, if_neg hkept]
    · intro hgone
      rw [hcount, if_pos hgone]

end

/-! ## A count that lags behind -/

/-- A request at the instant zero of the clock, in a window of ten nanoseconds with
room for one, kept for eleven. -/
def onlyRequest : Deed :=
  ⟨0, .recordInWindow "k" 0 ⟨10⟩ 1 ⟨11⟩, .window ⟨true, 1, some 0⟩⟩

/-- The store that carried it out. -/
def onlyRequestStore : LocalStore :=
  ⟨.empty, .empty, ⟨[("k", ⟨[0], some 11⟩)]⟩⟩

/-- The request was made of an empty store. -/
theorem onlyRequest_ran (later : Nat) : Ran [onlyRequest] onlyRequestStore later := by
  have hdone : LocalStore.empty.perform 0 (.issued 0) onlyRequest.call =
      .ok (onlyRequest.answer, onlyRequestStore) := rfl
  exact ((Ran.start 0).perform (fun _ hd => absurd hd List.not_mem_nil) hdone).elapse (Nat.zero_le later)

/-- It keeps pace with the clock. -/
theorem onlyRequest_steady : Steady "k" 0 ⟨10⟩ [onlyRequest] := by
  intro d hd stamp length limit ttl hcall
  rw [List.mem_singleton.1 hd] at hcall ⊢
  cases hcall
  exact ⟨rfl, rfl, by decide, by decide, by decide⟩

/-- It is recorded at the beginning of 1970. -/
theorem onlyRequest_upTo : RecordedUpTo "k" 0 [onlyRequest] := by
  intro d hd stamp length limit ttl hcall
  rw [List.mem_singleton.1 hd] at hcall
  cases hcall
  exact Int.le_refl 0

/-- Twenty nanoseconds later a count at the instant of the request is zero, though
the request lies in the window that ends there. -/
theorem lagging_count_is_zero :
    Ran [onlyRequest] onlyRequestStore 20 ∧ Steady "k" 0 ⟨10⟩ [onlyRequest] ∧
      RecordedUpTo "k" 0 [onlyRequest] ∧
      onlyRequestStore.perform 20 (.issued 1) (.countInWindow "k" 0 ⟨10⟩) =
        .ok (.count 0, onlyRequestStore) ∧
      (history "k" [onlyRequest]).countP (windowStart 0 ⟨10⟩ ≤ ·) = 1 :=
  ⟨onlyRequest_ran 20, onlyRequest_steady, onlyRequest_upTo, rfl, by decide⟩

/-- Five nanoseconds later the window is full, and a count at the instant of the
request finds it. -/
theorem onlyRequest_counts :
    Ran [onlyRequest] onlyRequestStore 5 ∧ Steady "k" 0 ⟨10⟩ [onlyRequest] ∧
      RecordedUpTo "k" 0 [onlyRequest] ∧ KeepsPace 0 ⟨10⟩ 5 5 ⟨10⟩ 1 ⟨11⟩ ∧
      (∃ outcome s', onlyRequestStore.perform 5 (.issued 1)
          (.recordInWindow "k" 5 ⟨10⟩ 1 ⟨11⟩) = .ok (.window outcome, s') ∧
        outcome.admitted = false ∧ outcome.count = 1) ∧
      onlyRequestStore.perform 5 (.issued 1) (.countInWindow "k" 0 ⟨10⟩) =
        .ok (.count 1, onlyRequestStore) := by
  have hpace : KeepsPace 0 ⟨10⟩ 5 5 ⟨10⟩ 1 ⟨11⟩ := ⟨rfl, rfl, by decide, by decide, by decide⟩
  rcases (onlyRequest_ran 5).answers_from_history onlyRequest_steady with
    ⟨_, _, hrequests, hcounts⟩
  refine ⟨onlyRequest_ran 5, onlyRequest_steady, onlyRequest_upTo, hpace, ?_, ?_⟩
  · rcases hrequests 5 1 ⟨11⟩ (.issued 1) hpace (by decide) with ⟨outcome, s', hdone, hanswer⟩
    have hrefused : outcome.admitted = false := by
      rw [← Bool.not_eq_true, hanswer.admitted_iff]
      decide
    have hcount := hanswer.count_eq
    rw [hrefused] at hcount
    exact ⟨outcome, s', hdone, hrefused, hcount⟩
  · rcases hcounts 0 (.issued 1) onlyRequest_upTo with ⟨n, hdone, hkept, _⟩
    rw [hdone, hkept (Or.inr (by decide))]
    rfl

end Turnstile.Store

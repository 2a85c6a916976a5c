import Mathlib.Order.Bounds.Basic
import Turnstile.Proofs.Store.PlainHistory

/-!
# The search for a free stamp

A window holds every stamp once, and two requests may come within one nanosecond.  So the
stamp of a request is put in by a loop: while it is taken, it is moved on by one.  No counter
bounds the loop.  It ends because every move leaves a taken stamp behind, and only so many of
them lie ahead.

The store passes over its stamps once instead, by `RateWindow.firstFree`.  This module has
the loop as it goes, with the number of its moves, and with its failure where the next stamp
would be out of range.

Main results:

- Theorem `RateWindow.isLeast_of_seek`: wherever the loop ends, it ends at the least free
  stamp.
- Theorem `RateWindow.exists_ends`: it ends, within as many moves as taken stamps lie ahead.
- Theorem `RateWindow.Ends.eq_firstFree`: in a window that is where `firstFree` ends.
- Theorem `record_adds_first_free`: a request that is admitted adds the stamp at which its
  loop ends, and keeps all others.
-/

namespace Turnstile.Store

namespace RateWindow

variable {stamps : List Int} {stamp free : Int} {moves : Nat}

/-! ## The loop -/

/-- The taken stamps from one on are those from the next one on, and that one. -/
theorem countP_le_eq (stamps : List Int) (stamp : Int) :
    stamps.countP (stamp ≤ ·) = stamps.countP (stamp + 1 ≤ ·) + stamps.count stamp := by
  induction stamps with
  | nil => rfl
  | cons first rest ih =>
      simp only [List.countP_cons, List.count_cons, ih, decide_eq_true_eq, beq_iff_eq]
      split <;> split <;> split <;> omega

/-- A move from a stamp that is taken leaves fewer taken stamps ahead. -/
theorem countP_succ_lt (htaken : stamp ∈ stamps) :
    stamps.countP (stamp + 1 ≤ ·) < stamps.countP (stamp ≤ ·) := by
  have hcount : 0 < stamps.count stamp := List.count_pos_iff.2 htaken
  have hsplit := countP_le_eq stamps stamp
  omega

/-- The search for a free stamp: how often it moves on, and where it ends.  It fails where it
would have to move past the largest stamp. -/
def seek (stamps : List Int) (stamp : Int) : Option (Nat × Int) :=
  if stamp ∈ stamps then
    if stamp < Timestamp.maxStamp then
      (seek stamps (stamp + 1)).map fun (moves, free) => (moves + 1, free)
    else none
  else some (0, stamp)
termination_by stamps.countP (stamp ≤ ·)
decreasing_by exact countP_succ_lt ‹_›

/-! ## Where it ends -/

/-- A stamp that is taken is none of the free ones. -/
theorem free_from_succ (htaken : stamp ∈ stamps) :
    {x | stamp + 1 ≤ x ∧ x ∉ stamps} = {x | stamp ≤ x ∧ x ∉ stamps} := by
  ext x
  constructor
  · rintro ⟨hle, hfree⟩
    exact ⟨by omega, hfree⟩
  · rintro ⟨hle, hfree⟩
    have hne : x ≠ stamp := by
      rintro rfl
      exact hfree htaken
    exact ⟨by omega, hfree⟩

/-- Wherever the search ends, it ends at the least free stamp, which is as far away as it has
moved. -/
theorem isLeast_of_seek (h : seek stamps stamp = some (moves, free)) :
    IsLeast {x | stamp ≤ x ∧ x ∉ stamps} free ∧ free = stamp + moves := by
  induction stamp using seek.induct stamps generalizing moves with
  | case1 stamp htaken hlt ih =>
      rw [seek, if_pos htaken, if_pos hlt] at h
      obtain ⟨⟨rest, end'⟩, hrest, heq⟩ := Option.map_eq_some_iff.1 h
      simp only [Prod.mk.injEq] at heq
      obtain ⟨rfl, rfl⟩ := heq
      obtain ⟨hleast, hfar⟩ := ih hrest
      rw [free_from_succ htaken] at hleast
      exact ⟨hleast, by push_cast; omega⟩
  | case2 stamp htaken hge =>
      rw [seek, if_pos htaken, if_neg hge] at h
      exact nomatch h
  | case3 stamp hfree =>
      rw [seek, if_neg hfree] at h
      simp only [Option.some.injEq, Prod.mk.injEq] at h
      obtain ⟨rfl, rfl⟩ := h
      exact ⟨⟨⟨Int.le_refl _, hfree⟩, fun x hx => hx.1⟩, by simp⟩

/-- Where all the taken stamps ahead can be passed in range, the search ends, and moves past
no more than those. -/
theorem exists_seek (hrange : stamp + stamps.countP (stamp ≤ ·) ≤ Timestamp.maxStamp) :
    ∃ moves free, seek stamps stamp = some (moves, free) ∧
      moves ≤ stamps.countP (stamp ≤ ·) := by
  induction stamp using seek.induct stamps with
  | case1 stamp htaken hlt ih =>
      have hfewer := countP_succ_lt htaken
      obtain ⟨rest, free, hrest, hle⟩ := ih (by omega)
      refine ⟨rest + 1, free, ?_, by omega⟩
      rw [seek, if_pos htaken, if_pos hlt, hrest]
      rfl
  | case2 stamp htaken hge =>
      have hfewer := countP_succ_lt htaken
      omega
  | case3 stamp hfree =>
      refine ⟨0, stamp, ?_, Nat.zero_le _⟩
      rw [seek, if_neg hfree]

/-- A search among the taken stamps ends with a free one, in range. -/
structure Ends (stamps : List Int) (stamp : Int) (moves : Nat) (free : Int) : Prop where
  found : seek stamps stamp = some (moves, free)
  /-- No more moves are made than taken stamps lie ahead. -/
  moves_le : moves ≤ stamps.countP (stamp ≤ ·)
  in_range : free ≤ Timestamp.maxStamp
  least : IsLeast {x | stamp ≤ x ∧ x ∉ stamps} free

/-- Every search ends if there is room for as many stamps as there are. -/
theorem exists_ends (hrange : stamp + stamps.length ≤ Timestamp.maxStamp) :
    ∃ moves free, Ends stamps stamp moves free := by
  have hcount : stamps.countP (stamp ≤ ·) ≤ stamps.length := List.countP_le_length
  have hahead : stamp + stamps.countP (stamp ≤ ·) ≤ Timestamp.maxStamp := by omega
  obtain ⟨moves, free, hfound, hmoves⟩ := exists_seek hahead
  obtain ⟨hleast, hfar⟩ := isLeast_of_seek hfound
  exact ⟨moves, free, hfound, hmoves, by omega, hleast⟩

/-! ## In one pass -/

/-- In increasing stamps, one pass finds the least free stamp. -/
theorem isLeast_firstFree (hordered : stamps.Pairwise (· < ·)) (stamp : Int) :
    IsLeast {x | stamp ≤ x ∧ x ∉ stamps} (firstFree stamp stamps) := by
  refine ⟨⟨firstFree_ge stamp stamps, firstFree_not_mem hordered⟩, ?_⟩
  rintro x ⟨hle, hfree⟩
  by_contra hlt
  exact hfree (mem_of_lt_firstFree hle (by omega))

/-- The loop ends where the one pass does. -/
theorem Ends.eq_firstFree (h : Ends stamps stamp moves free)
    (hordered : stamps.Pairwise (· < ·)) : free = firstFree stamp stamps :=
  h.least.unique (isLeast_firstFree hordered stamp)

/-- The stamps are those before, in their order, and a new one. -/
structure Adds (before : List Int) (free : Int) (after : List Int) : Prop where
  ordered : after.Pairwise (· < ·)
  mem_iff : ∀ x, x ∈ after ↔ x = free ∨ x ∈ before
  length : after.length = before.length + 1

/-- The stamp at which a search ends is a new one. -/
theorem Ends.adds (h : Ends stamps stamp moves free) (hordered : stamps.Pairwise (· < ·)) :
    Adds stamps free (insertSorted free stamps) where
  ordered := pairwise_insertSorted hordered h.least.1.2
  mem_iff := fun _ => mem_insertSorted
  length := length_insertSorted free stamps

end RateWindow

/-! ## Requests -/

open RateWindow

/-- The stamps among which a request under a key looks for its own: those of the window that
still count. -/
def LocalStore.found (s : LocalStore) (now : Nat) (key : String) (stamp : Int) (window : Span) :
    List Int :=
  liveStamps ((s.windows.lookup key).getD .empty) now (windowStart stamp window)

/-- A request for which there is room puts in the first free stamp, if its time ends in
range. -/
theorem LocalStore.record_of_room {s : LocalStore} {now : Nat} {key : String} {stamp : Int}
    {window : Span} {limit : Nat} (ttl : Span)
    (hroom : (s.found now key stamp window).length < limit)
    (hrange : firstFree stamp (s.found now key stamp window) ≤ Timestamp.maxStamp) :
    s.record now key stamp window limit ttl = (expiry now ttl).map fun expiresAt =>
      let stamps := insertSorted (firstFree stamp (s.found now key stamp window))
        (s.found now key stamp window)
      (⟨true, (s.found now key stamp window).length + 1, stamps.head?⟩,
        { s with windows := s.windows.insert key ⟨stamps, some expiresAt⟩ }) := by
  unfold LocalStore.found at hroom hrange ⊢
  unfold LocalStore.record
  dsimp only
  rw [if_neg (by omega), if_neg (by omega)]
  cases expiry now ttl <;> rfl

/-- The search of a request ends at the first free stamp.  Whatever stamps a window holds, if
there is room for as many from the request's own stamp on, its loop ends within as many moves
as there are taken stamps ahead, in range, at the least stamp that is free.  A request that
finds those stamps and is below its limit adds that stamp, and keeps all others. -/
theorem record_adds_first_free {stamps : List Int} (hordered : stamps.Pairwise (· < ·))
    {stamp : Int} (hrange : stamp + stamps.length ≤ Timestamp.maxStamp) :
    ∃ moves free after, Ends stamps stamp moves free ∧ Adds stamps free after ∧
      ∀ (s : LocalStore) (now : Nat) (key : String) (window : Span) (limit : Nat) (ttl : Span),
        s.found now key stamp window = stamps → stamps.length < limit →
        s.record now key stamp window limit ttl = (expiry now ttl).map fun expiresAt =>
          (⟨true, after.length, after.head?⟩,
            { s with windows := s.windows.insert key ⟨after, some expiresAt⟩ }) := by
  obtain ⟨moves, free, hends⟩ := exists_ends hrange
  refine ⟨moves, free, _, hends, hends.adds hordered, ?_⟩
  intro s now key window limit ttl hfound hroom
  have hfree := hends.eq_firstFree hordered
  have hin : firstFree stamp (s.found now key stamp window) ≤ Timestamp.maxStamp := by
    rw [hfound, ← hfree]
    exact hends.in_range
  rw [LocalStore.record_of_room ttl (by rw [hfound]; exact hroom) hin, hfound, ← hfree,
    length_insertSorted]

/-! ## A crowded nanosecond -/

/-- A store with one window: three requests in a row, one before them and one after a gap. -/
def crowded : LocalStore :=
  { LocalStore.empty with windows := .insert .empty "k" ⟨[3, 5, 6, 8], some 20⟩ }

/-- A request under the stamp 5 moves past two others and gets the stamp 7. -/
theorem crowded_gets_seven :
    ∃ after, Ends [3, 5, 6, 8] 5 2 7 ∧ Adds [3, 5, 6, 8] 7 after ∧
      crowded.record 0 "k" 5 ⟨10⟩ 9 ⟨30⟩ = .ok (⟨true, after.length, after.head?⟩,
        { crowded with windows := crowded.windows.insert "k" ⟨after, some 30⟩ }) := by
  have hordered : [3, 5, 6, 8].Pairwise (· < · : Int → Int → Prop) := by decide
  have hrange : (5 : Int) + [(3 : Int), 5, 6, 8].length ≤ Timestamp.maxStamp := by decide
  obtain ⟨moves, free, after, hends, hadds, hrecord⟩ := record_adds_first_free hordered hrange
  obtain rfl : free = 7 := hends.eq_firstFree hordered
  obtain rfl : moves = 2 := by
    have hfar := (isLeast_of_seek hends.found).2
    omega
  refine ⟨after, hends, hadds, ?_⟩
  rw [hrecord crowded 0 "k" ⟨10⟩ 9 ⟨30⟩ (by decide) (by decide), expiry_ok (by decide)]
  rfl

end Turnstile.Store

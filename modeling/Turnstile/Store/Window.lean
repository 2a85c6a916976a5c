import Turnstile.Store.Basic

/-!
# Rate windows

A rate window holds the stamps of the requests that were admitted under a key,
in increasing order and each once.  A request whose stamp is taken gets the
next free one.

Main results:

- `firstFree_ge`, `firstFree_not_mem`: the stamp that a request gets is not
  before its own and was not taken.
- `mem_insertSorted`: an insertion adds its stamp and nothing else.
-/

namespace Turnstile.Store

/-- The requests counted under a key. -/
structure RateWindow where
  /-- The stamps of the admitted requests, in increasing order. -/
  stamps : List Int
  /-- When the window is to be forgotten; `none` before the first admission. -/
  expiresAt : Option Nat
  deriving DecidableEq

namespace RateWindow

/-- The window of a key without requests. -/
def empty : RateWindow := ⟨[], none⟩

/-- Whether the window is to be forgotten. -/
def isExpired (w : RateWindow) (now : Nat) : Bool :=
  w.expiresAt.any (· ≤ now)

/-- The stamps that are not before `start`. -/
def live (w : RateWindow) (start : Int) : List Int :=
  w.stamps.filter (start ≤ ·)

/-- The least stamp from the given one on that is not in the increasing list. -/
def firstFree (stamp : Int) : List Int → Int
  | [] => stamp
  | s :: rest =>
      if s < stamp then firstFree stamp rest
      else if s = stamp then firstFree (stamp + 1) rest
      else stamp

/-- Inserts a stamp into an increasing list. -/
def insertSorted (stamp : Int) : List Int → List Int
  | [] => [stamp]
  | s :: rest => if s < stamp then s :: insertSorted stamp rest else stamp :: s :: rest

/-! ## The stamp that a request gets -/

theorem firstFree_ge (stamp : Int) (stamps : List Int) : stamp ≤ firstFree stamp stamps := by
  induction stamps generalizing stamp with
  | nil => simp [firstFree]
  | cons s rest ih =>
      unfold firstFree
      split
      · exact ih stamp
      · split
        · have := ih (stamp + 1); omega
        · exact Int.le_refl _

/-- The stamp that a request gets was not taken. -/
theorem firstFree_not_mem {stamp : Int} {stamps : List Int} (h : stamps.Pairwise (· < ·)) :
    firstFree stamp stamps ∉ stamps := by
  induction stamps generalizing stamp with
  | nil => simp
  | cons s rest ih =>
      obtain ⟨hs, hrest⟩ := List.pairwise_cons.1 h
      unfold firstFree
      split
      · next hlt =>
          have hge := firstFree_ge stamp rest
          simp only [List.mem_cons, not_or]
          exact ⟨by omega, ih hrest⟩
      · split
        · next heq =>
            have hge := firstFree_ge (stamp + 1) rest
            simp only [List.mem_cons, not_or]
            exact ⟨by omega, ih hrest⟩
        · next hlt hne =>
            simp only [List.mem_cons, not_or]
            refine ⟨fun h => hne h.symm, fun hmem => ?_⟩
            have := hs stamp hmem
            omega

/-- An insertion adds its stamp and nothing else. -/
theorem mem_insertSorted {stamp x : Int} {stamps : List Int} :
    x ∈ insertSorted stamp stamps ↔ x = stamp ∨ x ∈ stamps := by
  induction stamps with
  | nil => simp [insertSorted]
  | cons s rest ih =>
      unfold insertSorted
      split
      · simp only [List.mem_cons, ih]; grind
      · simp

theorem length_insertSorted (stamp : Int) (stamps : List Int) :
    (insertSorted stamp stamps).length = stamps.length + 1 := by
  induction stamps with
  | nil => rfl
  | cons s rest ih => unfold insertSorted; split <;> simp [ih]

/-- Inserting a stamp that was not taken keeps the list increasing. -/
theorem pairwise_insertSorted {stamp : Int} {stamps : List Int} (h : stamps.Pairwise (· < ·))
    (hnew : stamp ∉ stamps) : (insertSorted stamp stamps).Pairwise (· < ·) := by
  induction stamps with
  | nil => simp [insertSorted]
  | cons s rest ih =>
      obtain ⟨hs, hrest⟩ := List.pairwise_cons.1 h
      simp only [List.mem_cons, not_or] at hnew
      unfold insertSorted
      split
      · next hlt =>
          refine List.pairwise_cons.2 ⟨fun x hx => ?_, ih hrest hnew.2⟩
          rcases mem_insertSorted.1 hx with rfl | hx
          · exact hlt
          · exact hs x hx
      · next hge =>
          refine List.pairwise_cons.2 ⟨fun x hx => ?_, h⟩
          rcases List.mem_cons.1 hx with rfl | hx
          · omega
          · have := hs x hx; omega

end RateWindow

end Turnstile.Store

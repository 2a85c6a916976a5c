import Turnstile.Proofs.Store.PlainHistory

/-!
# Forgetting what was admitted

The stamps of a rate window are readings of a clock that may be set, and after it was set
back all of them look recent for as long as one likes.  A window is forgotten by another
clock, though, which is never set: when the time is over for which the last admission
under its key was to be kept.  Nothing puts this off but another admission: not a request
that is refused, which prunes the window and leaves its end, nor a count, a purge or a
delete.

Main results:

- Theorem `Ran.stampsAt_of_forgotten`: from that time on the store keeps no stamp.
- Theorem `Ran.admitted_of_forgotten`: the next request is admitted as the first one.
-/

namespace Turnstile.Store

section

variable {key : String} {deeds : List Deed} {s : LocalStore} {now : Nat}

/-- Nothing was admitted under a key since it was last deleted, or what the last
admission keeps is forgotten at a time. -/
def NothingKept (key : String) (deeds : List Deed) (now : Nat) : Prop :=
  ∀ moment, keptUntil key deeds = some moment → moment ≤ now

/-- From the time on at which the last admission is forgotten, the store keeps no stamp,
whatever stamps were admitted and however many requests were refused since. -/
theorem Ran.stampsAt_of_forgotten (h : Ran deeds s now) {later : Nat} (hle : now ≤ later)
    (hgone : NothingKept key deeds later) : s.stampsAt later key = [] := by
  induction h with
  | start now => rfl
  | elapse _ hlater ih => exact ih (Nat.le_trans hlater hle) hgone
  | purge hran ih =>
      rw [LocalStore.stampsAt_purge hran.distinct.windows hle]
      exact ih hle hgone
  | @perform deeds s now fresh call answer s' hran hfresh hdone ih =>
      unfold NothingKept at hgone ih
      by_cases hspares : call.SparesWindow key
      · have hdelete : call ≠ .delete key := by
          rintro rfl
          exact hspares rfl
        rw [(history_of_none deeds hdelete (admits?_of_spares hspares)).2] at hgone
        rw [LocalStore.stampsAt_of_spares hdone hspares]
        exact ih hle hgone
      · cases call with
        | delete k =>
            have hk : k = key := Decidable.not_not.1 hspares
            subst hk
            rw [(LocalStore.perform_delete hdone).2]
            simp [LocalStore.stampsAt, LocalStore.delete]
        | recordInWindow k stamp window limit ttl =>
            have hk : k = key := Decidable.not_not.1 hspares
            subst hk
            rcases LocalStore.perform_record_cases hdone with
              ⟨_, rfl, entry, hentry, rfl⟩ | ⟨_, stamps, _, rfl, rfl⟩
            · rw [(history_of_none deeds (by simp) (admits?_window _ _ _ _ _ _)).2] at hgone
              rw [LocalStore.stampsAt_of_refused hle hentry rfl, ih hle hgone]
              rfl
            · rw [(history_of_admits deeds (admits?_window _ _ _ _ _ _)).2] at hgone
              have hexpired : now + ttl.nanos ≤ later := hgone _ rfl
              rw [LocalStore.stampsAt_of_admitted, if_pos hexpired]
        | _ => exact absurd trivial hspares

/-- A request that is carried out when nothing is kept is admitted as the first one. -/
theorem LocalStore.answer_of_nil {s' : LocalStore} {fresh : Token} {stamp : Int}
    {window ttl : Span} {limit : Nat} {answer : Answer} (hnil : s.stampsAt now key = [])
    (hlimit : 0 < limit)
    (hdone : s.perform now fresh (.recordInWindow key stamp window limit ttl) = .ok (answer, s')) :
    answer = .window ⟨true, 1, some stamp⟩ := by
  have hcases := LocalStore.perform_record_cases hdone
  rw [hnil] at hcases
  rcases hcases with ⟨hfull, _⟩ | ⟨_, stamps, rfl, rfl, _⟩
  · simp only [List.filter_nil, List.length_nil] at hfull
    omega
  · rfl

/-- The next request after the last admission is forgotten is admitted as the first
one. -/
theorem Ran.admitted_of_forgotten (h : Ran deeds s now) (hgone : NothingKept key deeds now)
    (fresh : Token) {stamp : Int} (window : Span) {ttl : Span} {limit : Nat} (hlimit : 0 < limit)
    (hstamp : stamp ≤ Timestamp.maxStamp) (hend : now + ttl.nanos < Moment.bound) :
    ∃ s', s.perform now fresh (.recordInWindow key stamp window limit ttl) =
      .ok (.window ⟨true, 1, some stamp⟩, s') :=
  ⟨_, LocalStore.perform_record_of_nil (h.stampsAt_of_forgotten (Nat.le_refl now) hgone) hlimit
    hstamp (expiry_ok hend) fresh⟩

end

/-! ## Requests that are kept for a span at most -/

/-- A call that records a request under a key keeps it no longer than a span. -/
def Call.KeepsFor (key : String) (span : Nat) : Call → Prop
  | .recordInWindow k _ _ _ ttl => k = key → ttl.nanos ≤ span
  | _ => True

/-- All requests that were admitted under a key lie back by a span. -/
def AdmittedBefore (key : String) (span : Nat) (deeds : List Deed) (now : Nat) : Prop :=
  ∀ d ∈ deeds, (d.admits? key).isSome → d.time + span ≤ now

instance (key : String) (span : Nat) (deeds : List Deed) (now : Nat) :
    Decidable (AdmittedBefore key span deeds now) :=
  inferInstanceAs (Decidable (∀ d ∈ deeds, (d.admits? key).isSome → d.time + span ≤ now))

/-- Where requests are kept for a span at most, nothing is kept once all that were
admitted lie back by that span. -/
theorem nothingKept_of_admittedBefore {key : String} {span now : Nat} {deeds : List Deed}
    (hkeeps : ∀ d ∈ deeds, d.call.KeepsFor key span)
    (hbefore : AdmittedBefore key span deeds now) : NothingKept key deeds now := by
  induction deeds with
  | nil => exact fun moment hmoment => nomatch hmoment
  | cons d older ih =>
      intro moment hmoment
      by_cases hdelete : d.call = .delete key
      · rw [(history_of_delete older hdelete).2] at hmoment
        exact nomatch hmoment
      · cases hadmits : d.admits? key with
        | none =>
            rw [(history_of_none older hdelete hadmits).2] at hmoment
            exact ih (fun e he => hkeeps e (List.mem_cons_of_mem _ he))
              (fun e he => hbefore e (List.mem_cons_of_mem _ he)) moment hmoment
        | some stamp =>
            rw [(history_of_admits older hadmits).2, Option.some.injEq] at hmoment
            have hlong := hkeeps d List.mem_cons_self
            have hpast := hbefore d List.mem_cons_self (by rw [hadmits]; rfl)
            rcases admits?_eq_some.1 hadmits with ⟨window, limit, ttl, outcome, hcall, _, _⟩
            unfold Deed.keepsUntil at hmoment
            rw [hcall] at hmoment hlong
            have hspan : ttl.nanos ≤ span := hlong rfl
            dsimp only at hmoment
            omega

end Turnstile.Store

import Turnstile.Proofs.Run.Calls
import Turnstile.Proofs.Run.Calm
import Turnstile.Proofs.Store.Reach

/-!
# Tasks that break off, and tasks that do not

A program breaks off where it says so, where its handler does, and where the store
cannot carry out a call at all.  A program that says so nowhere, hands nothing to a
handler and makes no call but such as can be carried out at any time of the run comes
to an end or is cancelled, whatever it is told.

How many requests are counted is a budget.  Each task has its share, which pays for the
calls that it makes, and what was paid bounds the number of stamps in each window.

Main results:

- Theorem `settle_endures`: whoever endures does so until it has to wait, at no more
  than its share.
- Theorem `endures_throughout`: no task breaks off in a run of tasks that endure.
- Theorem `Breaks.call_overflows`: a program breaks off at a call that cannot be carried
  out.
-/

namespace Turnstile.Run

open Store (Answer Call LocalStore Reach)

variable {α β : Type}

/-! ## Programs -/

/-- An instant that may be read: from 1970 on, and with room for a stamp for each request
that is counted. -/
def MayShow (r : Reach) (t : Timestamp) : Prop :=
  0 ≤ t.totalNanos ∧ t.totalNanos + r.requests ≤ Timestamp.maxStamp

/-- A program does not break off by itself, and counts no more requests than its share,
whatever it is told. -/
def Endures (r : Reach) : Nat → Program α → Prop
  | _, .done _ => True
  | _, .crash => False
  | share, .call call _ next => r.Bears call ∧ call.cost ≤ share ∧
      ∀ result, Endures r (share - call.cost) (next result)
  | share, .sleep _ next => Endures r share next
  | share, .now next => ∀ t, MayShow r t → Endures r share (next t)
  | share, .emit _ next => Endures r share next
  | _, .serve _ _ => False
  | share, .fresh next => ∀ n, Endures r share (next n)
  | share, .hold call next => (r.Bears call ∧ call.cost = 0) ∧ Endures r share next
  | share, .unhold next => Endures r share next

section

variable {r : Reach} {share : Nat}

/-- What endures with a share endures with a greater one. -/
theorem Endures.mono {more : Nat} {p : Program α} (h : Endures r share p) (hle : share ≤ more) :
    Endures r more p := by
  induction p generalizing share more with
  | done a => exact trivial
  | crash => exact h.elim
  | call call deadline next ih =>
      exact ⟨h.1, Nat.le_trans h.2.1 hle, fun result =>
        ih result (h.2.2 result) (Nat.sub_le_sub_right hle _)⟩
  | sleep span next ih => exact ih h hle
  | now next ih => exact fun t ht => ih t (h t ht) hle
  | emit event next ih => exact ih h hle
  | serve request next ih => exact h.elim
  | fresh next ih => exact fun n => ih n (h n) hle
  | hold call next ih => exact ⟨h.1, ih h.2 hle⟩
  | unhold next ih => exact ih h hle

/-- A program may be followed by one that counts nothing. -/
theorem Endures.andThen {p : Program α} {g : α → Program β} (h : Endures r share p)
    (hnext : ∀ a, Endures r 0 (g a)) : Endures r share (p >>= g) := by
  show Endures r share (p.bind g)
  induction p generalizing share with
  | done a => exact (hnext a).mono (Nat.zero_le _)
  | crash => exact h.elim
  | call call deadline next ih => exact ⟨h.1, h.2.1, fun result => ih result (h.2.2 result)⟩
  | sleep span next ih => exact ih h
  | now next ih => exact fun t ht => ih t (h t ht)
  | emit event next ih => exact ih h
  | serve request next ih => exact h.elim
  | fresh next ih => exact fun n => ih n (h n)
  | hold call next ih => exact ⟨h.1, ih h.2⟩
  | unhold next ih => exact ih h

end

/-! ## Calls in flight -/

/-- What is still to be paid for a call in flight. -/
def Flight.cost (flight : Flight) : Nat :=
  match flight.phase with
  | .outbound call _ => call.cost
  | .inbound _ => 0

/-- A call in flight can be carried out, if it has not been. -/
def Flight.Endures (r : Reach) (flight : Flight) : Prop :=
  match flight.phase with
  | .outbound call _ => r.Bears call
  | .inbound _ => True

/-- What is still to be paid for a call. -/
def Progress.cost : Progress → Nat
  | .waiting flight => flight.cost
  | _ => 0

/-- A call has been carried out, has failed, or can be carried out. -/
def Progress.Endures (r : Reach) : Progress → Prop
  | .answered _ => True
  | .waiting flight => flight.Endures r
  | .overflow => False

/-- A world whose clocks are in reach, and where no window holds more stamps than
requests were paid for. -/
structure World.Within (r : Reach) (paid : Nat) (w : World) : Prop where
  time : w.mono ≤ r.uptime
  shows : MayShow r w.clocks.now
  counts : w.store.CountsAtMost paid

/-- A call of the given cost has come to a progress, and is paid for out of what there
was. -/
structure Paid (r : Reach) (cost total : Nat) (result : Progress × World) : Prop where
  progress : result.1.Endures r
  cost : result.1.cost ≤ cost
  world : ∃ paid, result.2.Within r paid ∧ paid + result.1.cost ≤ total

section

variable {r : Reach} {w : World} {call : Call} {paid total : Nat}

/-- Carrying out a call pays for it and stays in range. -/
theorem carryOut_endures (hw : w.Within r paid) (hbears : r.Bears call)
    (hle : paid + call.cost ≤ total) (htotal : total ≤ r.requests) (treatment : Treatment) :
    Paid r call.cost total (w.carryOut call treatment) := by
  unfold World.carryOut
  cases treatment.failure with
  | some error => exact ⟨trivial, Nat.zero_le _, paid, hw, Nat.le_trans (Nat.le_add_right _ _) hle⟩
  | none =>
      have hperforms : ∃ answer store,
          w.store.perform w.mono (.issued (w.tokens + 1)) call = .ok (answer, store) ∧
            store.CountsAtMost (paid + call.cost) :=
        LocalStore.perform_in_reach hbears hw.counts hw.time (Nat.le_trans hle htotal)
      rcases hperforms with ⟨answer, store, hdone, hcounts⟩
      have hperform : w.perform call =
          .ok (answer, { w with store := store, tokens := w.tokens + 1 }) := by
        unfold World.perform
        rw [hdone]
        rfl
      dsimp only
      rw [hperform]
      cases treatment.after with
      | none => exact ⟨trivial, Nat.zero_le _, _, ⟨hw.time, hw.shows, hcounts⟩, hle⟩
      | some wait => exact ⟨trivial, Nat.zero_le _, _, ⟨hw.time, hw.shows, hcounts⟩, hle⟩

/-- So does beginning a call. -/
theorem send_endures (hw : w.Within r paid) (hbears : r.Bears call)
    (hle : paid + call.cost ≤ total) (htotal : total ≤ r.requests) :
    Paid r call.cost total (w.send call) := by
  have hbegun : World.Within r paid
      { w with counts := w.counts.next call.operation, calls := call :: w.calls } :=
    ⟨hw.time, hw.shows, hw.counts⟩
  unfold World.send
  dsimp only
  cases (w.plan call.operation (w.counts.next call.operation call.operation)).before with
  | some wait => exact ⟨hbears, Nat.le_refl _, paid, hbegun, hle⟩
  | none => exact carryOut_endures hbegun hbears hle htotal _

/-- So does going on with one. -/
theorem proceed_endures (hw : w.Within r paid) {flight : Flight} (hflight : flight.Endures r)
    (hle : paid + flight.cost ≤ total) (htotal : total ≤ r.requests) :
    Paid r flight.cost total (w.proceed flight) := by
  rcases flight with ⟨phase, due⟩
  cases phase with
  | outbound call treatment => exact carryOut_endures hw hflight hle htotal treatment
  | inbound answer => exact ⟨trivial, Nat.le_refl _, paid, hw, hle⟩

end

/-! ## Waiting -/

/-- Whoever waits goes on at its share, or has not broken off. -/
def Wait.Endures (r : Reach) (share : Nat) : Wait α → Prop
  | .time _ program => Run.Endures r share program
  | .answer flight _ _ _ next => flight.Endures r ∧ flight.cost ≤ share ∧
      ∀ result, Run.Endures r (share - flight.cost) (next result)
  | .response _ _ _ => False
  | .nothing ending _ => ending ≠ .crashed

/-- What is owed can be carried out, and costs nothing. -/
def OwesLittle (r : Reach) (owed : Option Call) : Prop :=
  ∀ call, owed = some call → r.Bears call ∧ call.cost = 0

/-- A standing of somebody who has not broken off, at a share that was not paid yet. -/
structure Standing.Endures (r : Reach) (total : Nat) (st : Standing α) : Prop where
  owed : OwesLittle r st.owed
  world : ∃ paid share, st.world.Within r paid ∧ st.wait.Endures r share ∧ paid + share ≤ total

section

variable {r : Reach} {w : World} {paid share total : Nat}

/-- Who owes nothing owes little. -/
theorem owesLittle_none : OwesLittle r none := nofun

/-- Who ends with a result has not crashed. -/
theorem not_crashed_result (a : α) : (.result a : Ending α) ≠ .crashed := nofun

/-- Whoever endures does so until it has to wait, at no more than its share. -/
theorem settle_endures (handler : Handler) {owed : Option Call} {p : Program α}
    (hp : Endures r share p) (howed : OwesLittle r owed) (hw : w.Within r paid)
    (hle : paid + share ≤ total) (htotal : total ≤ r.requests) :
    (settle handler w owed p).Endures r total := by
  induction p generalizing w owed paid share with
  | done a => exact ⟨owesLittle_none, paid, share, hw, not_crashed_result a, hle⟩
  | crash => exact hp.elim
  | call call deadline next ih =>
      rcases hp with ⟨hbears, hcost, hnext⟩
      have hcall : paid + call.cost ≤ total - (share - call.cost) := by omega
      have hsend := send_endures hw hbears hcall (Nat.le_trans (Nat.sub_le _ _) htotal)
      unfold settle
      rcases hsent : w.send call with ⟨progress, w'⟩
      rw [hsent] at hsend
      rcases hsend with ⟨hprogress, _, paid', hw', hpaid⟩
      simp only at hprogress hpaid hw'
      cases progress with
      | answered result =>
          have hspent : paid' ≤ total - (share - call.cost) := hpaid
          exact ih result (hnext result) howed hw' (by omega)
      | waiting flight =>
          have hspent : paid' + flight.cost ≤ total - (share - call.cost) := hpaid
          refine ⟨howed, paid', (share - call.cost) + flight.cost, hw', ⟨hprogress, ?_, ?_⟩, by omega⟩
          · exact Nat.le_add_left _ _
          · intro result
            rw [Nat.add_sub_cancel]
            exact hnext result
      | overflow => exact hprogress.elim
  | sleep span next ih =>
      unfold settle
      by_cases hzero : span.timerNanos = 0
      · rw [if_pos hzero]
        exact ih hp howed hw hle
      · rw [if_neg hzero]
        exact ⟨howed, paid, share, hw, hp, hle⟩
  | now next ih => exact ih _ (hp _ hw.shows) howed hw hle
  | emit event next ih => exact ih hp howed ⟨hw.time, hw.shows, hw.counts⟩ hle
  | serve request next ih => exact hp.elim
  | fresh next ih => exact ih _ (hp _) howed ⟨hw.time, hw.shows, hw.counts⟩ hle
  | hold call next ih =>
      refine ih hp.2 ?_ hw hle
      intro owed' howed'
      rw [← Option.some.inj howed']
      exact hp.1
  | unhold next ih => exact ih hp owesLittle_none hw hle

/-! ## Steps of a task -/

/-- A task that has not broken off, and what it still may count. -/
structure Task.Endures (r : Reach) (share : Nat) (t : Task α) : Prop where
  wait : t.wait.Endures r share
  owed : OwesLittle r t.owed

variable {t : Task α}

/-- A task that is resumed stays in range. -/
theorem Task.Endures.resume (ht : t.Endures r share) (hw : w.Within r paid)
    (hle : paid + share ≤ total) (htotal : total ≤ r.requests) :
    (t.resume w).Endures r total := by
  rcases t with ⟨wait, owed, handler, cancelAt⟩
  rcases ht with ⟨hwait, howed⟩
  cases wait with
  | time due program => exact settle_endures handler hwait howed hw hle htotal
  | answer flight expires deadline call next =>
      rcases hwait with ⟨hflight, hcost, hnext⟩
      have hpart : paid + flight.cost ≤ total - (share - flight.cost) := by omega
      have hproceed := proceed_endures hw hflight hpart (Nat.le_trans (Nat.sub_le _ _) htotal)
      unfold Task.resume
      dsimp only
      rcases hproceeded : w.proceed flight with ⟨progress, w'⟩
      rw [hproceeded] at hproceed
      rcases hproceed with ⟨hprogress, _, paid', hw', hpaid⟩
      simp only at hprogress hpaid hw'
      cases progress with
      | answered result =>
          have hspent : paid' ≤ total - (share - flight.cost) := hpaid
          exact settle_endures handler (hnext result) howed hw' (by omega) htotal
      | waiting flight' =>
          have hspent : paid' + flight'.cost ≤ total - (share - flight.cost) := hpaid
          refine ⟨howed, paid', (share - flight.cost) + flight'.cost, hw', ⟨hprogress, ?_, ?_⟩, by omega⟩
          · exact Nat.le_add_left _ _
          · intro result
            rw [Nat.add_sub_cancel]
            exact hnext result
      | overflow => exact hprogress.elim
  | response due given next => exact hwait.elim
  | nothing ending time => exact ⟨howed, paid, share, hw, hwait, hle⟩

/-- So does one whose wait expires. -/
theorem Task.Endures.expire (ht : t.Endures r share) (hw : w.Within r paid)
    (hle : paid + share ≤ total) (htotal : total ≤ r.requests) :
    (t.expire w).Endures r total := by
  rcases t with ⟨wait, owed, handler, cancelAt⟩
  rcases ht with ⟨hwait, howed⟩
  cases wait with
  | answer flight expires deadline call next =>
      have hrest : paid + (share - flight.cost) ≤ total := by omega
      exact settle_endures handler (hwait.2.2 _) howed hw hrest htotal
  | _ => exact ⟨howed, paid, share, hw, hwait, hle⟩

/-- So does one that is cancelled. -/
theorem Task.Endures.cancel (ht : t.Endures r share) (hw : w.Within r paid)
    (hle : paid + share ≤ total) : (t.cancel w).Endures r total := by
  unfold Task.cancel
  split
  · exact ⟨ht.owed, paid, share, hw, ht.wait, hle⟩
  · exact ⟨ht.owed, paid, share, hw, nofun, hle⟩

end

/-! ## Runs -/

/-- What all shares make. -/
def allShares : List Nat → Nat
  | [] => 0
  | share :: rest => share + allShares rest

/-- Nobody has broken off, and the shares of all and what was paid make no more than the
requests that may be counted. -/
structure State.Endures (r : Reach) (s : State α) : Prop where
  shares : ∃ (paid : Nat) (shares : List Nat), s.world.Within r paid ∧
    shares.length = s.tasks.length ∧ paid + allShares shares ≤ r.requests ∧
    ∀ (i : Nat) (t : Task α) share, s.tasks[i]? = some t → shares[i]? = some share →
      t.Endures r share
  detached : ∀ flight ∈ s.detached, flight.Endures r ∧ flight.cost = 0

section

variable {r : Reach} {s : State α}

/-- The shares of tasks with one each are as many as the tasks. -/
theorem allShares_ones (n : Nat) : allShares (List.replicate n 1) = n := by
  induction n with
  | zero => rfl
  | succ n ih =>
      simp only [List.replicate_succ, allShares, ih]
      omega

/-- Another share takes the place of one. -/
theorem allShares_set {shares : List Nat} {i share : Nat} (h : shares[i]? = some share)
    (share' : Nat) : allShares (shares.set i share') + share = allShares shares + share' := by
  induction shares generalizing i with
  | nil => exact nomatch h
  | cons first rest ih =>
      cases i with
      | zero =>
          have hfirst : first = share := Option.some.inj h
          simp only [List.set_cons_zero, allShares]
          omega
      | succ i =>
          have hrest := ih (i := i) h
          simp only [List.set_cons_succ, allShares]
          omega

/-- A call that costs nothing and is left behind stays so. -/
theorem endures_keepFlight {detached : List Flight} {progress : Progress}
    (h : ∀ flight ∈ detached, flight.Endures r ∧ flight.cost = 0) (hprogress : progress.Endures r)
    (hcost : progress.cost = 0) :
    ∀ flight ∈ State.keepFlight detached progress, flight.Endures r ∧ flight.cost = 0 := by
  intro flight hmem
  rcases mem_keepFlight hmem with hmem | hwaiting
  · exact h flight hmem
  · rw [hwaiting] at hprogress hcost
    exact ⟨hprogress, hcost⟩

/-- A step of a task that endures. -/
theorem State.Endures.step (h : s.Endures r) (i : Nat) {go : Task α → World → Standing α}
    (hgo : ∀ (t : Task α) w paid share total, t.Endures r share → w.Within r paid →
      paid + share ≤ total → total ≤ r.requests → (go t w).Endures r total) :
    (s.step i go).Endures r := by
  rcases h with ⟨⟨paid, shares, hw, hlength, htotal, htasks⟩, hdetached⟩
  unfold State.step
  cases ht : s.tasks[i]? with
  | none => exact ⟨⟨paid, shares, hw, hlength, htotal, htasks⟩, hdetached⟩
  | some t =>
      have hlt : i < shares.length := hlength ▸ (List.getElem?_eq_some_iff.1 ht).1
      have hshare := List.getElem?_eq_getElem hlt
      generalize shares[i] = share at hshare
      have hmine := htasks i t share ht hshare
      have hpart := allShares_set hshare 0
      have hgone := hgo t s.world paid share (paid + share) hmine hw (Nat.le_refl _) (by omega)
      show State.Endures r (s.place i t (go t s.world))
      generalize go t s.world = st at hgone ⊢
      rcases hgone with ⟨howed, paid', share', hw', hwait, hle⟩
      have hsum := allShares_set hshare share'
      have hlength' : (shares.set i share').length = (s.tasks.set i (t.placed st)).length := by
        rw [List.length_set, List.length_set, hlength]
      have hplaced : (t.placed st).Endures r share' := by
        unfold Task.placed
        split
        · exact ⟨hwait, owesLittle_none⟩
        · exact ⟨hwait, howed⟩
      have htasks' : ∀ (j : Nat) (u : Task α) n, (s.tasks.set i (t.placed st))[j]? = some u →
          (shares.set i share')[j]? = some n → u.Endures r n := by
        intro j u n hu hn
        rw [List.getElem?_set] at hu hn
        by_cases hij : i = j
        · rw [if_pos hij, if_pos (hlength ▸ hlt)] at hu
          rw [if_pos hij, if_pos hlt] at hn
          rw [← Option.some.inj hu, ← Option.some.inj hn]
          exact hplaced
        · rw [if_neg hij] at hu hn
          exact htasks j u n hu hn
      rw [place_eq]
      cases hleaves : st.leaves? with
      | none => exact ⟨⟨paid', _, hw', hlength', by omega, htasks'⟩, hdetached⟩
      | some call =>
          rcases howed call (owed_of_leaves hleaves) with ⟨hbears, hcost⟩
          have hfree : paid' + call.cost ≤ paid' := by omega
          rcases send_endures hw' hbears hfree (by omega) with
            ⟨hprogress, hnothing, paid'', hw'', hle'⟩
          have hspent : paid'' ≤ paid' := Nat.le_trans (Nat.le_add_right _ _) hle'
          refine ⟨⟨paid'', _, hw'', hlength', by omega, htasks'⟩, ?_⟩
          exact endures_keepFlight hdetached hprogress (Nat.le_zero.1 (hcost ▸ hnothing))

/-- A call that was left behind goes on. -/
theorem State.Endures.deliver (h : s.Endures r) (j : Nat) : (s.deliver j).Endures r := by
  rcases h with ⟨⟨paid, shares, hw, hlength, htotal, htasks⟩, hdetached⟩
  unfold State.deliver
  cases hflight : s.detached[j]? with
  | none => exact ⟨⟨paid, shares, hw, hlength, htotal, htasks⟩, hdetached⟩
  | some flight =>
      rcases hdetached flight (List.mem_of_getElem? hflight) with ⟨hendures, hcost⟩
      have hfree : paid + flight.cost ≤ paid := by omega
      rcases proceed_endures hw hendures hfree (by omega) with
        ⟨hprogress, hnothing, paid', hw', hle'⟩
      have hspent : paid' ≤ paid := Nat.le_trans (Nat.le_add_right _ _) hle'
      refine ⟨⟨paid', shares, hw', hlength, by omega, htasks⟩, ?_⟩
      refine endures_keepFlight ?_ hprogress (Nat.le_zero.1 (hcost ▸ hnothing))
      exact fun flight' hmem => hdetached flight' (List.mem_of_mem_eraseIdx hmem)

/-- Whatever happens nobody breaks off, as long as the clocks are in reach. -/
theorem State.Endures.after (h : s.Endures r) (e : Happening) (log : Log)
    (htime : (Chronicle.after ⟨s, log⟩ e).state.world.mono ≤ r.uptime)
    (hshows : MayShow r (Chronicle.after ⟨s, log⟩ e).state.world.clocks.now) :
    (Chronicle.after ⟨s, log⟩ e).state.Endures r := by
  cases e with
  | move m =>
      cases m with
      | resume i => exact h.step i fun t w paid share total ht hw hle htotal => ht.resume hw hle htotal
      | expire i => exact h.step i fun t w paid share total ht hw hle htotal => ht.expire hw hle htotal
      | cancel i => exact h.step i fun t w paid share total ht hw hle _ => ht.cancel hw hle
      | deliver j => exact h.deliver j
  | purge =>
      rcases h with ⟨⟨paid, shares, hw, hrest⟩, hdetached⟩
      exact ⟨⟨paid, shares, ⟨htime, hshows, hw.counts.purge _⟩, hrest⟩, hdetached⟩
  | pass moment =>
      rcases h with ⟨⟨paid, shares, hw, hrest⟩, hdetached⟩
      exact ⟨⟨paid, shares, ⟨htime, hshows, hw.counts⟩, hrest⟩, hdetached⟩
  | setWall time =>
      rcases h with ⟨⟨paid, shares, hw, hrest⟩, hdetached⟩
      exact ⟨⟨paid, shares, ⟨htime, hshows, hw.counts⟩, hrest⟩, hdetached⟩
  | setManual time =>
      rcases h with ⟨⟨paid, shares, hw, hrest⟩, hdetached⟩
      exact ⟨⟨paid, shares, ⟨htime, hshows, hw.counts⟩, hrest⟩, hdetached⟩

/-- At every moment of a run the clocks are in reach. -/
def InReach (r : Reach) (s : State α) (happenings : List Happening) : Prop :=
  ∀ n, let clocks := (Chronicle.of s (happenings.take n)).state.world.clocks
    clocks.mono ≤ r.uptime ∧ MayShow r clocks.now

/-- No task breaks off in a run of tasks that endure. -/
theorem endures_throughout (hstart : s.Endures r) {happenings : List Happening}
    (hreach : InReach r s happenings) : (Chronicle.of s happenings).state.Endures r := by
  have hprefix : ∀ n, (Chronicle.of s (happenings.take n)).state.Endures r := by
    intro n
    induction n with
    | zero => exact hstart
    | succ n ih =>
        have hnext := hreach (n + 1)
        rw [List.take_add_one] at hnext ⊢
        cases he : happenings[n]? with
        | none =>
            rw [Option.toList_none, List.append_nil]
            exact ih
        | some e =>
            rw [he, Option.toList_some, chronicle_append] at hnext
            rw [Option.toList_some, chronicle_append]
            exact ih.after e _ hnext.1 hnext.2
  have hall := hprefix happenings.length
  rw [List.take_length] at hall
  exact hall

/-- Whoever endures has not broken off. -/
theorem State.Endures.not_crashed (h : s.Endures r) (i time : Nat) :
    s.ended? i ≠ some (.crashed, time) := by
  rcases h.shares with ⟨paid, shares, hw, hlength, htotal, htasks⟩
  unfold State.ended?
  cases ht : s.tasks[i]? with
  | none => exact nofun
  | some t =>
      have hlt : i < shares.length := hlength ▸ (List.getElem?_eq_some_iff.1 ht).1
      have hwait := (htasks i t _ ht (List.getElem?_eq_getElem hlt)).wait
      rw [Option.map_some]
      cases hw : t.wait with
      | nothing ending time' =>
          rw [hw] at hwait
          intro heq
          exact hwait (congrArg Prod.fst (Option.some.inj heq))
      | _ => exact nofun

end

/-! ## Breaking off -/

/-- A program breaks off before it has to wait. -/
def Breaks (handler : Handler) (w : World) (owed : Option Call) (p : Program α) : Prop :=
  ∃ owed' w', settle handler w owed p = ⟨.nothing .crashed w.mono, owed', w'⟩

namespace Breaks

variable {handler : Handler} {w : World} {owed : Option Call}

/-- A program that crashes breaks off. -/
theorem crash : Breaks handler w owed (.crash : Program α) :=
  ⟨owed, w, rfl⟩

/-- So does one that breaks off with what it reads of the clock. -/
theorem now {t : Timestamp} (hnow : w.clocks.now = t) {next : Timestamp → Program α}
    (h : Breaks handler w owed (next t)) : Breaks handler w owed (.now next) := by
  subst hnow
  exact h

/-- So does one that breaks off with what it owes. -/
theorem hold {call : Call} {next : Program α} (h : Breaks handler w (some call) next) :
    Breaks handler w owed (.hold call next) := h

/-- So does one that breaks off with what it draws. -/
theorem fresh {next : Nat → Program α}
    (h : Breaks handler { w with drawn := w.drawn + 1 } owed (next (w.drawn + 1))) :
    Breaks handler w owed (.fresh next) := h

/-- A program breaks off after a call if it does so with the answer of the store. -/
theorem call {call : Call} (hserves : w.Serves call.operation) {a : Answer} {store : LocalStore}
    (hdone : w.store.perform w.mono (.issued (w.tokens + 1)) call = .ok (a, store))
    {deadline : Span} {next : Except Store.Error Answer → Program α}
    (h : Breaks handler (w.afterCall call store) owed (next (.ok a))) :
    Breaks handler w owed (.call call deadline next) := by
  rcases h with ⟨owed', w', hsettle⟩
  refine ⟨owed', w', ?_⟩
  simp only [settle, send_of_perform hserves hdone]
  exact hsettle

/-- A program breaks off at a call that cannot be carried out. -/
theorem call_overflows {call : Call} (hserves : w.Serves call.operation)
    {overflow : Store.Overflow}
    (hdone : w.store.perform w.mono (.issued (w.tokens + 1)) call = .error overflow)
    {deadline : Span} {next : Except Store.Error Answer → Program α} :
    Breaks handler w owed (.call call deadline next) := by
  have hperform : World.perform
      { w with counts := w.counts.next call.operation, calls := call :: w.calls } call =
        .error overflow := by
    unfold World.perform
    dsimp only [World.mono] at hdone ⊢
    rw [hdone]
    rfl
  have hsend : w.send call = (.overflow, w.afterFailure call) := by
    unfold World.send
    dsimp only
    rw [hserves]
    unfold World.carryOut Treatment.plain
    dsimp only
    rw [hperform]
    rfl
  refine ⟨owed, w.afterFailure call, ?_⟩
  simp only [settle, hsend]
  rfl

/-- Where somebody broke off does not tell what was to come. -/
theorem crashed_inj {time time' : Nat} {owed owed' : Option Call} {w w' : World}
    (h : (⟨.nothing .crashed time, owed, w⟩ : Standing α) = ⟨.nothing .crashed time', owed', w'⟩) :
    (⟨.nothing .crashed time, owed, w⟩ : Standing β) = ⟨.nothing .crashed time', owed', w'⟩ := by
  cases h
  rfl

/-- Whatever was to follow, a program breaks off. -/
theorem bind {p : Program α} (h : Breaks handler w owed p) (f : α → Program β) :
    Breaks handler w owed (p >>= f) := by
  rcases h with ⟨owed', w', hsettle⟩
  refine ⟨owed', w', ?_⟩
  show settle handler w owed (p.bind f) = _
  generalize w.mono = time at hsettle ⊢
  induction p generalizing w owed with
  | done a => cases hsettle
  | crash => exact crashed_inj hsettle
  | call call deadline next ih =>
      unfold settle at hsettle
      simp only [Program.bind, settle]
      rcases hsend : w.send call with ⟨progress, sent⟩
      rw [hsend] at hsettle
      cases progress with
      | answered result => exact ih result hsettle
      | waiting flight => cases hsettle
      | overflow => exact crashed_inj hsettle
  | sleep span next ih =>
      unfold settle at hsettle
      simp only [Program.bind, settle]
      by_cases hzero : span.timerNanos = 0
      · rw [if_pos hzero] at hsettle ⊢
        exact ih hsettle
      · rw [if_neg hzero] at hsettle
        cases hsettle
  | now next ih => exact ih _ hsettle
  | emit event next ih => exact ih hsettle
  | serve request next ih =>
      unfold settle at hsettle
      simp only [Program.bind, settle]
      cases hdelay : handler.delay with
      | some delay =>
          simp only [hdelay] at hsettle
          cases hsettle
      | none =>
          cases hanswer : handler.answer (w.served + 1) request with
          | none =>
              simp only [hdelay, hanswer] at hsettle
              exact crashed_inj hsettle
          | some response =>
              simp only [hdelay, hanswer] at hsettle
              exact ih response hsettle
  | fresh next ih => exact ih _ hsettle
  | hold call next ih => exact ih hsettle
  | unhold next ih => exact ih hsettle

end Breaks

/-- A task whose pause is over, and whose program breaks off, has broken off. -/
theorem ended_of_breaks {s : State α} {i due : Nat} {t : Task α} {program : Program α}
    (htask : s.tasks[i]? = some t) (hwait : t.wait = .time due program)
    (h : Breaks t.handler s.world t.owed program) :
    (s.apply (.resume i)).ended? i = some (.crashed, s.world.mono) := by
  rcases h with ⟨owed', w', hsettle⟩
  have hlt : i < s.tasks.length := (List.getElem?_eq_some_iff.1 htask).1
  have hresume : t.resume s.world = ⟨.nothing .crashed s.world.mono, owed', w'⟩ := by
    unfold Task.resume
    rw [hwait]
    exact hsettle
  have hplaced : s.apply (.resume i) = s.place i t (t.resume s.world) := by
    unfold State.apply State.step
    simp only [htask]
  rw [hplaced]
  unfold State.ended?
  rw [tasks_place, List.getElem?_set_self hlt, Option.map_some, placed_wait, hresume]

end Turnstile.Run

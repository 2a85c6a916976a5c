import Turnstile.Proofs.Run.Border
import Turnstile.Proofs.Run.Calls

/-!
# Runs without some of those who take part

What is left of a run when nothing is done by the others, and nothing happens to what
they left behind, goes for those who are kept as the whole run does: at every moment
they wait for the same, and they end in the same way and at the same time.

Main results:

- Theorem `step_others`, `step_kept`: what one step preserves.
- Theorem `separates`: what a whole run preserves.
-/

namespace Turnstile.Run

open Store (Answer Call Token)

variable {α : Type}

/-! ## Tasks -/

/-- A task of the others. -/
structure Task.Aside (b : Border) (t : Task α) : Prop where
  wait : t.wait.Aside b
  owed : OwesAside b t.owed

/-- A task of somebody who is kept, and the same task with other tokens. -/
structure Task.Matches (b : Border) (f : Token → Token) (t t' : Task α) : Prop where
  wait : t.wait.Matches b f t'.wait
  owed : OwesAlike b f t.owed t'.owed
  handler : t'.handler = t.handler

section

variable {b : Border} {f : Token → Token} {w w' : World} {t t' : Task α}

/-! ## Steps of the others -/

/-- A task aside goes on aside when it is resumed. -/
theorem Task.Aside.resume (ht : t.Aside b) (h : Beside b f w w') : (t.resume w').Aside b f w := by
  rcases t with ⟨wait, owed, handler, cancelAt⟩
  rcases ht with ⟨hwait, howed⟩
  cases wait with
  | time due program => exact settle_others handler hwait howed h
  | answer flight expires deadline call next =>
      rcases h.proceed_others hwait.1 with ⟨hworld, hflying⟩
      unfold Task.resume
      dsimp only
      rcases hproceed : w'.proceed flight with ⟨progress, next'⟩
      rw [hproceed] at hworld hflying
      cases progress with
      | answered result => exact settle_others handler (hwait.2 result) howed hworld
      | waiting flight => exact ⟨⟨hflying, hwait.2⟩, howed, hworld⟩
      | overflow => exact ⟨trivial, howed, hworld⟩
  | response due given next =>
      cases given with
      | some response => exact settle_others handler (hwait response) howed h
      | none => exact ⟨trivial, howed, h⟩
  | nothing ending time => exact ⟨trivial, howed, h⟩

/-- So it does when its wait expires. -/
theorem Task.Aside.expire (ht : t.Aside b) (h : Beside b f w w') : (t.expire w').Aside b f w := by
  rcases t with ⟨wait, owed, handler, cancelAt⟩
  rcases ht with ⟨hwait, howed⟩
  cases wait with
  | answer flight expires deadline call next => exact settle_others handler (hwait.2 _) howed h
  | _ => exact ⟨hwait, howed, h⟩

/-- So it does when it is cancelled. -/
theorem Task.Aside.cancel (ht : t.Aside b) (h : Beside b f w w') : (t.cancel w').Aside b f w := by
  unfold Task.cancel
  by_cases hended : t.hasEnded = true
  · rw [if_pos hended]
    exact ⟨ht.wait, ht.owed, h⟩
  · rw [if_neg hended]
    exact ⟨trivial, ht.owed, h⟩

/-! ## Steps of those who are kept -/

/-- Tasks that match have both ended or neither. -/
theorem Task.Matches.hasEnded (ht : t.Matches b f t') : t'.hasEnded = t.hasEnded := by
  rcases t with ⟨wait, owed, handler, cancelAt⟩
  rcases t' with ⟨wait', owed', handler', cancelAt'⟩
  have hwait := ht.wait
  cases wait with
  | time due program =>
      rcases hwait with ⟨program', rfl, _⟩
      rfl
  | answer flight expires deadline call next =>
      rcases hwait with ⟨_, next', rfl, _⟩
      rfl
  | response due given next =>
      rcases hwait with ⟨next', rfl, _⟩
      rfl
  | nothing ending time =>
      cases hwait
      rfl

/-- Tasks that match are resumed alike. -/
theorem Task.Matches.resume (ht : t.Matches b f t') (hf : Function.Injective f)
    (h : Beside b f w w') {x : Stretch} (hlined : Lined f x w.tokens w'.tokens)
    (hlast : (t.resume w).world.tokens ≤ x.last) : (t.resume w).Matches b f x (t'.resume w') := by
  rcases t with ⟨wait, owed, handler, cancelAt⟩
  rcases t' with ⟨wait', owed', handler', cancelAt'⟩
  rcases ht with ⟨hwait, howed, hhandler⟩
  simp only at hwait howed hhandler
  subst hhandler
  cases wait with
  | time due program =>
      rcases hwait with ⟨program', rfl, hmatches⟩
      exact settle_kept handler' hf hmatches howed h hlined hlast
  | answer flight expires deadline call next =>
      rcases hwait with ⟨hflight, next', rfl, hmatches⟩
      unfold Task.resume at hlast ⊢
      dsimp only at hlast ⊢
      have hproceeded : (w.proceed flight).2.tokens ≤ x.last := by
        refine Nat.le_trans ?_ hlast
        rcases w.proceed flight with ⟨progress, sent⟩
        cases progress with
        | answered result => exact tokens_le_settle handler' sent owed (next result)
        | waiting flight => exact Nat.le_refl _
        | overflow => exact Nat.le_refl _
      rcases h.proceed_kept hf hflight hlined hproceeded with ⟨hprogress, hflying, hworld, hlined'⟩
      rcases hproceed : w.proceed flight with ⟨progress, sent⟩
      rcases hproceed' : w'.proceed (flight.rename f) with ⟨progress', sent'⟩
      rw [hproceed] at hlast hprogress hflying hworld hlined'
      rw [hproceed'] at hprogress hworld hlined'
      simp only at hprogress hworld hlined'
      subst hprogress
      cases progress with
      | answered result =>
          exact settle_kept handler' hf (hmatches result) howed hworld hlined' hlast
      | waiting flight => exact ⟨⟨hflying, next', rfl, hmatches⟩, howed, hworld, hlined'⟩
      | overflow => exact hworld.ends howed hlined' .crashed
  | response due given next =>
      rcases hwait with ⟨next', rfl, hmatches⟩
      cases given with
      | some response => exact settle_kept handler' hf (hmatches response) howed h hlined hlast
      | none => exact h.ends howed hlined .crashed
  | nothing ending time =>
      cases hwait
      exact ⟨rfl, howed, h, hlined⟩

/-- Their waits expire alike. -/
theorem Task.Matches.expire (ht : t.Matches b f t') (hf : Function.Injective f)
    (h : Beside b f w w') {x : Stretch} (hlined : Lined f x w.tokens w'.tokens)
    (hlast : (t.expire w).world.tokens ≤ x.last) : (t.expire w).Matches b f x (t'.expire w') := by
  rcases t with ⟨wait, owed, handler, cancelAt⟩
  rcases t' with ⟨wait', owed', handler', cancelAt'⟩
  rcases ht with ⟨hwait, howed, hhandler⟩
  simp only at hwait howed hhandler
  subst hhandler
  cases wait with
  | time due program =>
      rcases hwait with ⟨program', rfl, hmatches⟩
      exact ⟨⟨program', rfl, hmatches⟩, howed, h, hlined⟩
  | answer flight expires deadline call next =>
      rcases hwait with ⟨hflight, next', rfl, hmatches⟩
      have hnext := hmatches (.error (.timeout call.operation deadline))
      unfold Task.expire at hlast ⊢
      dsimp only at hlast ⊢
      rw [Store.Call.operation_rename]
      exact settle_kept handler' hf hnext howed h hlined hlast
  | response due given next =>
      rcases hwait with ⟨next', rfl, hmatches⟩
      exact ⟨⟨next', rfl, hmatches⟩, howed, h, hlined⟩
  | nothing ending time =>
      cases hwait
      exact ⟨rfl, howed, h, hlined⟩

/-- They are cancelled alike. -/
theorem Task.Matches.cancel (ht : t.Matches b f t') (h : Beside b f w w') {x : Stretch}
    (hlined : Lined f x w.tokens w'.tokens) : (t.cancel w).Matches b f x (t'.cancel w') := by
  unfold Task.cancel
  rw [ht.hasEnded]
  by_cases hended : t.hasEnded = true
  · rw [if_pos hended, if_pos hended]
    exact ⟨ht.wait, ht.owed, h, hlined⟩
  · rw [if_neg hended, if_neg hended]
    exact h.ends ht.owed hlined .cancelled

end

/-! ## States -/

/-- To those who are kept the second state, in which everybody takes part, is like the
first one, in which the others do nothing. -/
structure State.Beside (b : Border) (mine : Nat → Bool) (f : Token → Token) (s s' : State α) :
    Prop where
  world : Run.Beside b f s.world s'.world
  length : s'.tasks.length = s.tasks.length
  kept : ∀ i t t', mine i = true → s.tasks[i]? = some t → s'.tasks[i]? = some t' → t.Matches b f t'
  others : ∀ i t', mine i = false → s'.tasks[i]? = some t' → t'.Aside b
  detached : if b.serving then
      s'.detached = s.detached.map (Flight.rename f) ∧ ∀ flight ∈ s.detached, flight.IsOf b.kept
    else s.detached = [] ∧ ∀ flight ∈ s'.detached, flight.IsOf b.others

section

variable {b : Border} {mine : Nat → Bool} {f : Token → Token} {s s' : State α} {w : World}
  {t t' : Task α} {st st' : Standing α}

/-- A task aside stays there in its new standing. -/
theorem Standing.Aside.placed (hst : st.Aside b f w) (t : Task α) : (t.placed st).Aside b := by
  unfold Task.placed
  split
  · exact ⟨hst.wait, owesAside_none⟩
  · exact ⟨hst.wait, hst.owed⟩

/-- Tasks that match do so in their new standings. -/
theorem Standing.Matches.placed {x : Stretch} (hst : st.Matches b f x st')
    (hhandler : t'.handler = t.handler) : (t.placed st).Matches b f (t'.placed st') := by
  have hstands : (t.standing st).Matches b f (t'.standing st') := ⟨hst.wait, hst.owed, hhandler⟩
  have hended := hstands.hasEnded
  unfold Task.placed
  cases h : (t.standing st).hasEnded with
  | true =>
      rw [h] at hended
      rw [hended]
      exact ⟨hst.wait, owesAlike_none, hhandler⟩
  | false =>
      rw [h] at hended
      rw [hended]
      exact hstands

/-- Whoever is kept leaves the same behind. -/
theorem Standing.Matches.leaves {x : Stretch} (hst : st.Matches b f x st') :
    st'.leaves? = st.leaves?.map (Call.rename f) := by
  rcases st with ⟨wait, owed, w⟩
  rcases st' with ⟨wait', owed', w'⟩
  have hwait := hst.wait
  cases wait with
  | time due program =>
      rcases hwait with ⟨program', rfl, _⟩
      rfl
  | answer flight expires deadline call next =>
      rcases hwait with ⟨_, next', rfl, _⟩
      rfl
  | response due given next =>
      rcases hwait with ⟨next', rfl, _⟩
      rfl
  | nothing ending time =>
      cases hwait
      exact hst.owed.1

/-- A call of the others is in flight beside the others. -/
theorem isOf_keepFlight {calls : Call → Prop} {detached : List Flight} {progress : Progress}
    (h : ∀ flight ∈ detached, flight.IsOf calls) (hprogress : progress.IsOf calls) :
    ∀ flight ∈ State.keepFlight detached progress, flight.IsOf calls := by
  intro flight hmem
  rcases mem_keepFlight hmem with hmem | hwaiting
  · exact h flight hmem
  · rw [hwaiting] at hprogress
    exact hprogress

/-- Keeping a call on its way goes with renaming its tokens. -/
theorem keepFlight_rename (detached : List Flight) (progress : Progress) :
    State.keepFlight (detached.map (Flight.rename f)) (progress.rename f) =
      (State.keepFlight detached progress).map (Flight.rename f) := by
  cases progress with
  | waiting flight =>
      show detached.map (Flight.rename f) ++ [flight.rename f] = (detached ++ [flight]).map (Flight.rename f)
      rw [List.map_append]
      rfl
  | _ => rfl

/-! ## Steps -/

/-- Placing a task of the others is not seen. -/
theorem State.Beside.place_others (h : s.Beside b mine f s') {i : Nat} (hi : mine i = false)
    (hst : st.Aside b f s.world) (t : Task α) : s.Beside b mine f (s'.place i t st) := by
  have hlength : (s'.tasks.set i (t.placed st)).length = s.tasks.length := by
    rw [List.length_set, h.length]
  have hkept : ∀ j u u', mine j = true → s.tasks[j]? = some u →
      (s'.tasks.set i (t.placed st))[j]? = some u' → u.Matches b f u' := by
    intro j u u' hj hu hu'
    have hne : i ≠ j := by
      rintro rfl
      exact nomatch hi.symm.trans hj
    rw [List.getElem?_set_ne hne] at hu'
    exact h.kept j u u' hj hu hu'
  have hothers : ∀ j u', mine j = false → (s'.tasks.set i (t.placed st))[j]? = some u' →
      u'.Aside b := by
    intro j u' hj hu'
    rw [List.getElem?_set] at hu'
    split at hu'
    · split at hu'
      · rw [← Option.some.inj hu']
        exact hst.placed t
      · exact nomatch hu'
    · exact h.others j u' hj hu'
  rw [place_eq]
  cases hleaves : st.leaves? with
  | none => exact ⟨hst.world, hlength, hkept, hothers, h.detached⟩
  | some owed =>
      rcases hst.owed owed (owed_of_leaves hleaves) with ⟨hserving, howed⟩
      rcases hst.world.send_others howed with ⟨hworld, hflying⟩
      refine ⟨hworld, hlength, hkept, hothers, ?_⟩
      have hdetached := h.detached
      simp only [hserving] at hdetached ⊢
      exact ⟨hdetached.1, isOf_keepFlight hdetached.2 hflying⟩

/-- Placing a task of somebody who is kept goes alike. -/
theorem State.Beside.place_kept (h : s.Beside b mine f s') (hf : Function.Injective f) {i : Nat}
    (hi : mine i = true) {x : Stretch} (hst : st.Matches b f x st')
    (hhandler : t'.handler = t.handler) (hlast : (s.place i t st).world.tokens ≤ x.last) :
    (s.place i t st).Beside b mine f (s'.place i t' st') ∧
      Lined f x (s.place i t st).world.tokens (s'.place i t' st').world.tokens := by
  have hlength : (s'.tasks.set i (t'.placed st')).length = (s.tasks.set i (t.placed st)).length := by
    rw [List.length_set, List.length_set, h.length]
  have hkept : ∀ j u u', mine j = true → (s.tasks.set i (t.placed st))[j]? = some u →
      (s'.tasks.set i (t'.placed st'))[j]? = some u' → u.Matches b f u' := by
    intro j u u' hj hu hu'
    rw [List.getElem?_set] at hu hu'
    by_cases hij : i = j
    · rw [if_pos hij] at hu hu'
      split at hu
      · split at hu'
        · rw [← Option.some.inj hu, ← Option.some.inj hu']
          exact hst.placed hhandler
        · exact nomatch hu'
      · exact nomatch hu
    · rw [if_neg hij] at hu hu'
      exact h.kept j u u' hj hu hu'
  have hothers : ∀ j u', mine j = false → (s'.tasks.set i (t'.placed st'))[j]? = some u' →
      u'.Aside b := by
    intro j u' hj hu'
    have hne : i ≠ j := by
      rintro rfl
      exact nomatch hj.symm.trans hi
    rw [List.getElem?_set_ne hne] at hu'
    exact h.others j u' hj hu'
  rw [place_eq] at hlast
  rw [place_eq, place_eq, hst.leaves]
  cases hleaves : st.leaves? with
  | none => exact ⟨⟨hst.world, hlength, hkept, hothers, h.detached⟩, hst.lined⟩
  | some owed =>
      rcases hst.owed.2 owed (owed_of_leaves hleaves) with ⟨hserving, howed⟩
      simp only [hleaves] at hlast
      rcases hst.world.send_kept hf howed hst.lined hlast with ⟨hprogress, hflying, hworld, hlined⟩
      refine ⟨⟨hworld, hlength, hkept, hothers, ?_⟩, hlined⟩
      have hdetached := h.detached
      simp only [hserving, if_true] at hdetached ⊢
      refine ⟨?_, isOf_keepFlight hdetached.2 hflying⟩
      simp only [Option.map_some, hdetached.1, hprogress, keepFlight_rename]

/-- Placing a task has as many tokens issued as its standing. -/
theorem tokens_le_place (s : State α) (i : Nat) (t : Task α) (st : Standing α) :
    st.world.tokens ≤ (s.place i t st).world.tokens := by
  rw [place_eq]
  cases st.leaves? with
  | none => exact Nat.le_refl _
  | some owed => exact tokens_le_send st.world owed

/-- A step of the others is not seen. -/
theorem State.Beside.step_others (h : s.Beside b mine f s') {i : Nat} (hi : mine i = false)
    {go : Task α → World → Standing α}
    (hgo : ∀ t w', t.Aside b → Run.Beside b f s.world w' → (go t w').Aside b f s.world) :
    s.Beside b mine f (s'.step i go) := by
  unfold State.step
  cases ht : s'.tasks[i]? with
  | none => exact h
  | some t => exact h.place_others hi (hgo t s'.world (h.others i t hi ht) h.world) t

/-- A step of somebody who is kept goes alike. -/
theorem State.Beside.step_kept (h : s.Beside b mine f s') (hf : Function.Injective f) {i : Nat}
    (hi : mine i = true) {x : Stretch} (hlined : Lined f x s.world.tokens s'.world.tokens)
    {go : Task α → World → Standing α} (hlast : (s.step i go).world.tokens ≤ x.last)
    (hgo : ∀ t t', t.Matches b f t' → (go t s.world).world.tokens ≤ x.last →
      (go t s.world).Matches b f x (go t' s'.world)) :
    (s.step i go).Beside b mine f (s'.step i go) ∧
      Lined f x (s.step i go).world.tokens (s'.step i go).world.tokens := by
  unfold State.step at hlast ⊢
  cases ht : s.tasks[i]? with
  | none =>
      have hnone : s'.tasks[i]? = none := by
        rw [List.getElem?_eq_none_iff] at ht ⊢
        rw [h.length]
        exact ht
      rw [hnone]
      exact ⟨h, hlined⟩
  | some t =>
      have hlt : i < s'.tasks.length := by
        rw [h.length]
        exact (List.getElem?_eq_some_iff.1 ht).1
      have ht' := List.getElem?_eq_getElem hlt
      have hmatches := h.kept i t _ hi ht ht'
      rw [ht] at hlast
      rw [ht']
      have hgone := hgo t _ hmatches (Nat.le_trans (tokens_le_place s i t _) hlast)
      exact h.place_kept hf hi hgone hmatches.handler hlast

/-- What happens to a call that the others left behind is not seen. -/
theorem State.Beside.deliver_others (h : s.Beside b mine f s') (hserving : b.serving = false)
    (j : Nat) : s.Beside b mine f (s'.deliver j) := by
  have hdetached := h.detached
  simp only [hserving] at hdetached
  unfold State.deliver
  cases hflight : s'.detached[j]? with
  | none => exact h
  | some flight =>
      have hothers := hdetached.2 flight (List.mem_of_getElem? hflight)
      rcases h.world.proceed_others hothers with ⟨hworld, hflying⟩
      refine ⟨hworld, h.length, h.kept, h.others, ?_⟩
      simp only [hserving]
      refine ⟨hdetached.1, isOf_keepFlight (fun flight' hmem => ?_) hflying⟩
      exact hdetached.2 flight' (List.mem_of_mem_eraseIdx hmem)

/-- Erasing from a list goes with mapping it. -/
theorem eraseIdx_map {β γ : Type} (g : β → γ) (l : List β) (j : Nat) :
    (l.map g).eraseIdx j = (l.eraseIdx j).map g := by
  induction l generalizing j with
  | nil => rfl
  | cons a l ih =>
      cases j with
      | zero => rfl
      | succ j => simp [ih]

/-- A call that somebody who is kept left behind goes on alike. -/
theorem State.Beside.deliver_kept (h : s.Beside b mine f s') (hf : Function.Injective f)
    (hserving : b.serving = true) {x : Stretch} (hlined : Lined f x s.world.tokens s'.world.tokens)
    {j : Nat} (hlast : (s.deliver j).world.tokens ≤ x.last) :
    (s.deliver j).Beside b mine f (s'.deliver j) ∧
      Lined f x (s.deliver j).world.tokens (s'.deliver j).world.tokens := by
  have hdetached := h.detached
  simp only [hserving, if_true] at hdetached
  unfold State.deliver at hlast ⊢
  rw [hdetached.1, List.getElem?_map]
  cases hflight : s.detached[j]? with
  | none => exact ⟨h, hlined⟩
  | some flight =>
      rw [hflight] at hlast
      have hkept := hdetached.2 flight (List.mem_of_getElem? hflight)
      rcases h.world.proceed_kept hf hkept hlined hlast with ⟨hprogress, hflying, hworld, hlined'⟩
      refine ⟨⟨hworld, h.length, h.kept, h.others, ?_⟩, hlined'⟩
      simp only [Option.map_some, hserving, if_true]
      refine ⟨?_, isOf_keepFlight (fun flight' hmem => ?_) hflying⟩
      · rw [eraseIdx_map, hprogress, keepFlight_rename]
      · exact hdetached.2 flight' (List.mem_of_mem_eraseIdx hmem)

/-- Clocks that are set alike stay alike. -/
theorem State.Beside.withClocks (h : s.Beside b mine f s') {g : Clocks → Clocks}
    (hg : s.world.mono ≤ (g s.world.clocks).mono) :
    (s.withClocks g).Beside b mine f (s'.withClocks g) := by
  have hworld := h.world
  refine ⟨⟨hworld.parts, hworld.distinct, ?_, hworld.plan, hworld.counts, hworld.served, ?_⟩,
    h.length, h.kept, h.others, h.detached⟩
  · exact congrArg g hworld.clocks
  · exact hworld.store.elapse hg

/-- A purge of both stores is not seen. -/
theorem State.Beside.purge_both (h : s.Beside b mine f s') :
    s.purge.Beside b mine f s'.purge := by
  have hworld := h.world
  have hdistinct := hworld.distinct
  refine ⟨⟨hworld.parts, ?_, hworld.clocks, hworld.plan, hworld.counts, hworld.served, ?_⟩,
    h.length, h.kept, h.others, h.detached⟩
  · exact ⟨Store.Table.keysDistinct_keep _ hdistinct.values,
      Store.Table.keysDistinct_keep _ hdistinct.locks, Store.Table.keysDistinct_keep _ hdistinct.windows⟩
  · show Store.AlikeWithin b.sight f s.world.mono (s.world.store.purge s.world.mono)
      (s'.world.store.purge s'.world.mono)
    rw [hworld.mono_eq]
    exact hworld.store.purge_both hdistinct

/-- Nor is a purge of the second store. -/
theorem State.Beside.purge_second (h : s.Beside b mine f s') : s.Beside b mine f s'.purge := by
  have hworld := h.world
  refine ⟨⟨hworld.parts, hworld.distinct, hworld.clocks, hworld.plan, hworld.counts, hworld.served, ?_⟩,
    h.length, h.kept, h.others, h.detached⟩
  show Store.AlikeWithin b.sight f s.world.mono s.world.store (s'.world.store.purge s'.world.mono)
  rw [hworld.mono_eq]
  exact hworld.store.purge

/-! ## Runs -/

/-- Resuming a task takes no token back. -/
theorem tokens_le_resume (t : Task α) (w : World) : w.tokens ≤ (t.resume w).world.tokens := by
  rcases t with ⟨wait, owed, handler, cancelAt⟩
  cases wait with
  | time due program => exact tokens_le_settle handler w owed program
  | answer flight expires deadline call next =>
      have hproceed := tokens_le_proceed w flight
      unfold Task.resume
      dsimp only
      rcases hprogress : w.proceed flight with ⟨progress, sent⟩
      rw [hprogress] at hproceed
      cases progress with
      | answered result =>
          exact Nat.le_trans hproceed (tokens_le_settle handler sent owed (next result))
      | waiting flight => exact hproceed
      | overflow => exact hproceed
  | response due given next =>
      cases given with
      | some response => exact tokens_le_settle handler w owed (next response)
      | none => exact Nat.le_refl _
  | nothing ending time => exact Nat.le_refl _

/-- Neither does the end of its wait. -/
theorem tokens_le_expire (t : Task α) (w : World) : w.tokens ≤ (t.expire w).world.tokens := by
  rcases t with ⟨wait, owed, handler, cancelAt⟩
  cases wait with
  | answer flight expires deadline call next => exact tokens_le_settle handler w owed _
  | _ => exact Nat.le_refl _

/-- Nor does cancelling it. -/
theorem tokens_le_cancel (t : Task α) (w : World) : w.tokens ≤ (t.cancel w).world.tokens := by
  unfold Task.cancel
  split
  · exact Nat.le_refl _
  · exact Nat.le_refl _

/-- Nor does a step of any kind. -/
theorem tokens_le_step (s : State α) (i : Nat) {go : Task α → World → Standing α}
    (hgo : ∀ t w, w.tokens ≤ (go t w).world.tokens) :
    s.world.tokens ≤ (s.step i go).world.tokens := by
  unfold State.step
  cases s.tasks[i]? with
  | none => exact Nat.le_refl _
  | some t => exact Nat.le_trans (hgo t s.world) (tokens_le_place s i t _)

/-- Nor does a move. -/
theorem tokens_le_apply (s : State α) (m : Move) : s.world.tokens ≤ (s.apply m).world.tokens := by
  cases m with
  | resume i => exact tokens_le_step s i tokens_le_resume
  | expire i => exact tokens_le_step s i tokens_le_expire
  | cancel i => exact tokens_le_step s i tokens_le_cancel
  | deliver j =>
      show _ ≤ (s.deliver j).world.tokens
      unfold State.deliver
      cases s.detached[j]? with
      | none => exact Nat.le_refl _
      | some flight => exact tokens_le_proceed s.world flight

/-- A renaming of the tokens that were issued before, which goes on in step. -/
def goOn (f : Token → Token) (issued issued' : Nat) : Token → Token
  | .issued n => if n ≤ issued then f (.issued n) else .issued (n - issued + issued')
  | .text text => .text text

/-- Tokens issued on both sides since go on side by side. -/
theorem goOn_issued {issued issued' : Nat}
    (hissued : ∀ n, n ≤ issued → ∃ m, m ≤ issued' ∧ f (.issued n) = .issued m) (n : Nat) :
    ∃ m, goOn f issued issued' (.issued n) = .issued m ∧
      (n ≤ issued ∧ m ≤ issued' ∧ f (.issued n) = .issued m ∨
        issued < n ∧ m = n - issued + issued') := by
  by_cases hn : n ≤ issued
  · rcases hissued n hn with ⟨m, hle, hm⟩
    exact ⟨m, (if_pos hn).trans hm, Or.inl ⟨hn, hle, hm⟩⟩
  · exact ⟨_, if_neg hn, Or.inr ⟨Nat.not_le.1 hn, rfl⟩⟩

/-- A renaming that is carried on keeps tokens distinct. -/
theorem goOn_injective (hf : Function.Injective f) {issued issued' : Nat}
    (hissued : ∀ n, n ≤ issued → ∃ m, m ≤ issued' ∧ f (.issued n) = .issued m) :
    Function.Injective (goOn f issued issued') := by
  intro a a' heq
  cases a with
  | text text =>
      cases a' with
      | text text' => exact heq
      | issued n' =>
          rcases goOn_issued hissued n' with ⟨m', hm', _⟩
          exact nomatch heq.trans hm'
  | issued n =>
      rcases goOn_issued hissued n with ⟨m, hm, hcases⟩
      cases a' with
      | text text => exact nomatch hm.symm.trans heq
      | issued n' =>
          rcases goOn_issued hissued n' with ⟨m', hm', hcases'⟩
          have hsame : m = m' := Token.issued.inj (hm.symm.trans (heq.trans hm'))
          rcases hcases with ⟨_, hle, hf1⟩ | ⟨hlt, hmn⟩
          · rcases hcases' with ⟨_, _, hf2⟩ | ⟨hlt', hmn'⟩
            · exact hf (hf1.trans (hsame ▸ hf2.symm))
            · omega
          · rcases hcases' with ⟨_, hle', _⟩ | ⟨hlt', hmn'⟩
            · omega
            · rw [Token.issued.injEq]
              omega

/-- The second state is like the first one to those who are kept, however the tokens
that were not issued yet are renamed. -/
def State.Divides (b : Border) (mine : Nat → Bool) (s s' : State α) : Prop :=
  ∃ f : Token → Token, Function.Injective f ∧
    (∀ n, n ≤ s.world.tokens → ∃ m, m ≤ s'.world.tokens ∧ f (.issued n) = .issued m) ∧
    ∀ g : Token → Token, Function.Injective g →
      (∀ n, n ≤ s.world.tokens → g (.issued n) = f (.issued n)) →
      s.Beside b mine g s'

/-- What is not seen does not divide. -/
theorem State.Divides.others {next' : State α} (h : s.Divides b mine s')
    (htokens : s'.world.tokens ≤ next'.world.tokens)
    (hnext : ∀ g, s.Beside b mine g s' → s.Beside b mine g next') : s.Divides b mine next' := by
  rcases h with ⟨f, hf, hissued, hbeside⟩
  refine ⟨f, hf, fun n hn => ?_, fun g hg hsame => hnext g (hbeside g hg hsame)⟩
  rcases hissued n hn with ⟨m, hle, hm⟩
  exact ⟨m, Nat.le_trans hle htokens, hm⟩

/-- What goes alike does not divide. -/
theorem State.Divides.kept {next next' : State α} (h : s.Divides b mine s')
    (hnext : ∀ g x, Function.Injective g → s.Beside b mine g s' →
      Lined g x s.world.tokens s'.world.tokens → next.world.tokens ≤ x.last →
      next.Beside b mine g next' ∧ Lined g x next.world.tokens next'.world.tokens) :
    next.Divides b mine next' := by
  rcases h with ⟨f, hf, hissued, hbeside⟩
  let x : Stretch := ⟨s.world.tokens, s'.world.tokens, next.world.tokens⟩
  have hinjective := goOn_injective hf hissued
  have hagrees : ∀ g : Token → Token, (∀ n, n ≤ next.world.tokens →
      g (.issued n) = goOn f s.world.tokens s'.world.tokens (.issued n)) →
      s.world.tokens ≤ next.world.tokens →
      ∀ n, n ≤ s.world.tokens → g (.issued n) = f (.issued n) := by
    intro g hsame hle n hn
    rw [hsame n (Nat.le_trans hn hle), goOn, if_pos hn]
  have hlined : ∀ g : Token → Token, (∀ n, n ≤ next.world.tokens →
      g (.issued n) = goOn f s.world.tokens s'.world.tokens (.issued n)) →
      Lined g x s.world.tokens s'.world.tokens := by
    intro g hsame
    refine ⟨Nat.add_comm _ _, Nat.le_refl _, fun n hlt hle => ?_⟩
    rw [hsame n hle, goOn, if_neg (Nat.not_le.2 hlt)]
  have hself := hnext _ x hinjective (hbeside _ hinjective ?_) (hlined _ fun n _ => rfl) (Nat.le_refl _)
  · have hle : s.world.tokens ≤ next.world.tokens := hself.2.begun
    have heven : next'.world.tokens + s.world.tokens = next.world.tokens + s'.world.tokens :=
      hself.2.even
    refine ⟨_, hinjective, fun n hn => ?_, fun g hg hsame => ?_⟩
    · by_cases hold : n ≤ s.world.tokens
      · rcases hissued n hold with ⟨m, hm, heq⟩
        refine ⟨m, by omega, ?_⟩
        rw [goOn, if_pos hold]
        exact heq
      · refine ⟨n - s.world.tokens + s'.world.tokens, by omega, ?_⟩
        rw [goOn, if_neg hold]
    · exact (hnext g x hg (hbeside g hg (hagrees g hsame hle)) (hlined g hsame) (Nat.le_refl _)).1
  · intro n hn
    rw [goOn, if_pos hn]

/-- Whether something that happens stays where some are kept and the others do nothing:
a move of somebody who is kept and a reading of the clocks stay, and a call that was
left behind or a purge if such are to stay. -/
def Happening.stays (mine : Nat → Bool) (deliveries purges : Bool) : Happening → Bool
  | .move (.resume i) => mine i
  | .move (.expire i) => mine i
  | .move (.cancel i) => mine i
  | .move (.deliver _) => deliveries
  | .purge => purges
  | _ => true

/-- A step of a task does not divide two states. -/
theorem State.Divides.step (h : s.Divides b mine s') (i : Nat) {go : Task α → World → Standing α}
    (htokens : ∀ t w, w.tokens ≤ (go t w).world.tokens)
    (hothers : ∀ g t w w', t.Aside b → Run.Beside b g w w' → (go t w').Aside b g w)
    (hkept : ∀ g t t' w w' x, Function.Injective g → t.Matches b g t' → Run.Beside b g w w' →
      Lined g x w.tokens w'.tokens → (go t w).world.tokens ≤ x.last →
      (go t w).Matches b g x (go t' w')) :
    (if mine i then s.step i go else s).Divides b mine (s'.step i go) := by
  cases hi : mine i with
  | false =>
      refine h.others (tokens_le_step s' i htokens) fun g hbeside => ?_
      exact hbeside.step_others hi fun t w' ht hw => hothers g t _ w' ht hw
  | true =>
      refine h.kept fun g x hg hbeside hlined hlast => ?_
      exact hbeside.step_kept hg hi hlined hlast fun t t' ht hle =>
        hkept g t t' _ _ x hg ht hbeside.world hlined hle

/-- A move does not divide two states. -/
theorem State.Divides.apply (h : s.Divides b mine s') (m : Move) (purges : Bool) :
    (if (Happening.move m).stays mine b.serving purges then s.apply m else s).Divides b mine
      (s'.apply m) := by
  cases m with
  | resume i =>
      exact h.step i tokens_le_resume (fun _ _ _ _ ht hw => ht.resume hw)
        fun _ _ _ _ _ _ hg ht hw hlined hlast => ht.resume hg hw hlined hlast
  | expire i =>
      exact h.step i tokens_le_expire (fun _ _ _ _ ht hw => ht.expire hw)
        fun _ _ _ _ _ _ hg ht hw hlined hlast => ht.expire hg hw hlined hlast
  | cancel i =>
      exact h.step i tokens_le_cancel (fun _ _ _ _ ht hw => ht.cancel hw)
        fun _ _ _ _ _ _ hg ht hw hlined hlast => ht.cancel hw hlined
  | deliver j =>
      show (if b.serving = true then s.deliver j else s).Divides b mine (s'.deliver j)
      cases hserving : b.serving with
      | false =>
          exact h.others (tokens_le_apply s' (.deliver j)) fun g hbeside =>
            hbeside.deliver_others hserving j
      | true =>
          exact h.kept fun g x hg hbeside hlined hlast =>
            hbeside.deliver_kept hg hserving hlined hlast

/-- Nothing that happens divides two states. -/
theorem State.Divides.after (h : s.Divides b mine s') (e : Happening) (purges : Bool)
    (log log' : Log) :
    (if e.stays mine b.serving purges then (Chronicle.after ⟨s, log⟩ e).state else s).Divides b mine
      (Chronicle.after ⟨s', log'⟩ e).state := by
  cases e with
  | pass moment =>
      exact h.kept fun g x hg hbeside hlined hlast =>
        ⟨hbeside.withClocks (g := (·.elapseTo moment)) (Clocks.mono_le_elapseTo _ moment), hlined⟩
  | setWall time =>
      exact h.kept fun g x hg hbeside hlined hlast =>
        ⟨hbeside.withClocks (g := (·.setWall time)) (Nat.le_refl _), hlined⟩
  | setManual time =>
      exact h.kept fun g x hg hbeside hlined hlast =>
        ⟨hbeside.withClocks (g := (·.setManual time)) (Nat.le_refl _), hlined⟩
  | purge =>
      cases purges with
      | false => exact h.others (Nat.le_refl _) fun g hbeside => hbeside.purge_second
      | true =>
          exact h.kept fun g x hg hbeside hlined hlast => ⟨hbeside.purge_both, hlined⟩
  | move m => exact h.apply m purges

/-- To those who are kept a run is what is left of it where the others do nothing. -/
theorem separates (hstart : ∀ f, Function.Injective f → s.Beside b mine f s)
    (happenings : List Happening) (purges : Bool) :
    (Chronicle.of s (happenings.filter (·.stays mine b.serving purges))).state.Divides b mine
      (Chronicle.of s happenings).state := by
  have hsame : s.Divides b mine s :=
    ⟨id, fun _ _ h => h, fun n hn => ⟨n, hn, rfl⟩, fun g hg _ => hstart g hg⟩
  have hgoes : ∀ (left right : State α) (log log' : Log), left.Divides b mine right →
      ((happenings.filter (·.stays mine b.serving purges)).foldl Chronicle.after ⟨left, log⟩).state.Divides
        b mine (happenings.foldl Chronicle.after ⟨right, log'⟩).state := by
    induction happenings with
    | nil => exact fun left right log log' h => h
    | cons e rest ih =>
        intro left right log log' h
        have hafter := h.after e purges log log'
        rw [List.foldl_cons]
        by_cases hstays : e.stays mine b.serving purges = true
        · rw [List.filter_cons_of_pos hstays, List.foldl_cons]
          rw [if_pos hstays] at hafter
          exact ih _ _ _ _ hafter
        · rw [List.filter_cons_of_neg hstays]
          rw [if_neg hstays] at hafter
          exact ih _ _ _ _ hafter
  exact hgoes s s [] [] hsame

end

/-! ## Ends -/

/-- Whoever is kept ends in the same way and at the same time. -/
theorem State.Divides.ended {b : Border} {mine : Nat → Bool} {s s' : State α}
    (h : s.Divides b mine s') {i : Nat} (hi : mine i = true) : s'.ended? i = s.ended? i := by
  rcases h with ⟨f, hf, _, hbeside⟩
  have hsame := hbeside f hf fun _ _ => rfl
  unfold State.ended?
  cases ht : s.tasks[i]? with
  | none =>
      have hnone : s'.tasks[i]? = none := by
        rw [List.getElem?_eq_none_iff] at ht ⊢
        rw [hsame.length]
        exact ht
      rw [hnone]
  | some t =>
      have hlt : i < s'.tasks.length := by
        rw [hsame.length]
        exact (List.getElem?_eq_some_iff.1 ht).1
      have ht' := List.getElem?_eq_getElem hlt
      have hwait := (hsame.kept i t _ hi ht ht').wait
      rw [ht', Option.map_some, Option.map_some]
      generalize (s'.tasks[i]).wait = wait' at hwait
      cases hw : t.wait with
      | time due program =>
          rw [hw] at hwait
          rcases hwait with ⟨program', rfl, _⟩
          rfl
      | answer flight expires deadline call next =>
          rw [hw] at hwait
          rcases hwait with ⟨_, next', rfl, _⟩
          rfl
      | response due given next =>
          rw [hw] at hwait
          rcases hwait with ⟨next', rfl, _⟩
          rfl
      | nothing ending time =>
          rw [hw] at hwait
          cases hwait
          rfl

end Turnstile.Run

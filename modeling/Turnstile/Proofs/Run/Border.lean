import Turnstile.Proofs.Run.Conduct
import Turnstile.Proofs.Store.Sight

/-!
# The border between two parts of a run

Some of those who take part in a run are kept, and the others are left out.  Whoever
is kept sees of the store only what the others do not write.  So a world in which
everybody takes part and one in which the others do not stay alike to those who are
kept: a step of the others is not seen, and a step of those who are kept is the same
in both.

Lock tokens are counted through, so that the same step takes other tokens where other
steps went before it; the two worlds are alike up to a renaming of the tokens.

Main results:

- Theorem `settle_others`: what the others do until they have to wait is not seen.
- Theorem `settle_kept`: whoever is kept does the same in both worlds until it has to
  wait.
-/

namespace Turnstile.Run

open Store (Answer AlikeWithin AnsweredAlike Call LocalStore Operation Sight Token)

/-- What keeps those who are kept and the others apart. -/
structure Border where
  /-- What those who are kept see of the store. -/
  sight : Sight
  /-- The calls of those who are kept. -/
  kept : Call → Prop
  /-- The calls of the others. -/
  others : Call → Prop
  /-- Whether it is those who are kept that run handlers and owe calls; if not, it is
  the others. -/
  serving : Bool

/-- Those who are kept call only for what they see, the others write nothing of it, and
those who are kept need not count the calls of the others to know how theirs are
treated. -/
structure Border.Parts (b : Border) (plan : Plan) : Prop where
  sees : ∀ call, b.kept call → b.sight.Sees call
  misses : ∀ call, b.others call → b.sight.Misses call
  treats : ∀ call, b.kept call → (∀ other, b.others other → other.operation ≠ call.operation) ∨
    ∀ n n', plan call.operation n = plan call.operation n'

variable {α β : Type}

/-! ## Programs of both sides -/

/-- A program of the others. -/
def Aside (b : Border) : Program α → Prop
  | .done _ => True
  | .crash => True
  | .call call _ next => b.others call ∧ ∀ result, Aside b (next result)
  | .sleep _ next => Aside b next
  | .now next => ∀ t, Aside b (next t)
  | .emit _ next => Aside b next
  | .serve _ next => b.serving = false ∧ ∀ response, Aside b (next response)
  | .fresh next => ∀ n, Aside b (next n)
  | .hold call next => (b.serving = false ∧ b.others call) ∧ Aside b next
  | .unhold next => Aside b next

/-- A program of those who are kept, and the same program with other tokens. -/
def Matches (b : Border) (f : Token → Token) : Program α → Program α → Prop
  | .done a, p' => p' = .done a
  | .crash, p' => p' = .crash
  | .call call deadline next, p' => b.kept call ∧
      ∃ next', p' = .call (call.rename f) deadline next' ∧
        ∀ result, Matches b f (next result) (next' (result.map (Answer.rename f)))
  | .sleep span next, p' => ∃ next', p' = .sleep span next' ∧ Matches b f next next'
  | .now next, p' => ∃ next', p' = .now next' ∧ ∀ t, Matches b f (next t) (next' t)
  | .emit event next, p' => ∃ next', p' = .emit event next' ∧ Matches b f next next'
  | .serve request next, p' => b.serving = true ∧
      ∃ next', p' = .serve request next' ∧ ∀ response, Matches b f (next response) (next' response)
  | .fresh _, _ => False
  | .hold call next, p' => (b.serving = true ∧ b.kept call) ∧
      ∃ next', p' = .hold (call.rename f) next' ∧ Matches b f next next'
  | .unhold next, p' => ∃ next', p' = .unhold next' ∧ Matches b f next next'

/-- A program that goes on aside may be followed by one that does. -/
theorem Aside.bind {b : Border} {p : Program α} {g : α → Program β} (h : Aside b p)
    (hnext : ∀ a, Aside b (g a)) : Aside b (p >>= g) := by
  show Aside b (p.bind g)
  induction p with
  | done a => exact hnext a
  | crash => exact trivial
  | call call deadline next ih => exact ⟨h.1, fun result => ih result (h.2 result)⟩
  | sleep span next ih => exact ih h
  | now next ih => exact fun t => ih t (h t)
  | emit event next ih => exact ih h
  | serve request next ih => exact ⟨h.1, fun response => ih response (h.2 response)⟩
  | fresh next ih => exact fun n => ih n (h n)
  | hold call next ih => exact ⟨h.1, ih h.2⟩
  | unhold next ih => exact ih h

/-- Where it is the others that serve, a program that makes and owes calls of the others
only is one of theirs. -/
theorem Makes.aside {b : Border} {p : Program α} (h : Makes b.others b.others p)
    (hserving : b.serving = false) : Aside b p := by
  induction p with
  | done a => exact trivial
  | crash => exact trivial
  | call call deadline next ih => exact ⟨h.1, fun result => ih result (h.2 result)⟩
  | sleep span next ih => exact ih h
  | now next ih => exact fun t => ih t (h t)
  | emit event next ih => exact ih h
  | serve request next ih => exact ⟨hserving, fun response => ih response (h response)⟩
  | fresh next ih => exact fun n => ih n (h n)
  | hold call next ih => exact ⟨⟨hserving, h.1⟩, ih h.2⟩
  | unhold next ih => exact ih h

/-- Programs that match may be followed by ones that do. -/
theorem Matches.bind {b : Border} {f : Token → Token} {p p' : Program α} {g g' : α → Program β}
    (h : Matches b f p p') (hnext : ∀ a, Matches b f (g a) (g' a)) :
    Matches b f (p >>= g) (p' >>= g') := by
  show Matches b f (p.bind g) (p'.bind g')
  induction p generalizing p' with
  | done a =>
      cases h
      exact hnext a
  | crash =>
      cases h
      exact rfl
  | call call deadline next ih =>
      rcases h with ⟨hkept, next', rfl, hmatches⟩
      exact ⟨hkept, _, rfl, fun result => ih result (hmatches result)⟩
  | sleep span next ih =>
      rcases h with ⟨next', rfl, hmatches⟩
      exact ⟨_, rfl, ih hmatches⟩
  | now next ih =>
      rcases h with ⟨next', rfl, hmatches⟩
      exact ⟨_, rfl, fun t => ih t (hmatches t)⟩
  | emit event next ih =>
      rcases h with ⟨next', rfl, hmatches⟩
      exact ⟨_, rfl, ih hmatches⟩
  | serve request next ih =>
      rcases h with ⟨hserving, next', rfl, hmatches⟩
      exact ⟨hserving, _, rfl, fun response => ih response (hmatches response)⟩
  | fresh next ih => exact h.elim
  | hold call next ih =>
      rcases h with ⟨hkept, next', rfl, hmatches⟩
      exact ⟨hkept, _, rfl, ih hmatches⟩
  | unhold next ih =>
      rcases h with ⟨next', rfl, hmatches⟩
      exact ⟨_, rfl, ih hmatches⟩

/-! ## Calls in flight -/

/-- The call in flight with other tokens. -/
def Flight.rename (f : Token → Token) (flight : Flight) : Flight :=
  match flight.phase with
  | .outbound call treatment => { flight with phase := .outbound (call.rename f) treatment }
  | .inbound answer => { flight with phase := .inbound (answer.rename f) }

/-- The progress of a call with other tokens. -/
def Progress.rename (f : Token → Token) : Progress → Progress
  | .answered result => .answered (result.map (Answer.rename f))
  | .waiting flight => .waiting (flight.rename f)
  | .overflow => .overflow

/-- A call in flight is one of the given calls, as long as it is not carried out. -/
def Flight.IsOf (calls : Call → Prop) (flight : Flight) : Prop :=
  match flight.phase with
  | .outbound call _ => calls call
  | .inbound _ => True

/-- A call that is in flight still is one of the given calls. -/
def Progress.IsOf (calls : Call → Prop) : Progress → Prop
  | .waiting flight => flight.IsOf calls
  | _ => True

/-! ## Worlds that are alike -/

/-- To those who are kept the second world, in which everybody takes part, is like the
first one, in which the others do not. -/
structure Beside (b : Border) (f : Token → Token) (w w' : World) : Prop where
  parts : b.Parts w.plan
  distinct : Store.Ran.Distinct w.store
  clocks : w'.clocks = w.clocks
  plan : w'.plan = w.plan
  counts : ∀ operation, (∀ other, b.others other → other.operation ≠ operation) →
    w'.counts operation = w.counts operation
  served : b.serving = true → w'.served = w.served
  store : AlikeWithin b.sight f w.mono w.store w'.store

/-- The tokens of a stretch of two runs. -/
structure Stretch where
  /-- How many tokens the first world had issued before. -/
  first : Nat
  /-- How many tokens the second world had issued before. -/
  second : Nat
  /-- How many tokens the first world has issued at the end of the stretch. -/
  last : Nat

/-- Both worlds have issued equally many tokens in the stretch, and each token of it is
renamed to the one that the other world issues in its place. -/
structure Lined (f : Token → Token) (x : Stretch) (issued issued' : Nat) : Prop where
  even : issued' + x.first = issued + x.second
  begun : x.first ≤ issued
  fresh : ∀ n, x.first < n → n ≤ x.last → f (.issued n) = .issued (n - x.first + x.second)

section

variable {b : Border} {f : Token → Token} {w w' : World} {call : Call}

/-- Worlds beside each other have the same monotonic clock. -/
theorem Beside.mono_eq (h : Beside b f w w') : w'.mono = w.mono :=
  congrArg Clocks.mono h.clocks

/-! ## Calls of the others -/

/-- A call of the others is not seen. -/
theorem Beside.perform_others (h : Beside b f w w') (hothers : b.others call) {answer : Answer}
    {next : World} (hdone : w'.perform call = .ok (answer, next)) : Beside b f w next := by
  unfold World.perform at hdone
  cases hstore : w'.store.perform w'.mono (.issued (w'.tokens + 1)) call with
  | error overflow =>
      rw [hstore] at hdone
      exact nomatch hdone
  | ok r =>
      rcases r with ⟨answer', store⟩
      simp only [hstore, Except.map, Except.ok.injEq, Prod.mk.injEq] at hdone
      rw [← hdone.2]
      rw [h.mono_eq] at hstore
      exact { h with store := h.store.beside (h.parts.misses call hothers) hstore }

/-- A call that is not kept is carried out beside the other world. -/
theorem Beside.carryOut_others (h : Beside b f w w') (hothers : b.others call)
    (treatment : Treatment) :
    Beside b f w (w'.carryOut call treatment).2 ∧
      (w'.carryOut call treatment).1.IsOf b.others := by
  unfold World.carryOut
  cases treatment.failure with
  | some error => exact ⟨h, trivial⟩
  | none =>
      cases hdone : w'.perform call with
      | error overflow => exact ⟨h, trivial⟩
      | ok r =>
          rcases r with ⟨answer, next⟩
          have hnext := h.perform_others hothers hdone
          cases treatment.after with
          | none => exact ⟨hnext, trivial⟩
          | some wait => exact ⟨hnext, trivial⟩

/-- Another call was begun. -/
theorem counts_next_of_ne {counts : Counts} {operation other : Operation} (h : operation ≠ other) :
    counts.next operation other = counts other := by
  unfold Counts.next
  exact if_neg fun heq => h heq.symm

/-- So it is begun. -/
theorem Beside.send_others (h : Beside b f w w') (hothers : b.others call) :
    Beside b f w (w'.send call).2 ∧ (w'.send call).1.IsOf b.others := by
  unfold World.send
  dsimp only
  have hbegun : Beside b f w
      { w' with counts := w'.counts.next call.operation, calls := call :: w'.calls } := by
    refine { h with counts := fun operation hnone => ?_ }
    rw [← h.counts operation hnone]
    exact counts_next_of_ne (hnone call hothers)
  cases (w'.plan call.operation (w'.counts.next call.operation call.operation)).before with
  | some wait => exact ⟨hbegun, hothers⟩
  | none => exact hbegun.carryOut_others hothers _

/-- So it goes on. -/
theorem Beside.proceed_others (h : Beside b f w w') {flight : Flight}
    (hothers : flight.IsOf b.others) :
    Beside b f w (w'.proceed flight).2 ∧ (w'.proceed flight).1.IsOf b.others := by
  unfold World.proceed
  unfold Flight.IsOf at hothers
  cases hphase : flight.phase with
  | outbound call treatment =>
      rw [hphase] at hothers
      exact h.carryOut_others hothers treatment
  | inbound answer => exact ⟨h, trivial⟩

/-! ## Calls of those who are kept -/

/-- The world performs a call as its store does, under a fresh token. -/
theorem perform_ok_iff {answer : Answer} {next : World} :
    w.perform call = .ok (answer, next) ↔
      ∃ store, w.store.perform w.mono (.issued (w.tokens + 1)) call = .ok (answer, store) ∧
        next = { w with store := store, tokens := w.tokens + 1 } := by
  unfold World.perform
  cases w.store.perform w.mono (.issued (w.tokens + 1)) call with
  | error overflow => simp [Except.map]
  | ok r =>
      simp only [Except.map, Except.ok.injEq, Prod.mk.injEq]
      constructor
      · rintro ⟨rfl, rfl⟩
        exact ⟨r.2, rfl, rfl⟩
      · rintro ⟨store, rfl, rfl⟩
        exact ⟨rfl, rfl⟩

/-- It overflows where its store does. -/
theorem perform_error_iff {overflow : Store.Overflow} :
    w.perform call = .error overflow ↔
      w.store.perform w.mono (.issued (w.tokens + 1)) call = .error overflow := by
  unfold World.perform
  cases w.store.perform w.mono (.issued (w.tokens + 1)) call with
  | error overflow => simp [Except.map]
  | ok r => simp [Except.map]

/-- How far a call has come in two worlds that are alike, and where it led. -/
structure Together (b : Border) (f : Token → Token) (x : Stretch) (r r' : Progress × World) : Prop where
  progress : r'.1 = r.1.rename f
  flying : r.1.IsOf b.kept
  world : Beside b f r.2 r'.2
  lined : Lined f x r.2.tokens r'.2.tokens

/-- A call of somebody who is kept is carried out alike. -/
theorem Beside.perform_kept (h : Beside b f w w') (hf : Function.Injective f) (hkept : b.kept call)
    {x : Stretch} (hlined : Lined f x w.tokens w'.tokens)
    (hlast : ∀ answer next, w.perform call = .ok (answer, next) → next.tokens ≤ x.last) :
    (∃ overflow, w.perform call = .error overflow ∧ w'.perform (call.rename f) = .error overflow) ∨
    ∃ answer next next', w.perform call = .ok (answer, next) ∧
      w'.perform (call.rename f) = .ok (answer.rename f, next') ∧ Beside b f next next' ∧
      Lined f x next.tokens next'.tokens := by
  have halike := h.store.perform hf (.issued (w.tokens + 1)) (h.parts.sees call hkept)
  cases hdone : w.store.perform w.mono (.issued (w.tokens + 1)) call with
  | error overflow =>
      rw [hdone] at halike
      generalize hdone' : w'.store.perform w.mono (f (.issued (w.tokens + 1))) (call.rename f) = r'
        at halike
      cases halike
      refine Or.inl ⟨overflow, perform_error_iff.2 hdone, perform_error_iff.2 ?_⟩
      rw [h.mono_eq]
      exact LocalStore.perform_error_of_fresh hdone' _
  | ok r =>
      rcases r with ⟨answer, store⟩
      have hnext : w.perform call = .ok (answer, { w with store := store, tokens := w.tokens + 1 }) :=
        perform_ok_iff.2 ⟨store, hdone, rfl⟩
      have hissued : w.tokens + 1 ≤ x.last := hlast _ _ hnext
      have hfresh : f (.issued (w.tokens + 1)) = .issued (w'.tokens + 1) := by
        have heven := hlined.even
        have hbegun := hlined.begun
        rw [hlined.fresh _ (Nat.lt_succ_of_le hbegun) hissued]
        congr 1
        omega
      rw [hdone, hfresh] at halike
      generalize hdone' : w'.store.perform w.mono (.issued (w'.tokens + 1)) (call.rename f) = r'
        at halike
      cases halike with
      | @answered _ store' _ hstores =>
          rw [← h.mono_eq] at hdone'
          refine Or.inr ⟨answer, _, _, hnext, perform_ok_iff.2 ⟨store', hdone', rfl⟩, ?_, ?_⟩
          · exact { h with
              distinct := Store.Ran.distinct_perform h.distinct hdone
              store := hstores }
          · have heven := hlined.even
            exact ⟨by simp only; omega, Nat.le_succ_of_le hlined.begun, hlined.fresh⟩

/-- A call that is kept is carried out in both worlds together. -/
theorem Beside.carryOut_kept (h : Beside b f w w') (hf : Function.Injective f)
    (hkept : b.kept call) (treatment : Treatment) {x : Stretch} (hlined : Lined f x w.tokens w'.tokens)
    (hlast : (w.carryOut call treatment).2.tokens ≤ x.last) :
    Together b f x (w.carryOut call treatment) (w'.carryOut (call.rename f) treatment) := by
  unfold World.carryOut at hlast ⊢
  cases hfailure : treatment.failure with
  | some error => exact ⟨rfl, trivial, h, hlined⟩
  | none =>
      rw [hfailure] at hlast
      dsimp only at hlast ⊢
      have hbound : ∀ answer next, w.perform call = .ok (answer, next) → next.tokens ≤ x.last := by
        intro answer next hdone
        rw [hdone] at hlast
        cases hafter : treatment.after with
        | none => simpa only [hafter] using hlast
        | some wait => simpa only [hafter] using hlast
      rcases h.perform_kept hf hkept hlined hbound with
        ⟨overflow, hdone, hdone'⟩ | ⟨answer, next, next', hdone, hdone', hnext, hlined'⟩
      · rw [hdone, hdone']
        exact ⟨rfl, trivial, h, hlined⟩
      · rw [hdone, hdone']
        cases treatment.after with
        | none => exact ⟨rfl, trivial, hnext, hlined'⟩
        | some wait =>
            refine ⟨?_, trivial, hnext, hlined'⟩
            show Progress.waiting ⟨.inbound (answer.rename f), next'.mono + wait⟩ = _
            rw [hnext.mono_eq]
            rfl

/-- So it is begun. -/
theorem Beside.send_kept (h : Beside b f w w') (hf : Function.Injective f) (hkept : b.kept call)
    {x : Stretch} (hlined : Lined f x w.tokens w'.tokens) (hlast : (w.send call).2.tokens ≤ x.last) :
    Together b f x (w.send call) (w'.send (call.rename f)) := by
  have hbegun : Beside b f
      { w with counts := w.counts.next call.operation, calls := call :: w.calls }
      { w' with counts := w'.counts.next call.operation, calls := call.rename f :: w'.calls } := by
    refine { h with counts := fun operation hnone => ?_ }
    simp only [Counts.next, h.counts operation hnone]
  have htreatment : w'.plan call.operation (w'.counts.next call.operation call.operation) =
      w.plan call.operation (w.counts.next call.operation call.operation) := by
    rw [h.plan]
    rcases h.parts.treats call hkept with hnone | hsteady
    · exact congrArg _ (hbegun.counts _ hnone)
    · exact hsteady _ _
  unfold World.send at hlast ⊢
  simp only [Call.operation_rename, htreatment]
  cases hbefore : (w.plan call.operation (w.counts.next call.operation call.operation)).before with
  | some wait =>
      refine ⟨?_, hkept, hbegun, hlined⟩
      show Progress.waiting ⟨.outbound (call.rename f) _, w'.mono + wait⟩ = _
      rw [h.mono_eq]
      rfl
  | none =>
      simp only [hbefore] at hlast
      exact hbegun.carryOut_kept hf hkept _ hlined hlast

/-- So it goes on. -/
theorem Beside.proceed_kept (h : Beside b f w w') (hf : Function.Injective f) {flight : Flight}
    (hkept : flight.IsOf b.kept) {x : Stretch} (hlined : Lined f x w.tokens w'.tokens)
    (hlast : (w.proceed flight).2.tokens ≤ x.last) :
    Together b f x (w.proceed flight) (w'.proceed (flight.rename f)) := by
  rcases flight with ⟨phase, due⟩
  cases phase with
  | outbound call treatment => exact h.carryOut_kept hf hkept treatment hlined hlast
  | inbound answer => exact ⟨rfl, trivial, h, hlined⟩

/-! ## Tokens are counted up -/

/-- Carrying out a call takes no token back. -/
theorem tokens_le_carryOut (w : World) (call : Call) (treatment : Treatment) :
    w.tokens ≤ (w.carryOut call treatment).2.tokens := by
  unfold World.carryOut
  cases treatment.failure with
  | some error => exact Nat.le_refl _
  | none =>
      cases hdone : w.perform call with
      | error overflow => exact Nat.le_refl _
      | ok r =>
          rcases r with ⟨answer, next⟩
          rcases perform_ok_iff.1 hdone with ⟨store, _, rfl⟩
          cases treatment.after with
          | none => exact Nat.le_succ _
          | some wait => exact Nat.le_succ _

/-- Neither does beginning one. -/
theorem tokens_le_send (w : World) (call : Call) : w.tokens ≤ (w.send call).2.tokens := by
  unfold World.send
  dsimp only
  cases (w.plan call.operation (w.counts.next call.operation call.operation)).before with
  | some wait => exact Nat.le_refl _
  | none =>
      exact tokens_le_carryOut
        { w with counts := w.counts.next call.operation, calls := call :: w.calls } call _

/-- Nor does going on with one. -/
theorem tokens_le_proceed (w : World) (flight : Flight) : w.tokens ≤ (w.proceed flight).2.tokens := by
  unfold World.proceed
  cases flight.phase with
  | outbound call treatment => exact tokens_le_carryOut w call treatment
  | inbound answer => exact Nat.le_refl _

/-- Nor does settling a program. -/
theorem tokens_le_settle (handler : Handler) (w : World) (owed : Option Call) (p : Program α) :
    w.tokens ≤ (settle handler w owed p).world.tokens := by
  induction p generalizing w owed with
  | done a => exact Nat.le_refl _
  | crash => exact Nat.le_refl _
  | call call deadline next ih =>
      have hsend := tokens_le_send w call
      unfold settle
      rcases hprogress : w.send call with ⟨progress, w'⟩
      rw [hprogress] at hsend
      cases progress with
      | answered result => exact Nat.le_trans hsend (ih result w' owed)
      | waiting flight => exact hsend
      | overflow => exact hsend
  | sleep span next ih =>
      unfold settle
      split
      · exact ih w owed
      · exact Nat.le_refl _
  | now next ih => exact ih _ w owed
  | emit event next ih => exact ih { w with events := event :: w.events } owed
  | serve request next ih =>
      unfold settle
      dsimp only
      split
      · exact Nat.le_refl _
      · exact ih _ { w with served := w.served + 1 } owed
      · exact Nat.le_refl _
  | fresh next ih => exact ih _ { w with drawn := w.drawn + 1 } owed
  | hold call next ih => exact ih w _
  | unhold next ih => exact ih w none

/-- The tokens of a call that is begun are issued as its program settles. -/
theorem tokens_le_settle_call (handler : Handler) (w : World) (owed : Option Call) (call : Call)
    (deadline : Span) (next : Except Store.Error Answer → Program α) :
    (w.send call).2.tokens ≤ (settle handler w owed (.call call deadline next)).world.tokens := by
  unfold settle
  rcases w.send call with ⟨progress, sent⟩
  cases progress with
  | answered result => exact tokens_le_settle handler sent owed (next result)
  | waiting flight => exact Nat.le_refl _
  | overflow => exact Nat.le_refl _

end

/-! ## Waiting -/

/-- What somebody of the others waits for. -/
def Wait.Aside (b : Border) : Wait α → Prop
  | .time _ program => Run.Aside b program
  | .answer flight _ _ _ next => flight.IsOf b.others ∧ ∀ result, Run.Aside b (next result)
  | .response _ _ next => ∀ response, Run.Aside b (next response)
  | .nothing _ _ => True

/-- What somebody who is kept waits for, and the same with other tokens. -/
def Wait.Matches (b : Border) (f : Token → Token) : Wait α → Wait α → Prop
  | .time due program, wait' => ∃ program', wait' = .time due program' ∧
      Run.Matches b f program program'
  | .answer flight expires deadline call next, wait' => flight.IsOf b.kept ∧
      ∃ next', wait' = .answer (flight.rename f) expires deadline (call.rename f) next' ∧
        ∀ result, Run.Matches b f (next result) (next' (result.map (Answer.rename f)))
  | .response due given next, wait' => ∃ next', wait' = .response due given next' ∧
      ∀ response, Run.Matches b f (next response) (next' response)
  | .nothing ending moment, wait' => wait' = .nothing ending moment

/-- What the others owe. -/
def OwesAside (b : Border) (owed : Option Call) : Prop :=
  ∀ call, owed = some call → b.serving = false ∧ b.others call

/-- What those who are kept owe, and the same with other tokens. -/
def OwesAlike (b : Border) (f : Token → Token) (owed owed' : Option Call) : Prop :=
  owed' = owed.map (Call.rename f) ∧ ∀ call, owed = some call → b.serving = true ∧ b.kept call

/-- Where somebody of the others stands, in a world that is alike to one without
them. -/
structure Standing.Aside (b : Border) (f : Token → Token) (w : World) (s : Standing α) : Prop where
  wait : s.wait.Aside b
  owed : OwesAside b s.owed
  world : Beside b f w s.world

/-- Where somebody who is kept stands in two worlds that are alike. -/
structure Standing.Matches (b : Border) (f : Token → Token) (x : Stretch) (s s' : Standing α) : Prop where
  wait : s.wait.Matches b f s'.wait
  owed : OwesAlike b f s.owed s'.owed
  world : Beside b f s.world s'.world
  lined : Lined f x s.world.tokens s'.world.tokens

section

variable {b : Border} {f : Token → Token} {w w' : World}

/-- Who owes nothing owes nothing that is kept. -/
theorem owesAside_none : OwesAside b none := nofun

/-- Two who owe nothing owe alike. -/
theorem owesAlike_none : OwesAlike b f none none := ⟨rfl, nofun⟩

/-- Where no token is issued and no call is made, two worlds stay alike. -/
theorem Beside.of_eq {next next' : World} (h : Beside b f w w') (hplan : next.plan = w.plan)
    (hclocks : next.clocks = w.clocks) (hcounts : next.counts = w.counts)
    (hstore : next.store = w.store) (hplan' : next'.plan = w'.plan)
    (hclocks' : next'.clocks = w'.clocks) (hcounts' : next'.counts = w'.counts)
    (hstore' : next'.store = w'.store) (hserved : b.serving = true → next'.served = next.served) :
    Beside b f next next' := by
  refine ⟨hplan ▸ h.parts, hstore ▸ h.distinct, ?_, ?_, ?_, hserved, ?_⟩
  · rw [hclocks, hclocks', h.clocks]
  · rw [hplan, hplan', h.plan]
  · rw [hcounts, hcounts']
    exact h.counts
  · have hmono : next.mono = w.mono := congrArg Clocks.mono hclocks
    rw [hstore, hstore', hmono]
    exact h.store

/-- Whoever comes to an end in two worlds that are alike does so at one time. -/
theorem Beside.ends {owed owed' : Option Call} {x : Stretch} (h : Beside b f w w')
    (howed : OwesAlike b f owed owed') (hlined : Lined f x w.tokens w'.tokens) (ending : Ending α) :
    Standing.Matches b f x ⟨.nothing ending w.mono, owed, w⟩ ⟨.nothing ending w'.mono, owed', w'⟩ := by
  refine ⟨?_, howed, h, hlined⟩
  show Wait.nothing ending w'.mono = Wait.nothing ending w.mono
  rw [h.mono_eq]

/-- What the others do until they have to wait is not seen. -/
theorem settle_others (handler : Handler) {owed : Option Call} {p : Program α} (hp : Aside b p)
    (howed : OwesAside b owed) (h : Beside b f w w') :
    (settle handler w' owed p).Aside b f w := by
  induction p generalizing w' owed with
  | done a => exact ⟨trivial, owesAside_none, h⟩
  | crash => exact ⟨trivial, howed, h⟩
  | call call deadline next ih =>
      rcases h.send_others hp.1 with ⟨hworld, hflying⟩
      unfold settle
      rcases hsend : w'.send call with ⟨progress, next'⟩
      rw [hsend] at hworld hflying
      cases progress with
      | answered result => exact ih result (hp.2 result) howed hworld
      | waiting flight => exact ⟨⟨hflying, hp.2⟩, howed, hworld⟩
      | overflow => exact ⟨trivial, howed, hworld⟩
  | sleep span next ih =>
      unfold settle
      by_cases hzero : span.timerNanos = 0
      · rw [if_pos hzero]
        exact ih hp howed h
      · rw [if_neg hzero]
        exact ⟨hp, howed, h⟩
  | now next ih => exact ih _ (hp _) howed h
  | emit event next ih =>
      refine ih hp howed (h.of_eq rfl rfl rfl rfl rfl rfl rfl rfl h.served)
  | serve request next ih =>
      have hserved : Beside b f w { w' with served := w'.served + 1 } := by
        refine h.of_eq rfl rfl rfl rfl rfl rfl rfl rfl fun hserving => ?_
        rw [hp.1] at hserving
        cases hserving
      unfold settle
      dsimp only
      split
      · exact ⟨hp.2, howed, hserved⟩
      · exact ih _ (hp.2 _) howed hserved
      · exact ⟨trivial, howed, hserved⟩
  | fresh next ih =>
      exact ih _ (hp _) howed (h.of_eq rfl rfl rfl rfl rfl rfl rfl rfl h.served)
  | hold call next ih =>
      refine ih hp.2 ?_ h
      intro owed' howed'
      rw [← Option.some.inj howed']
      exact hp.1
  | unhold next ih => exact ih hp owesAside_none h

/-- Whoever is kept does the same in both worlds until it has to wait. -/
theorem settle_kept (handler : Handler) (hf : Function.Injective f) {owed owed' : Option Call}
    {p p' : Program α} (hp : Matches b f p p') (howed : OwesAlike b f owed owed')
    (h : Beside b f w w') {x : Stretch} (hlined : Lined f x w.tokens w'.tokens)
    (hlast : (settle handler w owed p).world.tokens ≤ x.last) :
    (settle handler w owed p).Matches b f x (settle handler w' owed' p') := by
  induction p generalizing w w' owed owed' p' with
  | done a =>
      cases hp
      exact h.ends owesAlike_none hlined (.result a)
  | crash =>
      cases hp
      exact h.ends howed hlined .crashed
  | call call deadline next ih =>
      rcases hp with ⟨hkept, next', rfl, hmatches⟩
      have hsent := Nat.le_trans (tokens_le_settle_call handler w owed call deadline next) hlast
      rcases h.send_kept hf hkept hlined hsent with ⟨hprogress, hflying, hworld, hlined'⟩
      unfold settle at hlast ⊢
      rcases hsend : w.send call with ⟨progress, sent⟩
      rcases hsend' : w'.send (call.rename f) with ⟨progress', sent'⟩
      rw [hsend] at hlast hprogress hflying hworld hlined'
      rw [hsend'] at hprogress hworld hlined'
      simp only at hprogress hworld hlined'
      subst hprogress
      cases progress with
      | answered result => exact ih result (hmatches result) howed hworld hlined' hlast
      | waiting flight =>
          refine ⟨⟨hflying, next', ?_, hmatches⟩, howed, hworld, hlined'⟩
          simp only [Progress.rename, hworld.mono_eq]
      | overflow => exact hworld.ends howed hlined' .crashed
  | sleep span next ih =>
      rcases hp with ⟨next', rfl, hmatches⟩
      unfold settle at hlast ⊢
      by_cases hzero : span.timerNanos = 0
      · simp only [hzero, if_true] at hlast ⊢
        exact ih hmatches howed h hlined hlast
      · simp only [hzero, if_false]
        refine ⟨⟨next', ?_, hmatches⟩, howed, h, hlined⟩
        rw [h.mono_eq]
  | now next ih =>
      rcases hp with ⟨next', rfl, hmatches⟩
      unfold settle at hlast ⊢
      rw [h.clocks]
      exact ih _ (hmatches _) howed h hlined hlast
  | emit event next ih =>
      rcases hp with ⟨next', rfl, hmatches⟩
      unfold settle at hlast ⊢
      exact ih hmatches howed (h.of_eq rfl rfl rfl rfl rfl rfl rfl rfl h.served) hlined hlast
  | serve request next ih =>
      rcases hp with ⟨hserving, next', rfl, hmatches⟩
      have hserved : Beside b f { w with served := w.served + 1 } { w' with served := w'.served + 1 } :=
        h.of_eq rfl rfl rfl rfl rfl rfl rfl rfl fun _ => congrArg (· + 1) (h.served hserving)
      have hnumber : w'.served = w.served := h.served hserving
      unfold settle at hlast ⊢
      simp only [hnumber] at hlast hserved ⊢
      cases hdelay : handler.delay with
      | some delay =>
          refine ⟨⟨next', ?_, hmatches⟩, howed, hserved, hlined⟩
          show Wait.response (w'.mono + delay) _ next' = Wait.response (w.mono + delay) _ next'
          rw [h.mono_eq]
      | none =>
          cases hanswer : handler.answer (w.served + 1) request with
          | none => exact hserved.ends howed hlined .crashed
          | some response =>
              simp only [hdelay, hanswer] at hlast
              exact ih response (hmatches response) howed hserved hlined hlast
  | fresh next ih => exact hp.elim
  | hold call next ih =>
      rcases hp with ⟨hkept, next', rfl, hmatches⟩
      unfold settle at hlast ⊢
      refine ih hmatches ⟨rfl, ?_⟩ h hlined hlast
      intro owed'' howed''
      rw [← Option.some.inj howed'']
      exact hkept
  | unhold next ih =>
      rcases hp with ⟨next', rfl, hmatches⟩
      unfold settle at hlast ⊢
      exact ih hmatches owesAlike_none h hlined hlast

end

end Turnstile.Run

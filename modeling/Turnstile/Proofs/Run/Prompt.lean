import Turnstile.Proofs.Run.Remains

/-!
# Prompt runs

Where no call has to wait, before it is carried out or for its answer, a task goes
on without a break until it pauses, waits for its handler, or ends.  What it notes
meanwhile stands together in the log, and nobody else notes anything in between.

Main results:

- Theorem `chronicle_plan`: the plan of a run stays as it is.
- Theorem `chronicle_prompt`: every chronicle under a prompt plan is prompt.
- Theorem `Unbroken.behind`: whatever another noted before a stretch of notes ended, it
  noted before that stretch began.
-/

namespace Turnstile.Run

open Store (Answer Call)

variable {α : Type}

/-- No call waits: each is carried out or fails at once, and is answered at once. -/
def Plan.IsPrompt (plan : Plan) : Prop :=
  ∀ operation n, (plan operation n).before = none ∧ (plan operation n).after = none

/-- The plan without faults is prompt. -/
theorem faultless_isPrompt : Plan.faultless.IsPrompt := fun _ _ => ⟨rfl, rfl⟩

/-- Whether a note follows a pause or a wait for the handler, or gives up the task. -/
def Note.EndsWait : Note → Prop
  | .resumed => True
  | .finished _ => True
  | .quit _ => True
  | _ => False

/-- Whether a task waits for the answer of a call. -/
def Wait.AwaitsAnswer : Wait α → Prop
  | .answer .. => True
  | _ => False

/-! ## Calls -/

/-- Carrying out a call changes no plan. -/
theorem plan_carryOut (w : World) (call : Call) (treatment : Treatment) :
    (w.carryOut call treatment).2.plan = w.plan := by
  unfold World.carryOut World.perform
  cases treatment.failure with
  | some error => rfl
  | none =>
      dsimp only
      cases w.store.perform w.mono (.issued (w.tokens + 1)) call with
      | error e => rfl
      | ok r => cases treatment.after <;> rfl

/-- Neither does going on with one. -/
theorem plan_proceed (w : World) (flight : Flight) : (w.proceed flight).2.plan = w.plan := by
  unfold World.proceed
  cases flight.phase with
  | outbound call treatment => exact plan_carryOut w call treatment
  | inbound answer => rfl

/-- Nor does beginning one. -/
theorem plan_send (w : World) (call : Call) : (w.send call).2.plan = w.plan := by
  unfold World.send
  dsimp only
  cases (w.plan call.operation (w.counts.next call.operation call.operation)).before with
  | some wait => rfl
  | none => exact plan_carryOut _ call _

/-- A call that is answered at once is not in flight after it was carried out. -/
theorem carryOut_prompt (w : World) (call : Call) {treatment : Treatment}
    (h : treatment.after = none) (flight : Flight) :
    (w.carryOut call treatment).1 ≠ .waiting flight := by
  unfold World.carryOut
  cases treatment.failure with
  | some error => exact nofun
  | none =>
      dsimp only
      rw [h]
      cases w.perform call with
      | error e => exact nofun
      | ok r => exact nofun

/-- Under a prompt plan no call is in flight after it was begun. -/
theorem send_prompt {w : World} (h : w.plan.IsPrompt) (call : Call) (flight : Flight) :
    (w.send call).1 ≠ .waiting flight := by
  have htreated := h call.operation (w.counts.next call.operation call.operation)
  unfold World.send
  dsimp only
  rw [htreated.1]
  exact carryOut_prompt _ call htreated.2 flight

/-! ## Tasks -/

/-- Whatever a program does, the plan stays. -/
theorem plan_settle (handler : Handler) (p : Program α) (w : World) (owed : Option Call) :
    (settle handler w owed p).world.plan = w.plan := by
  induction p generalizing w owed with
  | done result => rfl
  | crash => rfl
  | call call deadline next ih =>
      have hplan := plan_send w call
      unfold settle
      cases hsend : w.send call with
      | mk progress w' =>
          rw [hsend] at hplan
          cases progress with
          | answered result => exact (ih result w' owed).trans hplan
          | waiting flight => exact hplan
          | overflow => exact hplan
  | sleep span next ih =>
      by_cases hzero : span.timerNanos = 0
      · rw [settle, if_pos hzero]
        exact ih w owed
      · rw [settle, if_neg hzero]
  | now next ih => exact ih _ w owed
  | emit event next ih => exact ih _ owed
  | serve request next ih =>
      unfold settle
      dsimp only
      cases handler.delay with
      | some delay => rfl
      | none =>
          cases handler.answer (w.served + 1) request with
          | some response => exact ih response _ owed
          | none => rfl
  | fresh next ih => exact ih _ _ owed
  | hold call next ih => exact ih w (some call)
  | unhold next ih => exact ih w none

/-- Nor does going on after a call. -/
theorem plan_afterProgress (handler : Handler) (owed : Option Call) (expires : Nat)
    (deadline : Span) (call : Call) (next : Except Store.Error Answer → Program α)
    (r : Progress × World) :
    (afterProgress handler owed expires deadline call next r).world.plan = r.2.plan := by
  rcases r with ⟨progress, w⟩
  cases progress with
  | answered result => exact plan_settle handler (next result) w owed
  | waiting flight => rfl
  | overflow => rfl

/-- A standing of a prompt run: no answer is awaited, and the plan is still
prompt. -/
structure Standing.IsPrompt (st : Standing α) : Prop where
  wait : ¬ st.wait.AwaitsAnswer
  plan : st.world.plan.IsPrompt

/-- Under a prompt plan a program does not come to wait for an answer. -/
theorem settle_prompt (handler : Handler) (p : Program α) {w : World} (h : w.plan.IsPrompt)
    (owed : Option Call) : (settle handler w owed p).IsPrompt := by
  induction p generalizing w owed with
  | done result => exact ⟨id, h⟩
  | crash => exact ⟨id, h⟩
  | call call deadline next ih =>
      have hanswered := send_prompt h call
      have hplan := plan_send w call
      unfold settle
      cases hsend : w.send call with
      | mk progress w' =>
          rw [hsend] at hanswered hplan
          have hplan' : w'.plan.IsPrompt := by
            rw [show w'.plan = w.plan from hplan]
            exact h
          cases progress with
          | answered result => exact ih result hplan' owed
          | waiting flight => exact absurd rfl (hanswered flight)
          | overflow => exact ⟨id, hplan'⟩
  | sleep span next ih =>
      by_cases hzero : span.timerNanos = 0
      · rw [settle, if_pos hzero]
        exact ih h owed
      · rw [settle, if_neg hzero]
        exact ⟨id, h⟩
  | now next ih => exact ih _ h owed
  | emit event next ih => exact ih (by exact h) owed
  | serve request next ih =>
      unfold settle
      dsimp only
      cases handler.delay with
      | some delay => exact ⟨id, h⟩
      | none =>
          cases handler.answer (w.served + 1) request with
          | some response => exact ih response (by exact h) owed
          | none => exact ⟨id, h⟩
  | fresh next ih => exact ih _ (by exact h) owed
  | hold call next ih => exact ih h (some call)
  | unhold next ih => exact ih h none

/-- A step of a prompt run: the new standing is prompt, and the first thing that is
noted ends a wait. -/
structure StepsPromptly (st : Standing α) (notes : List Note) : Prop where
  standing : st.IsPrompt
  first : ∀ newer n, notes = newer ++ [n] → n.EndsWait

/-- A step is prompt whose first note ends a wait. -/
theorem StepsPromptly.of_last {st : Standing α} {newer : List Note} {n : Note}
    (hst : st.IsPrompt) (hn : n.EndsWait) : StepsPromptly st (newer ++ [n]) := by
  refine ⟨hst, ?_⟩
  intro newer' n' heq
  have hlast := (List.append_inj' heq rfl).2
  simp only [List.cons.injEq, and_true] at hlast
  rw [← hlast]
  exact hn

/-- A step that notes nothing is prompt if what it ends in is. -/
theorem StepsPromptly.of_nil {st : Standing α} (hst : st.IsPrompt) : StepsPromptly st [] := by
  refine ⟨hst, ?_⟩
  intro newer n heq
  simp at heq

section

variable {t : Task α} {w : World} (ht : ¬ t.wait.AwaitsAnswer) (hw : w.plan.IsPrompt)

include ht hw

/-- A task is resumed promptly. -/
theorem resume_prompt : StepsPromptly (t.resume w) (t.resumeNotes w) := by
  unfold Task.resume Task.resumeNotes
  cases hwait : t.wait with
  | time due program => exact .of_last (settle_prompt _ _ hw _) trivial
  | answer flight expires deadline call next =>
      rw [hwait] at ht
      exact absurd trivial ht
  | response due given next =>
      cases given with
      | some response => exact .of_last (settle_prompt _ _ hw _) trivial
      | none =>
          have hst : (⟨.nothing .crashed w.mono, t.owed, w⟩ : Standing α).IsPrompt := ⟨id, hw⟩
          have hstep : StepsPromptly _ ([.quit t.owed] ++ [.finished none]) := .of_last hst trivial
          exact hstep
  | nothing ending time => exact .of_nil ⟨id, hw⟩

/-- The wait of a task expires promptly. -/
theorem expire_prompt : StepsPromptly (t.expire w) (t.expireNotes w) := by
  unfold Task.expire Task.expireNotes
  cases hwait : t.wait with
  | answer flight expires deadline call next =>
      rw [hwait] at ht
      exact absurd trivial ht
  | _ => exact .of_nil ⟨id, hw⟩

/-- A task is cancelled promptly. -/
theorem cancel_prompt : StepsPromptly (t.cancel w) (t.cancelNotes w) := by
  have hst : (⟨.nothing .cancelled w.mono, t.owed, w⟩ : Standing α).IsPrompt := ⟨id, hw⟩
  unfold Task.cancel Task.cancelNotes Task.hasEnded
  cases hwait : t.wait with
  | time due program =>
      have hstep : StepsPromptly _ ([] ++ [.quit t.owed]) := .of_last hst trivial
      exact hstep
  | answer flight expires deadline call next =>
      rw [hwait] at ht
      exact absurd trivial ht
  | response due given next =>
      have hstep : StepsPromptly _ ([.quit t.owed] ++ [.finished none]) := .of_last hst trivial
      exact hstep
  | nothing ending time => exact .of_nil ⟨id, hw⟩

end

/-! ## Chronicles -/

/-- In the log, what a task notes without having waited follows at once what it
noted before. -/
def Unbroken (log : Log) : Prop :=
  ∀ e past k, Tells log e past → e.task = some k → ¬ e.note.EndsWait →
    ∃ n older, past = ⟨e.time, some k, n⟩ :: older

/-- A chronicle in which no answer is awaited, and nothing is noted in between. -/
structure Prompt (h : Chronicle α) : Prop where
  plan : h.state.world.plan.IsPrompt
  waits : ∀ t ∈ h.state.tasks, ¬ t.wait.AwaitsAnswer
  unbroken : Unbroken h.log

/-- What a task notes in one step, after a wait, is unbroken. -/
theorem Unbroken.entriesOf {log : Log} (h : Unbroken log) (time i : Nat) {notes : List Note}
    (hfirst : ∀ newer n, notes = newer ++ [n] → n.EndsWait) :
    Unbroken (entriesOf time (some i) notes ++ log) := by
  induction notes with
  | nil => exact h
  | cons n notes ih =>
      intro e past k htold hk hn
      rcases List.suffix_cons_iff.1 htold with heq | htold
      · simp only [List.cons.injEq] at heq
        rcases heq with ⟨rfl, rfl⟩
        simp only [Option.some.injEq] at hk
        subst hk
        cases notes with
        | nil => exact absurd (hfirst [] n rfl) hn
        | cons n' notes => exact ⟨n', _, rfl⟩
      · refine ih ?_ e past k htold hk hn
        intro newer m heq
        apply hfirst (n :: newer) m
        rw [heq]
        rfl

/-- Entries of no task break nothing. -/
theorem Unbroken.append {log newer : Log} (h : Unbroken log) (hnone : ∀ e ∈ newer, e.task = none) :
    Unbroken (newer ++ log) := by
  intro e past k htold hk hn
  rcases tells_append htold with htold | ⟨hmem, _⟩
  · exact h e past k htold hk hn
  · rw [hnone e hmem] at hk
    exact nomatch hk

section

variable {h : Chronicle α} {i : Nat} {f : Task α → World → Standing α}
  {notes : Task α → World → List Note}

/-- Placing a task changes no plan but by its standing. -/
theorem plan_place (s : State α) (i : Nat) (t : Task α) (st : Standing α) :
    (s.place i t st).world.plan = st.world.plan := by
  unfold State.place
  dsimp only
  split
  · exact plan_send _ _
  · rfl

/-- A step of a task changes no plan. -/
theorem plan_step (s : State α) (i : Nat) {f : Task α → World → Standing α}
    (hf : ∀ t w, (f t w).world.plan = w.plan) : (s.step i f).world.plan = s.world.plan := by
  unfold State.step
  cases s.tasks[i]? with
  | none => rfl
  | some t => exact (plan_place s i t _).trans (hf t s.world)

/-- No move changes the plan. -/
theorem plan_apply (s : State α) (m : Move) : (s.apply m).world.plan = s.world.plan := by
  cases m with
  | resume i =>
      refine plan_step s i fun t w => ?_
      unfold Task.resume
      cases t.wait with
      | time due program => exact plan_settle _ program w _
      | answer flight expires deadline call next =>
          exact (plan_afterProgress _ _ _ _ _ _ _).trans (plan_proceed w flight)
      | response due response next =>
          cases response with
          | some response => exact plan_settle _ (next response) w _
          | none => rfl
      | nothing ending time => rfl
  | expire i =>
      refine plan_step s i fun t w => ?_
      unfold Task.expire
      cases t.wait with
      | answer flight expires deadline call next => exact plan_settle _ _ w _
      | _ => rfl
  | cancel i =>
      refine plan_step s i fun t w => ?_
      unfold Task.cancel
      split <;> rfl
  | deliver j =>
      show (s.deliver j).world.plan = _
      unfold State.deliver
      cases s.detached[j]? with
      | none => rfl
      | some flight => exact plan_proceed s.world flight

/-- Whatever happens in a run, the plan stays. -/
theorem chronicle_plan (s : State α) (happenings : List Happening) :
    (Chronicle.of s happenings).state.world.plan = s.world.plan := by
  refine chronicle_induction (P := fun h => h.state.world.plan = s.world.plan) s rfl ?_
  intro h e _ ih
  cases e with
  | move m => exact (plan_apply h.state m).trans ih
  | _ => exact ih

/-- What a task leaves behind belongs to nobody. -/
theorem task_of_mem_leaveEntries {t : Task α} {st : Standing α} {e : Entry}
    (he : e ∈ State.leaveEntries t st) : e.task = none := by
  unfold State.leaveEntries at he
  split at he
  · exact (mem_entriesOf he).1
  · exact absurd he List.not_mem_nil

/-- A chronicle stays prompt with a prompt step. -/
theorem prompt_step (hprompt : Prompt h)
    (hf : ∀ t : Task α, ¬ t.wait.AwaitsAnswer → ∀ w : World, w.plan.IsPrompt →
      StepsPromptly (f t w) (notes t w)) :
    Prompt ⟨h.state.step i f, h.state.stepEntries i f notes ++ h.log⟩ := by
  unfold State.step State.stepEntries
  cases hi : h.state.tasks[i]? with
  | none => exact hprompt
  | some t =>
      have hstep := hf t (hprompt.waits t (List.mem_of_getElem? hi)) h.state.world hprompt.plan
      refine ⟨?_, ?_, ?_⟩
      · show (h.state.place i t (f t h.state.world)).world.plan.IsPrompt
        rw [plan_place]
        exact hstep.standing.plan
      · intro t' ht'
        have htasks : t' ∈ (h.state.place i t (f t h.state.world)).tasks := ht'
        rw [tasks_place] at htasks
        rcases List.mem_or_eq_of_mem_set htasks with hold | rfl
        · exact hprompt.waits t' hold
        · rw [placed_wait]
          exact hstep.standing.wait
      · show Unbroken ((_ ++ _) ++ h.log)
        rw [List.append_assoc]
        exact (hprompt.unbroken.entriesOf _ i hstep.first).append fun e => task_of_mem_leaveEntries

/-- It stays prompt when a call proceeds by itself. -/
theorem prompt_deliver (hprompt : Prompt h) (j : Nat) :
    Prompt ⟨h.state.deliver j, h.state.deliverEntries j ++ h.log⟩ := by
  unfold State.deliver State.deliverEntries
  cases h.state.detached[j]? with
  | none => exact hprompt
  | some flight =>
      refine ⟨?_, hprompt.waits, hprompt.unbroken.append fun e he => (mem_entriesOf he).1⟩
      show (h.state.world.proceed flight).2.plan.IsPrompt
      rw [plan_proceed]
      exact hprompt.plan

end

/-- Every chronicle under a prompt plan is prompt. -/
theorem chronicle_prompt {s : State α} (hplan : s.world.plan.IsPrompt)
    (hwaits : ∀ t ∈ s.tasks, ¬ t.wait.AwaitsAnswer) (happenings : List Happening) :
    Prompt (Chronicle.of s happenings) := by
  have hempty : Unbroken [] := by
    intro e past k htold
    exact absurd (List.suffix_nil.1 htold) (List.cons_ne_nil _ _)
  refine chronicle_induction s ⟨hplan, hwaits, hempty⟩ ?_
  intro h e _ hprompt
  cases e with
  | move m =>
      cases m with
      | resume i => exact prompt_step hprompt fun t ht w hw => resume_prompt ht hw
      | expire i => exact prompt_step hprompt fun t ht w hw => expire_prompt ht hw
      | cancel i => exact prompt_step hprompt fun t ht w hw => cancel_prompt ht hw
      | deliver j => exact prompt_deliver hprompt j
  | _ => exact ⟨hprompt.plan, hprompt.waits, hprompt.unbroken⟩

/-! ## Stretches -/

/-- Whatever another noted before a stretch of notes ended, it noted before that
stretch began. -/
theorem Unbroken.behind {log : Log} (h : Unbroken log) {t k : Nat} {m n : Note}
    {newer older : List Note} {past : Log} (htold : Tells log ⟨t, some k, m⟩ past)
    (hm : ¬ m.EndsWait) (hown : own k past = newer ++ n :: older)
    (hnewer : ∀ n ∈ newer, ¬ n.EndsWait) :
    ∃ behind, Tells past ⟨t, some k, n⟩ behind ∧ own k behind = older ∧
      ∀ e start, Tells past e start → e.task ≠ some k → Tells behind e start := by
  induction newer generalizing m past with
  | nil =>
      rcases h _ past k htold rfl hm with ⟨n', behind, rfl⟩
      rw [own_cons_self, List.nil_append, List.cons.injEq] at hown
      rcases hown with ⟨rfl, hown⟩
      refine ⟨behind, Tells.last _ _, hown, ?_⟩
      intro e start he hother
      rcases List.suffix_cons_iff.1 he with heq | he
      · rw [List.cons.injEq] at heq
        rw [heq.1] at hother
        exact absurd rfl hother
      · exact he
  | cons n₁ newer ih =>
      rcases h _ past k htold rfl hm with ⟨n', rest, rfl⟩
      rw [own_cons_self, List.cons_append, List.cons.injEq] at hown
      rcases hown with ⟨rfl, hown⟩
      rcases ih (htold.trans (Tells.last _ _)) (hnewer _ List.mem_cons_self) hown
        (fun n hn => hnewer n (List.mem_cons_of_mem _ hn)) with ⟨behind, hn, hbehind, hothers⟩
      refine ⟨behind, hn.of_suffix (List.suffix_cons _ _), hbehind, ?_⟩
      intro e start he hother
      rcases List.suffix_cons_iff.1 he with heq | he
      · rw [List.cons.injEq] at heq
        rw [heq.1] at hother
        exact absurd rfl hother
      · exact hothers e start he hother

end Turnstile.Run

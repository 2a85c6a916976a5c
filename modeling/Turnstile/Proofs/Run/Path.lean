import Turnstile.Proofs.Run.Chronicle

/-!
# Paths of programs

A program is a tree, and what its task notes says which way it went.  A stage
is a place in the tree together with what is owed there, and every note leads
from one stage to the next.  A path is a list of notes that leads from a stage
to another, the last note first.

The stages of a task and the notes of its own log fit each other in every run:
whatever the schedule does, the task stands where its notes lead.  What is
proved of all paths of a program thus holds of all its runs.

Main results:

- Theorem `settle_path`: a program that is run until it has to wait goes where
  its notes lead.
- Theorem `chronicle_path`: in every chronicle each task stands where its own
  log leads.
- Theorem `owedBy_eq_owed`: what a task owes can be told from its notes.
- Theorem `Follows.goes_on`: a task does not stop where its program can go on.
-/

namespace Turnstile.Run

open Store (Answer Call)

variable {α β : Type}

/-! ## Stages -/

/-- A place in the tree of a program. -/
inductive Point (α : Type) where
  /-- Before the program is gone on with, at its start or in a pause. -/
  | resting (program : Program α)
  /-- Before the first node of the program. -/
  | going (program : Program α)
  /-- In a call that was not carried out yet. -/
  | calling (call : Call) (next : Except Store.Error Answer → Program α)
  /-- In a call that was carried out, or that will not be. -/
  | called (call : Call) (answer : Option Answer)
      (next : Except Store.Error Answer → Program α)
  /-- In a run of the handler. -/
  | serving (next : Http.Response → Program α)
  /-- After a run of the handler that broke off. -/
  | stopped
  /-- After the end, with the result. -/
  | ended (result : α)
  /-- After the task broke off or was cancelled. -/
  | over

/-- A place in the tree of a program with what is owed there. -/
structure Stage (α : Type) where
  point : Point α
  owed : Option Call

/-- Whether a task may be told the result of a call: an answer only if the call
was carried out and was answered so. -/
def Reports (answer : Option Answer) : Except Store.Error Answer → Prop
  | .ok a => answer = some a
  | .error _ => True

/-- Whether a run of the handler can end so. -/
def Handler.Gives (handler : Handler) (response : Option Http.Response) : Prop :=
  ∃ n request, handler.answer n request = response

/-- The stage to which a note leads from another. -/
inductive Stage.Step (handler : Handler) : Stage α → Note → Stage α → Prop where
  | resumed {p : Program α} {o} : Step handler ⟨.resting p, o⟩ .resumed ⟨.going p, o⟩
  | ended {a : α} {o} : Step handler ⟨.going (.done a), o⟩ .ended ⟨.ended a, none⟩
  | crashed {o} : Step handler ⟨.going (.crash : Program α), o⟩ (.quit o) ⟨.over, none⟩
  | sent {c d} {next : _ → Program α} {o} :
      Step handler ⟨.going (.call c d next), o⟩ (.sent c) ⟨.calling c next, o⟩
  | done {c a} {next : _ → Program α} {o} :
      Step handler ⟨.calling c next, o⟩ (.done c a) ⟨.called c (some a) next, o⟩
  | lost {c} {next : _ → Program α} {o} :
      Step handler ⟨.calling c next, o⟩ (.lost c) ⟨.called c none next, o⟩
  | told {c answer result} {next : _ → Program α} {o} (h : Reports answer result) :
      Step handler ⟨.called c answer next, o⟩ (.told c result) ⟨.going (next result), o⟩
  | calledOff {c answer} {next : _ → Program α} {o} :
      Step handler ⟨.called c answer next, o⟩ (.quit o) ⟨.over, none⟩
  | paused {span} {next : Program α} {o} :
      Step handler ⟨.going (.sleep span next), o⟩ (.paused span) ⟨.resting next, o⟩
  | restOff {next : Program α} {o} :
      Step handler ⟨.resting next, o⟩ (.quit o) ⟨.over, none⟩
  | read {t} {next : _ → Program α} {o} :
      Step handler ⟨.going (.now next), o⟩ (.read t) ⟨.going (next t), o⟩
  | emitted {e} {next : Program α} {o} :
      Step handler ⟨.going (.emit e next), o⟩ (.emitted e) ⟨.going next, o⟩
  | drew {n} {next : _ → Program α} {o} :
      Step handler ⟨.going (.fresh next), o⟩ (.drew n) ⟨.going (next n), o⟩
  | began {request} {next : _ → Program α} {o} :
      Step handler ⟨.going (.serve request next), o⟩ (.began request) ⟨.serving next, o⟩
  | finished {response} {next : _ → Program α} {o} (h : handler.Gives (some response)) :
      Step handler ⟨.serving next, o⟩ (.finished (some response)) ⟨.going (next response), o⟩
  | dropped {next : _ → Program α} {o} :
      Step handler ⟨.serving next, o⟩ (.finished none) ⟨.stopped, o⟩
  | stopped {o} : Step handler ⟨(.stopped : Point α), o⟩ (.quit o) ⟨.over, none⟩
  | held {c o} {next : Program α} :
      Step handler ⟨.going (.hold c next), o⟩ (.held c) ⟨.going next, some c⟩
  | unheld {o} {next : Program α} :
      Step handler ⟨.going (.unhold next), o⟩ .unheld ⟨.going next, none⟩

/-- A note leads from a stage to one other. -/
theorem Stage.Step.unique {handler : Handler} {s s' s'' : Stage α} {n : Note}
    (h : s.Step handler n s') (h' : s.Step handler n s'') : s' = s'' := by
  cases h <;> cases h' <;> rfl

/-- The notes lead from one stage to the other. -/
inductive Path (handler : Handler) : Stage α → List Note → Stage α → Prop where
  | refl (s : Stage α) : Path handler s [] s
  | step {s s' s'' : Stage α} {notes n} (h : Path handler s notes s')
      (hn : s'.Step handler n s'') : Path handler s (n :: notes) s''

namespace Path

variable {handler : Handler} {s s' s'' : Stage α} {notes notes' : List Note}

/-- One note is a path. -/
theorem single {n : Note} (h : s.Step handler n s') : Path handler s [n] s' :=
  (refl s).step h

/-- Paths are joined end to end. -/
theorem append (h : Path handler s notes s') (h' : Path handler s' notes' s'') :
    Path handler s (notes' ++ notes) s'' := by
  induction h' with
  | refl => exact h
  | step _ hn ih => exact ih.step hn

/-- Notes lead from a stage to one other. -/
theorem unique (h : Path handler s notes s') (h' : Path handler s notes s'') : s' = s'' := by
  induction h generalizing s'' with
  | refl =>
      cases h'
      rfl
  | step _ hn ih =>
      cases h' with
      | step h₀ hn' =>
          rw [ih h₀] at hn
          exact hn.unique hn'

/-- A path leads through a stage wherever it is parted. -/
theorem split {newer older : List Note} (h : Path handler s (newer ++ older) s'') :
    ∃ s', Path handler s older s' ∧ Path handler s' newer s'' := by
  induction newer generalizing s'' with
  | nil => exact ⟨s'', h, refl s''⟩
  | cons n newer ih =>
      cases h with
      | step h₀ hn =>
          rcases ih h₀ with ⟨s', holder, hnewer⟩
          exact ⟨s', holder, hnewer.step hn⟩

/-- A path leads nowhere or begins with a step. -/
theorem uncons (h : Path handler s notes s') :
    (notes = [] ∧ s' = s) ∨ ∃ newer n s'', notes = newer ++ [n] ∧ s.Step handler n s'' ∧
      Path handler s'' newer s' := by
  rcases List.eq_nil_or_concat notes with rfl | ⟨newer, n, hnotes⟩
  · cases h
    exact .inl ⟨rfl, rfl⟩
  · rw [List.concat_eq_append] at hnotes
    subst hnotes
    rcases h.split with ⟨s'', hfirst, hnewer⟩
    cases hfirst with
    | step h₀ hn =>
        cases h₀
        exact .inr ⟨newer, n, s'', rfl, hn, hnewer⟩

/-- A path that leads on begins with a step. -/
theorem first (h : Path handler s notes s') (hne : s ≠ s') :
    ∃ newer n s'', notes = newer ++ [n] ∧ s.Step handler n s'' := by
  rcases h.uncons with ⟨_, heq⟩ | ⟨newer, n, s'', hnotes, hn, _⟩
  · exact absurd heq.symm hne
  · exact ⟨newer, n, s'', hnotes, hn⟩

end Path

/-- What a task owes can be told from its notes. -/
theorem owedBy_eq_owed {handler : Handler} {p : Program α} {notes : List Note} {s : Stage α}
    (h : Path handler ⟨.resting p, none⟩ notes s) : owedBy notes = s.owed := by
  induction h with
  | refl => rfl
  | step _ hn ih =>
      cases hn with
      | held => rfl
      | unheld => rfl
      | _ => first | rfl | exact ih

/-! ## Paths of sequences -/

/-- The place in a sequence that a place in its first part is. -/
def Point.bind (f : α → Program β) : Point α → Point β
  | .resting p => .resting (p.bind f)
  | .going p => .going (p.bind f)
  | .calling call next => .calling call fun result => (next result).bind f
  | .called call answer next => .called call answer fun result => (next result).bind f
  | .serving next => .serving fun response => (next response).bind f
  | .stopped => .stopped
  | .ended a => .going (f a)
  | .over => .over

/-- The stage of a sequence that a stage of its first part is. -/
def Stage.bind (f : α → Program β) (s : Stage α) : Stage β :=
  ⟨s.point.bind f, s.owed⟩

/-- A step of the first part of a sequence is one of the sequence, unless that part
ends. -/
theorem Stage.Step.bind {handler : Handler} {s s' : Stage α} {n : Note}
    (h : s.Step handler n s') (hn : n ≠ .ended) (f : α → Program β) :
    (s.bind f).Step handler n (s'.bind f) := by
  cases h with
  | ended => exact absurd rfl hn
  | resumed => exact .resumed
  | crashed => exact .crashed
  | sent => exact .sent
  | done => exact .done
  | lost => exact .lost
  | told hreports => exact .told hreports
  | calledOff => exact .calledOff
  | paused => exact .paused
  | restOff => exact .restOff
  | read => exact .read
  | emitted => exact .emitted
  | drew => exact .drew
  | began => exact .began
  | finished hgives => exact .finished hgives
  | dropped => exact .dropped
  | stopped => exact .stopped
  | held => exact .held
  | unheld => exact .unheld

/-- A path of the first part of a sequence is one of the sequence, unless that part
ends. -/
theorem Path.bind {handler : Handler} {s s' : Stage α} {notes : List Note}
    (h : Path handler s notes s') (hn : .ended ∉ notes) (f : α → Program β) :
    Path handler (s.bind f) notes (s'.bind f) := by
  induction h with
  | refl => exact .refl _
  | step _ hstep ih =>
      rw [List.mem_cons, not_or] at hn
      exact (ih hn.2).step (hstep.bind (Ne.symm hn.1) f)

/-! ## Where a standing is -/

/-- The stage of a task that waits and owes. -/
def Wait.stage (owed : Option Call) : Wait α → Stage α
  | .time _ program => ⟨.resting program, owed⟩
  | .answer ⟨.outbound _ _, _⟩ _ _ call next => ⟨.calling call next, owed⟩
  | .answer ⟨.inbound a, _⟩ _ _ call next => ⟨.called call (some a) next, owed⟩
  | .response _ _ next => ⟨.serving next, owed⟩
  | .nothing (.result a) _ => ⟨.ended a, none⟩
  | .nothing .crashed _ => ⟨.over, none⟩
  | .nothing .cancelled _ => ⟨.over, none⟩

/-- Nobody waits where a program can go on. -/
theorem stage_ne_going (wait : Wait α) (owed owed' : Option Call) (program : Program α) :
    wait.stage owed ≠ ⟨.going program, owed'⟩ := by
  cases wait with
  | answer flight expires deadline call next =>
      rcases flight with ⟨phase, due⟩
      cases phase <;> simp [Wait.stage]
  | nothing ending time => cases ending <;> simp [Wait.stage]
  | _ => simp [Wait.stage]

/-- Nobody waits where a run of the handler broke off. -/
theorem stage_ne_stopped (wait : Wait α) (owed : Option Call) :
    (wait.stage owed).point ≠ .stopped := by
  cases wait with
  | answer flight expires deadline call next =>
      rcases flight with ⟨phase, due⟩
      cases phase <;> exact nofun
  | nothing ending time => cases ending <;> exact nofun
  | _ => exact nofun

/-- Whoever has nothing left to do ends at once, when it stands where a task may wait. -/
theorem Path.of_done {handler : Handler} {a : α} {owed : Option Call} {notes : List Note}
    {s : Stage α} (h : Path handler ⟨.going (.done a), owed⟩ notes s)
    (hgoing : ∀ program owed', s ≠ ⟨.going program, owed'⟩) :
    notes = [.ended] ∧ s = ⟨.ended a, none⟩ := by
  rcases h.uncons with ⟨_, heq⟩ | ⟨newer, n, s', rfl, hended, h⟩
  · exact absurd heq (hgoing _ _)
  cases hended
  rcases h.uncons with ⟨rfl, heq⟩ | ⟨_, _, _, _, hmore, _⟩
  · exact ⟨rfl, heq⟩
  · cases hmore

/-- The stage of a standing. -/
def Standing.stage (st : Standing α) : Stage α :=
  st.wait.stage st.owed

/-- The stage of a task. -/
def Task.stage (t : Task α) : Stage α :=
  t.wait.stage t.owed

/-- A task that has ended with a result owes nothing. -/
theorem Task.stage_of_result {t : Task α} {a : α} {time : Nat}
    (h : t.wait = .nothing (.result a) time) : t.stage = ⟨.ended a, none⟩ := by
  unfold Task.stage
  rw [h]
  rfl

/-- A task waits for the call that is in flight for it, and for a response of
its handler. -/
def Wait.Fits (handler : Handler) : Wait α → Prop
  | .answer ⟨.outbound c _, _⟩ _ _ call _ => c = call
  | .response _ given _ => handler.Gives given
  | _ => True

/-- The wait of a task fits, and a task that has ended owes nothing. -/
structure Task.Fits (t : Task α) : Prop where
  wait : t.wait.Fits t.handler
  owed : t.hasEnded = true → t.owed = none

/-! ## Calls -/

/-- A call that is not answered at once is in flight as itself. -/
theorem send_outbound {w : World} {call c : Call} {treatment : Treatment} {due : Nat}
    (h : (w.send call).1 = .waiting ⟨.outbound c treatment, due⟩) : c = call := by
  unfold World.send at h
  dsimp only at h
  split at h
  · simp only [Progress.waiting.injEq, Flight.mk.injEq, Phase.outbound.injEq] at h
    exact h.1.1.symm
  · unfold World.carryOut at h
    split at h
    · simp at h
    · split at h
      · simp at h
      · split at h <;> simp at h

/-- A call that was carried out or given up is not in flight any more to be
carried out. -/
theorem proceed_ne_outbound {w : World} {flight : Flight} {c : Call} {treatment : Treatment}
    {due : Nat} : (w.proceed flight).1 ≠ .waiting ⟨.outbound c treatment, due⟩ := by
  unfold World.proceed
  split
  · unfold World.carryOut
    split
    · simp
    · split
      · simp
      · split <;> simp
  · simp

section

variable (handler : Handler) (call : Call) (next : Except Store.Error Answer → Program α)
  (owed : Option Call)

/-- A call that was answered leads on with the answer. -/
theorem answered_path (result : Except Store.Error Answer) :
    Path handler ⟨.calling call next, owed⟩
      (.told call result :: (Progress.answered result).notes call)
      ⟨.going (next result), owed⟩ := by
  cases result with
  | ok answer => exact (Path.single .done).step (.told rfl)
  | error error => exact (Path.single .lost).step (.told trivial)

/-- A call that waits stays where it is or was carried out. -/
theorem waiting_path (flight : Flight) (expires : Nat) (deadline : Span) :
    Path handler ⟨.calling call next, owed⟩ ((Progress.waiting flight).notes call)
      ((Wait.answer flight expires deadline call next).stage owed) := by
  rcases flight with ⟨phase, due⟩
  cases phase with
  | outbound c treatment => exact Path.refl _
  | inbound answer => exact Path.single .done

/-- A call that cannot be carried out breaks its program off. -/
theorem overflow_path :
    Path handler ⟨.calling call next, owed⟩ (.quit owed :: Progress.overflow.notes call)
      ⟨.over, none⟩ :=
  (Path.single .lost).step .calledOff

/-- A call that is given up in flight leads to its being told so. -/
theorem drop_path {flight : Flight} {expires : Nat} {deadline : Span}
    (hfits : (Wait.answer flight expires deadline call next).Fits handler) :
    ∃ answer, Path handler ((Wait.answer flight expires deadline call next).stage owed)
      flight.dropNotes ⟨.called call answer next, owed⟩ := by
  rcases flight with ⟨phase, due⟩
  cases phase with
  | outbound c treatment =>
      have hc : c = call := hfits
      subst hc
      exact ⟨none, Path.single .lost⟩
  | inbound answer => exact ⟨some answer, Path.refl _⟩

end

/-! ## Programs -/

/-- A program that is run until it has to wait goes where its notes lead. -/
theorem settle_path (handler : Handler) (p : Program α) (w : World) (owed : Option Call) :
    Path handler ⟨.going p, owed⟩ (settleNotes handler w owed p)
      (settle handler w owed p).stage := by
  induction p generalizing w owed with
  | done result => exact Path.single .ended
  | crash => exact Path.single .crashed
  | call call deadline next ih =>
      have hsent : Path handler ⟨.going (.call call deadline next), owed⟩ [.sent call]
          ⟨.calling call next, owed⟩ := Path.single .sent
      unfold settle settleNotes World.sendNotes
      rcases w.send call with ⟨progress, w'⟩
      cases progress with
      | answered result =>
          have hanswered := hsent.append (answered_path handler call next owed result)
          exact hanswered.append (ih result w' owed)
      | waiting flight => exact hsent.append (waiting_path handler call next owed flight _ deadline)
      | overflow => exact hsent.append (overflow_path handler call next owed)
  | sleep span next ih =>
      have hpaused : Path handler ⟨.going (.sleep span next), owed⟩ [.paused span]
          ⟨.resting next, owed⟩ := Path.single .paused
      by_cases hzero : span.timerNanos = 0
      · rw [settle, settleNotes, if_pos hzero, if_pos hzero]
        exact (hpaused.step .resumed).append (ih w owed)
      · rw [settle, settleNotes, if_neg hzero, if_neg hzero]
        exact hpaused
  | now next ih => exact (Path.single .read).append (ih _ w owed)
  | emit event next ih => exact (Path.single .emitted).append (ih _ owed)
  | serve request next ih =>
      have hbegan : Path handler ⟨.going (.serve request next), owed⟩ [.began request]
          ⟨.serving next, owed⟩ := Path.single .began
      unfold settle settleNotes
      dsimp only
      generalize hgiven : handler.answer (w.served + 1) request = response
      have hgives : handler.Gives response := ⟨_, _, hgiven⟩
      cases hdelay : handler.delay with
      | some delay => exact hbegan
      | none =>
          cases response with
          | some response => exact (hbegan.step (.finished hgives)).append (ih response _ owed)
          | none => exact (hbegan.step .dropped).step .stopped
  | fresh next ih => exact (Path.single .drew).append (ih _ _ owed)
  | hold call next ih => exact (Path.single .held).append (ih w (some call))
  | unhold next ih => exact (Path.single .unheld).append (ih w none)

/-- A program that is run until it has to wait waits for its own. -/
theorem settle_fits (handler : Handler) (p : Program α) (w : World) (owed : Option Call) :
    (settle handler w owed p).wait.Fits handler := by
  induction p generalizing w owed with
  | done result => trivial
  | crash => trivial
  | call call deadline next ih =>
      unfold settle
      cases hsend : w.send call with
      | mk progress w' =>
          cases progress with
          | answered result => exact ih result w' owed
          | waiting flight =>
              rcases flight with ⟨phase, due⟩
              cases phase with
              | outbound c treatment =>
                  have hfst : (w.send call).1 = .waiting ⟨.outbound c treatment, due⟩ := by
                    rw [hsend]
                  exact send_outbound hfst
              | inbound answer => trivial
          | overflow => trivial
  | sleep span next ih =>
      by_cases hzero : span.timerNanos = 0
      · rw [settle, if_pos hzero]
        exact ih w owed
      · rw [settle, if_neg hzero]
        trivial
  | now next ih => exact ih _ w owed
  | emit event next ih => exact ih _ owed
  | serve request next ih =>
      unfold settle
      dsimp only
      generalize hgiven : handler.answer (w.served + 1) request = response
      have hgives : handler.Gives response := ⟨_, _, hgiven⟩
      cases hdelay : handler.delay with
      | some delay => exact hgives
      | none =>
          cases response with
          | some response => exact ih response _ owed
          | none => trivial
  | fresh next ih => exact ih _ _ owed
  | hold call next ih => exact ih w (some call)
  | unhold next ih => exact ih w none

/-- A task goes on after a call as its notes say. -/
theorem afterProgress_path (handler : Handler) (owed : Option Call) (expires : Nat)
    (deadline : Span) (call : Call) (next : Except Store.Error Answer → Program α)
    (r : Progress × World) :
    Path handler ⟨.calling call next, owed⟩
      (afterProgressNotes handler owed call next r ++ r.1.notes call)
      (afterProgress handler owed expires deadline call next r).stage := by
  rcases r with ⟨progress, w⟩
  cases progress with
  | answered result =>
      have hsettled := (answered_path handler call next owed result).append
        (settle_path handler (next result) w owed)
      simpa [afterProgressNotes, afterProgress] using hsettled
  | waiting flight => exact waiting_path handler call next owed flight expires deadline
  | overflow => exact overflow_path handler call next owed

/-- A task that waits on after a call waits for its own. -/
theorem afterProgress_fits (handler : Handler) (owed : Option Call) (expires : Nat)
    (deadline : Span) (call : Call) (next : Except Store.Error Answer → Program α)
    {r : Progress × World}
    (h : ∀ c treatment due, r.1 = .waiting ⟨.outbound c treatment, due⟩ → c = call) :
    (afterProgress handler owed expires deadline call next r).wait.Fits handler := by
  rcases r with ⟨progress, w⟩
  cases progress with
  | answered result => exact settle_fits handler (next result) w owed
  | waiting flight =>
      rcases flight with ⟨phase, due⟩
      cases phase with
      | outbound c treatment => exact h c treatment due rfl
      | inbound answer => trivial
  | overflow => trivial

/-! ## Tasks -/

/-- What a task is after it came to a new standing: one that has ended has left
behind what it owed. -/
def Task.placed (t : Task α) (st : Standing α) : Task α :=
  match (t.standing st).hasEnded with
  | true => { t.standing st with owed := none }
  | false => t.standing st

/-- A task waits as its standing says. -/
theorem placed_wait (t : Task α) (st : Standing α) : (t.placed st).wait = st.wait := by
  unfold Task.placed
  split <;> rfl

section

variable {t : Task α}

/-- It keeps its handler. -/
@[simp]
theorem placed_handler (t : Task α) (st : Standing α) : (t.placed st).handler = t.handler := by
  unfold Task.placed
  split <;> rfl

/-- It is at the stage of its standing. -/
@[simp]
theorem placed_stage (t : Task α) (st : Standing α) : (t.placed st).stage = st.stage := by
  rcases st with ⟨wait, owed, w⟩
  cases wait with
  | nothing ending time => cases ending <;> rfl
  | _ => rfl

/-- It fits what it waits for, if its standing does. -/
theorem placed_fits {st : Standing α} (h : st.wait.Fits t.handler) : (t.placed st).Fits := by
  rcases st with ⟨wait, owed, w⟩
  cases wait with
  | nothing ending time => exact ⟨trivial, fun _ => rfl⟩
  | _ => exact ⟨h, fun hended => nomatch hended⟩

/-- A task whose wait is over goes where its notes lead. -/
theorem resume_path (ht : t.Fits) (w : World) :
    Path t.handler t.stage (t.resumeNotes w) (t.resume w).stage ∧
      (t.resume w).wait.Fits t.handler := by
  have hfits := ht.wait
  rcases t with ⟨wait, owed, handler, cancelAt⟩
  cases wait with
  | time due program =>
      have hresumed : Path handler ⟨.resting program, owed⟩ [.resumed] ⟨.going program, owed⟩ :=
        Path.single .resumed
      exact ⟨hresumed.append (settle_path handler program w owed), settle_fits handler program w owed⟩
  | answer flight expires deadline call next =>
      rcases flight with ⟨phase, due⟩
      cases phase with
      | outbound c treatment =>
          have hc : c = call := hfits
          subst hc
          refine ⟨afterProgress_path handler owed expires deadline c next _, ?_⟩
          apply afterProgress_fits
          intro c' treatment' due' hwaiting
          exact absurd hwaiting proceed_ne_outbound
      | inbound answer =>
          have htold : Path handler ⟨.called call (some answer) next, owed⟩
              [.told call (.ok answer)] ⟨.going (next (.ok answer)), owed⟩ :=
            Path.single (.told rfl)
          have hsettled := htold.append (settle_path handler (next (.ok answer)) w owed)
          refine ⟨?_, settle_fits handler (next (.ok answer)) w owed⟩
          simpa [Task.resumeNotes, Task.resume, World.proceed, World.proceedNotes,
            afterProgressNotes, afterProgress, Task.stage, Wait.stage] using hsettled
  | response due given next =>
      cases given with
      | some response =>
          have hfinished : Path handler ⟨.serving next, owed⟩ [.finished (some response)]
              ⟨.going (next response), owed⟩ := Path.single (.finished hfits)
          exact ⟨hfinished.append (settle_path handler (next response) w owed),
            settle_fits handler (next response) w owed⟩
      | none => exact ⟨(Path.single .dropped).step .stopped, trivial⟩
  | nothing ending time => exact ⟨Path.refl _, trivial⟩

/-- A task that gives up its call goes where its notes lead. -/
theorem expire_path (ht : t.Fits) (w : World) :
    Path t.handler t.stage (t.expireNotes w) (t.expire w).stage ∧
      (t.expire w).wait.Fits t.handler := by
  have hfits := ht.wait
  rcases t with ⟨wait, owed, handler, cancelAt⟩
  cases wait with
  | answer flight expires deadline call next =>
      rcases drop_path handler call next owed hfits with ⟨answer, hdropped⟩
      have htold := hdropped.step (.told (show Reports answer
        (.error (.timeout call.operation deadline)) from trivial))
      have hsettled := htold.append (settle_path handler _ w owed)
      exact ⟨hsettled, settle_fits handler _ w owed⟩
  | _ => exact ⟨Path.refl _, hfits⟩

/-- A task that is cancelled goes where its notes lead. -/
theorem cancel_path (ht : t.Fits) (w : World) :
    Path t.handler t.stage (t.cancelNotes w) (t.cancel w).stage ∧
      (t.cancel w).wait.Fits t.handler := by
  have hfits := ht.wait
  rcases t with ⟨wait, owed, handler, cancelAt⟩
  cases wait with
  | time due program => exact ⟨Path.single .restOff, trivial⟩
  | answer flight expires deadline call next =>
      rcases drop_path handler call next owed hfits with ⟨answer, hdropped⟩
      exact ⟨hdropped.step .calledOff, trivial⟩
  | response due given next => exact ⟨(Path.single .dropped).step .stopped, trivial⟩
  | nothing ending time => exact ⟨Path.refl _, trivial⟩

end

/-! ## Runs -/

/-- In the chronicle every task stands where its own log leads from where it
stood at the start. -/
structure Follows (s : State α) (h : Chronicle α) : Prop where
  length : h.state.tasks.length = s.tasks.length
  path : ∀ i t₀ t, s.tasks[i]? = some t₀ → h.state.tasks[i]? = some t →
    t.handler = t₀.handler ∧ t.Fits ∧ Path t₀.handler t₀.stage (own i h.log) t.stage
  outside : ∀ i, s.tasks[i]? = none → own i h.log = []

/-- What is left behind changes no task. -/
@[simp]
theorem tasks_leave (s : State α) (owed : Call) : (s.leave owed).tasks = s.tasks := rfl

/-- A task that comes to a new standing is placed, and no other task moves. -/
theorem tasks_place (s : State α) (i : Nat) (t : Task α) (st : Standing α) :
    (s.place i t st).tasks = s.tasks.set i (t.placed st) := by
  unfold State.place Task.placed
  dsimp only
  rcases t.standing st with ⟨wait, owed, handler, cancelAt⟩
  cases wait <;> cases owed <;> simp [Task.hasEnded]

/-- What is left behind is noted for nobody. -/
theorem own_leaveEntries (i : Nat) (t : Task α) (st : Standing α) :
    own i (State.leaveEntries t st) = [] := by
  unfold State.leaveEntries
  split
  · exact own_entriesOf_of_ne (by simp) _
  · rfl

section

variable {s : State α} {h : Chronicle α} {i : Nat} {f : Task α → World → Standing α}
  {notes : Task α → World → List Note}

/-- A step of a task puts its notes into its own log. -/
theorem own_stepEntries_self {st : State α} {t : Task α} (hi : st.tasks[i]? = some t) :
    own i (st.stepEntries i f notes) = notes t st.world := by
  unfold State.stepEntries
  rw [hi]
  simp only [own_append, own_leaveEntries, List.nil_append, own_entriesOf_self]

/-- A step of a task puts nothing into the logs of others. -/
theorem own_stepEntries_of_ne {st : State α} {j : Nat} (hj : j ≠ i) :
    own j (st.stepEntries i f notes) = [] := by
  unfold State.stepEntries
  cases st.tasks[i]? with
  | none => rfl
  | some t =>
      simp only [own_append, own_leaveEntries, List.nil_append]
      exact own_entriesOf_of_ne (by simp [Ne.symm hj]) _

/-- A step of a task keeps every task where its own log leads. -/
theorem follows_step (hs : Follows s h)
    (hf : ∀ t : Task α, t.Fits → ∀ w, Path t.handler t.stage (notes t w) (f t w).stage ∧
      (f t w).wait.Fits t.handler) :
    Follows s ⟨h.state.step i f, h.state.stepEntries i f notes ++ h.log⟩ := by
  cases hi : h.state.tasks[i]? with
  | none =>
      unfold State.step State.stepEntries
      rw [hi]
      exact hs
  | some t =>
      have hlt : i < h.state.tasks.length := (List.getElem?_eq_some_iff.1 hi).1
      have htasks : (h.state.step i f).tasks =
          h.state.tasks.set i (t.placed (f t h.state.world)) := by
        unfold State.step
        rw [hi]
        exact tasks_place _ _ _ _
      refine ⟨?_, ?_, ?_⟩
      · rw [htasks, List.length_set]
        exact hs.length
      · intro j t₀ t' h₀ h'
        rw [htasks] at h'
        by_cases hj : j = i
        · subst hj
          rw [List.getElem?_set_self hlt, Option.some.injEq] at h'
          subst h'
          rcases hs.path j t₀ t h₀ hi with ⟨hhandler, hfits, hpath⟩
          rcases hf t hfits h.state.world with ⟨hstep, hwait⟩
          refine ⟨by rw [placed_handler, hhandler], placed_fits hwait, ?_⟩
          rw [own_append, own_stepEntries_self hi, placed_stage]
          rw [hhandler] at hstep
          exact hpath.append hstep
        · rw [List.getElem?_set_ne (Ne.symm hj)] at h'
          rw [own_append, own_stepEntries_of_ne hj]
          exact hs.path j t₀ t' h₀ h'
      · intro j h₀
        have hj : j ≠ i := by
          rintro rfl
          have hle := List.getElem?_eq_none_iff.1 h₀
          have hlen := hs.length
          omega
        rw [own_append, own_stepEntries_of_ne hj]
        exact hs.outside j h₀

/-- Whatever happens keeps every task where its own log leads. -/
theorem follows_after (hs : Follows s h) (e : Happening) : Follows s (h.after e) := by
  cases e with
  | pass moment => exact ⟨hs.length, hs.path, hs.outside⟩
  | purge => exact ⟨hs.length, hs.path, hs.outside⟩
  | setWall time => exact ⟨hs.length, hs.path, hs.outside⟩
  | setManual time => exact ⟨hs.length, hs.path, hs.outside⟩
  | move m =>
      cases m with
      | resume i => exact follows_step hs fun t ht w => resume_path ht w
      | expire i => exact follows_step hs fun t ht w => expire_path ht w
      | cancel i => exact follows_step hs fun t ht w => cancel_path ht w
      | deliver j =>
          unfold Chronicle.after State.apply State.entries State.deliver State.deliverEntries
          dsimp only
          cases hj : h.state.detached[j]? with
          | none => exact hs
          | some flight =>
              refine ⟨hs.length, ?_, ?_⟩
              · intro i t₀ t h₀ ht
                rw [own_append, own_entriesOf_of_ne (by simp)]
                exact hs.path i t₀ t h₀ ht
              · intro i h₀
                rw [own_append, own_entriesOf_of_ne (by simp)]
                exact hs.outside i h₀

end

/-- In every chronicle each task stands where its own log leads. -/
theorem chronicle_path {s : State α} (hs : ∀ t ∈ s.tasks, t.Fits)
    (happenings : List Happening) : Follows s (Chronicle.of s happenings) := by
  refine chronicle_induction s ?_ fun h e _ hfollows => follows_after hfollows e
  refine ⟨rfl, ?_, fun i _ => rfl⟩
  intro i t₀ t h₀ ht
  have heq : t₀ = t := Option.some.inj (h₀.symm.trans ht)
  subst heq
  exact ⟨rfl, hs t₀ (List.mem_of_getElem? h₀), Path.refl _⟩

/-- What a task noted after it had come to a stage leads on from there. -/
theorem Follows.rest {s : State α} {h : Chronicle α} (hfollows : Follows s h) {i : Nat}
    {t : Task α} (ht : s.tasks[i]? = some t) {newer older : List Note} {stage : Stage α}
    (hown : own i h.log = newer ++ older) (hpath : Path t.handler t.stage older stage) :
    ∃ t', h.state.tasks[i]? = some t' ∧ Path t.handler stage newer t'.stage := by
  have hlt : i < h.state.tasks.length := by
    rw [hfollows.length]
    exact (List.getElem?_eq_some_iff.1 ht).1
  refine ⟨_, List.getElem?_eq_getElem hlt, ?_⟩
  rcases hfollows.path i t _ ht (List.getElem?_eq_getElem hlt) with ⟨_, _, hwhole⟩
  rw [hown] at hwhole
  rcases hwhole.split with ⟨s', holder, hnewer⟩
  rw [holder.unique hpath] at hnewer
  exact hnewer

/-- A task does not stop where its program can go on. -/
theorem Follows.goes_on {s : State α} {h : Chronicle α} (hfollows : Follows s h) {i : Nat}
    {t : Task α} (ht : s.tasks[i]? = some t) {notes : List Note} {program : Program α}
    {owed : Option Call} (hpath : Path t.handler t.stage notes ⟨.going program, owed⟩)
    (hnotes : notes <:+ own i h.log) :
    ∃ n s', Stage.Step t.handler ⟨.going program, owed⟩ n s' ∧ n :: notes <:+ own i h.log := by
  rcases hnotes with ⟨newer, hown⟩
  rcases hfollows.rest ht hown.symm hpath with ⟨t', _, hnewer⟩
  rcases hnewer.first (Ne.symm (stage_ne_going _ _ _ _)) with ⟨later, n, s'', rfl, hn⟩
  refine ⟨n, s'', hn, later, ?_⟩
  rw [← hown, List.append_assoc]
  rfl

/-- A task at its start fits. -/
theorem start_fits (p : Program α) (handler : Handler) (time : Nat) (cancelAt : Option Nat) :
    (Task.start p handler time cancelAt).Fits :=
  ⟨trivial, fun hended => nomatch hended⟩

end Turnstile.Run

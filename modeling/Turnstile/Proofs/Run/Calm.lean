import Turnstile.Proofs.Run.Ledger

/-!
# Runs read off programs

Where every call is answered at once, or fails at once, a program goes on until it
ends, pauses or waits for its handler, and what it notes can be read off its
tree.  Where one call has to wait, this is true until then.

Main results:

- Theorem `send_of_perform`: a call is answered as the store answers it.
- Theorem `Settles.call`: a program goes on with that answer.
- Theorem `Settles.failed_call`: a program goes on with the error of a call that
  fails.
- Theorem `Settles.call_waits`: a program waits for a call that is in flight.
- Theorem `resume_two`: what is noted when two tasks are resumed, and where they
  stand then.
- Theorems `resume_leaves` and `resume_cut`: what is noted when a task breaks off, or
  is cancelled while it waits for a call.
-/

namespace Turnstile.Run

open Store (Answer Call LocalStore Operation)

variable {α : Type}

/-- The world after a call that was carried out at once. -/
def World.afterCall (w : World) (call : Call) (store : LocalStore) : World :=
  { w with
    counts := w.counts.next call.operation
    calls := call :: w.calls
    store := store
    tokens := w.tokens + 1 }

/-- The world after a call that failed at once, or was begun and not carried out. -/
def World.afterFailure (w : World) (call : Call) : World :=
  { w with
    counts := w.counts.next call.operation
    calls := call :: w.calls }

/-- The monotonic clock shows zero at the start. -/
theorem mono_of_start {w : World} {wall : Timestamp} {manual : Option Timestamp}
    (h : w.clocks = .start wall manual) : w.mono = 0 := by
  unfold World.mono
  rw [h]
  rfl

/-- Calls of the kind are carried out and answered at once. -/
def World.Serves (w : World) (operation : Operation) : Prop :=
  ∀ n, w.plan operation n = .plain

/-- Calls of the kind fail at once with the error. -/
def World.Fails (w : World) (operation : Operation) (error : Store.Error) : Prop :=
  ∀ n, w.plan operation n = ⟨none, some error, none⟩

/-- Without faults every call is carried out and answered at once. -/
theorem World.serves_of_faultless {w : World} (h : w.plan = .faultless) (operation : Operation) :
    w.Serves operation := by
  intro n
  rw [h]
  rfl

/-- A call that was begun is carried out as the store does it. -/
theorem perform_of_store {w : World} {call : Call} {answer : Answer} {store : LocalStore}
    (hdone : w.store.perform w.mono (.issued (w.tokens + 1)) call = .ok (answer, store)) :
    World.perform { w with counts := w.counts.next call.operation, calls := call :: w.calls } call =
      .ok (answer, w.afterCall call store) := by
  unfold World.perform
  dsimp only [World.mono] at hdone ⊢
  rw [hdone]
  rfl

/-- A call that is carried out is answered as the store answers it. -/
theorem send_of_perform {w : World} {call : Call} (hserves : w.Serves call.operation)
    {answer : Answer} {store : LocalStore}
    (hdone : w.store.perform w.mono (.issued (w.tokens + 1)) call = .ok (answer, store)) :
    w.send call = (.answered (.ok answer), w.afterCall call store) := by
  unfold World.send
  dsimp only
  rw [hserves]
  unfold World.carryOut Treatment.plain
  dsimp only
  rw [perform_of_store hdone]

/-- A call that fails is not carried out. -/
theorem send_of_failure {w : World} {call : Call} {error : Store.Error}
    (hfails : w.Fails call.operation error) :
    w.send call = (.answered (.error error), w.afterFailure call) := by
  unfold World.send
  dsimp only
  rw [hfails]
  rfl

/-- A call that has to wait is in flight. -/
theorem send_of_delay {w : World} {call : Call} {treatment : Treatment} {wait : Nat}
    (hplan : ∀ n, w.plan call.operation n = treatment) (hwait : treatment.before = some wait) :
    w.send call = (.waiting ⟨.outbound call treatment, w.mono + wait⟩, w.afterFailure call) := by
  unfold World.send
  dsimp only
  rw [hplan, hwait]
  rfl

/-- A call whose answer has to wait is carried out. -/
theorem send_of_late_answer {w : World} {call : Call} {wait : Nat} {answer : Answer}
    {store : LocalStore} (hplan : ∀ n, w.plan call.operation n = ⟨none, none, some wait⟩)
    (hdone : w.store.perform w.mono (.issued (w.tokens + 1)) call = .ok (answer, store)) :
    w.send call = (.waiting ⟨.inbound answer, w.mono + wait⟩, w.afterCall call store) := by
  unfold World.send
  dsimp only
  rw [hplan]
  unfold World.carryOut
  dsimp only
  rw [perform_of_store hdone]
  rfl

/-- A program settles in a standing, and notes as much on the way there. -/
structure Settles (handler : Handler) (w : World) (owed : Option Call) (p : Program α)
    (notes : List Note) (standing : Standing α) : Prop where
  standing : settle handler w owed p = standing
  notes : settleNotes handler w owed p = notes

namespace Settles

variable {handler : Handler} {w : World} {owed : Option Call} {p : Program α}
  {notes : List Note} {standing : Standing α}

/-- What was noted can be told in other words. -/
theorem of_notes_eq {notes' : List Note} (h : Settles handler w owed p notes standing)
    (heq : notes = notes') : Settles handler w owed p notes' standing := by
  rw [← heq]
  exact h

/-- A program that is done has ended. -/
theorem done (handler : Handler) (w : World) (owed : Option Call) (a : α) :
    Settles handler w owed (.done a) [.ended] ⟨.nothing (.result a) w.mono, none, w⟩ :=
  ⟨rfl, rfl⟩

/-- A program goes on with what the clock shows. -/
theorem now {t : Timestamp} (hnow : w.clocks.now = t) {next : Timestamp → Program α}
    (h : Settles handler w owed (next t) notes standing) :
    Settles handler w owed (.now next) (notes ++ [.read t]) standing := by
  subst hnow
  refine ⟨h.standing, ?_⟩
  rw [settleNotes, h.notes]

/-- A program goes on with the answer of the store. -/
theorem call {call : Call} (hserves : w.Serves call.operation) {a : Answer} {store : LocalStore}
    (hdone : w.store.perform w.mono (.issued (w.tokens + 1)) call = .ok (a, store))
    {deadline : Span} {next : Except Store.Error Answer → Program α}
    (h : Settles handler (w.afterCall call store) owed (next (.ok a)) notes standing) :
    Settles handler w owed (.call call deadline next)
      (notes ++ [.told call (.ok a), .done call a, .sent call]) standing := by
  have hsend := send_of_perform hserves hdone
  constructor
  · simp only [settle, hsend, h.standing]
  · simp only [settleNotes, World.sendNotes, hsend, Progress.notes, h.notes,
      List.singleton_append]

/-- A program goes on with the error of a call that fails. -/
theorem failed_call {call : Call} {error : Store.Error} (hfails : w.Fails call.operation error)
    {deadline : Span} {next : Except Store.Error Answer → Program α}
    (h : Settles handler (w.afterFailure call) owed (next (.error error)) notes standing) :
    Settles handler w owed (.call call deadline next)
      (notes ++ [.told call (.error error), .lost call, .sent call]) standing := by
  have hsend := send_of_failure hfails
  constructor
  · simp only [settle, hsend, h.standing]
  · simp only [settleNotes, World.sendNotes, hsend, Progress.notes, h.notes,
      List.singleton_append]

/-- A program waits for a call that is in flight. -/
theorem call_waits {call : Call} {flight : Flight} {w' : World}
    (hsend : w.send call = (.waiting flight, w')) {deadline : Span}
    {next : Except Store.Error Answer → Program α} :
    Settles handler w owed (.call call deadline next)
      ((Progress.waiting flight).notes call ++ [.sent call])
      ⟨.answer flight (Moment.timer w'.mono deadline) deadline call next, owed, w'⟩ := by
  constructor
  · simp only [settle, hsend]
  · simp only [settleNotes, World.sendNotes, hsend]

/-- A program goes on after an event. -/
theorem emit {event : Event} {next : Program α}
    (h : Settles handler { w with events := event :: w.events } owed next notes standing) :
    Settles handler w owed (.emit event next) (notes ++ [.emitted event]) standing := by
  refine ⟨h.standing, ?_⟩
  rw [settleNotes, h.notes]

/-- A program goes on with the response of a handler that answers at once. -/
theorem serve {request : Http.Request} {response : Http.Response}
    {next : Http.Response → Program α} (hdelay : handler.delay = none)
    (hanswer : handler.answer (w.served + 1) request = some response)
    (h : Settles handler { w with served := w.served + 1 } owed (next response) notes standing) :
    Settles handler w owed (.serve request next)
      (notes ++ [.finished (some response), .began request]) standing := by
  constructor
  · simp only [settle, hdelay, hanswer, h.standing]
  · simp only [settleNotes, hdelay, hanswer, h.notes]

/-- A program waits for the response of a handler that takes its time. -/
theorem serve_waits {request : Http.Request} {next : Http.Response → Program α} {delay : Nat}
    (hdelay : handler.delay = some delay) :
    Settles handler w owed (.serve request next) [.began request]
      ⟨.response (w.mono + delay) (handler.answer (w.served + 1) request) next, owed,
        { w with served := w.served + 1 }⟩ := by
  constructor
  · simp only [settle, hdelay]
    rfl
  · simp only [settleNotes, hdelay]

/-- A program breaks off where its handler does. -/
theorem serve_breaks {request : Http.Request} {next : Http.Response → Program α}
    (hdelay : handler.delay = none) (hanswer : handler.answer (w.served + 1) request = none) :
    Settles handler w owed (.serve request next) [.quit owed, .finished none, .began request]
      ⟨.nothing .crashed w.mono, owed, { w with served := w.served + 1 }⟩ := by
  constructor
  · simp only [settle, hdelay, hanswer]
    rfl
  · simp only [settleNotes, hdelay, hanswer]

/-- A program goes on owing a call. -/
theorem hold {call : Call} {next : Program α}
    (h : Settles handler w (some call) next notes standing) :
    Settles handler w owed (.hold call next) (notes ++ [.held call]) standing := by
  refine ⟨h.standing, ?_⟩
  rw [settleNotes, h.notes]

/-- A program goes on owing nothing. -/
theorem unhold {next : Program α} (h : Settles handler w none next notes standing) :
    Settles handler w owed (.unhold next) (notes ++ [.unheld]) standing := by
  refine ⟨h.standing, ?_⟩
  rw [settleNotes, h.notes]

end Settles

/-! ## Moves -/

/-- A task that comes to a new standing, and owes nothing if it has ended, leaves the
world in which it stands. -/
theorem step_stands {s : State α} {i : Nat} {t : Task α} {f : Task α → World → Standing α}
    {notes : Task α → World → List Note} {noted : List Note} {standing : Standing α}
    (htask : s.tasks[i]? = some t) (hstep : f t s.world = standing)
    (hnotes : notes t s.world = noted)
    (howed : (t.standing standing).hasEnded = true → standing.owed = none) :
    s.stepEntries i f notes = entriesOf s.world.mono (some i) noted ∧
      s.step i f = ⟨standing.world, s.tasks.set i (t.standing standing), s.detached⟩ := by
  have hstanding : (t.standing standing).owed = standing.owed := rfl
  simp only [State.stepEntries, State.leaveEntries, State.step, State.place, htask, hstep, hnotes,
    hstanding]
  cases hended : (t.standing standing).hasEnded with
  | false => exact ⟨rfl, rfl⟩
  | true =>
      rw [howed hended]
      exact ⟨rfl, rfl⟩

/-- What a task owes that has ended is carried out at once. -/
theorem step_leaves {s : State α} {i time : Nat} {t : Task α} {f : Task α → World → Standing α}
    {notes : Task α → World → List Note} {noted : List Note} {ending : Ending α} {w : World}
    {call : Call} {answer : Answer} {store : LocalStore} (htask : s.tasks[i]? = some t)
    (hstep : f t s.world = ⟨.nothing ending time, some call, w⟩)
    (hnotes : notes t s.world = noted) (hserves : w.Serves call.operation)
    (hdone : w.store.perform w.mono (.issued (w.tokens + 1)) call = .ok (answer, store)) :
    s.stepEntries i f notes = entriesOf w.mono none [.done call answer, .sent call] ++
        entriesOf s.world.mono (some i) noted ∧
      s.step i f = ⟨w.afterCall call store,
        s.tasks.set i ⟨.nothing ending time, none, t.handler, t.cancelAt⟩, s.detached⟩ := by
  have hsend := send_of_perform hserves hdone
  have hset : (s.tasks.set i (t.standing ⟨.nothing ending time, some call, w⟩)).set i
      ⟨.nothing ending time, none, t.handler, t.cancelAt⟩ =
        s.tasks.set i ⟨.nothing ending time, none, t.handler, t.cancelAt⟩ :=
    List.set_set _
  simp only [State.stepEntries, State.leaveEntries, State.step, State.place, State.leave, htask,
    hstep, hnotes, Task.standing, Task.hasEnded, World.sendNotes, hsend, State.keepFlight]
  exact ⟨rfl, congrArg (fun tasks => (⟨w.afterCall call store, tasks, s.detached⟩ : State α)) hset⟩

/-- A task whose pause is over settles. -/
theorem resume_settled {s : State α} {i due : Nat} {t : Task α} {program : Program α}
    {notes : List Note} {standing : Standing α} (htask : s.tasks[i]? = some t)
    (hwait : t.wait = .time due program)
    (h : Settles t.handler s.world t.owed program notes standing)
    (howed : (t.standing standing).hasEnded = true → standing.owed = none) :
    s.entries (.resume i) = entriesOf s.world.mono (some i) (notes ++ [.resumed]) ∧
      s.apply (.resume i) =
        ⟨standing.world, s.tasks.set i (t.standing standing), s.detached⟩ := by
  refine step_stands htask ?_ ?_ howed
  · unfold Task.resume
    rw [hwait]
    exact h.standing
  · unfold Task.resumeNotes
    rw [hwait]
    dsimp only
    rw [h.notes]

/-- A task whose pause is over settles and ends, and what it owes is carried out. -/
theorem resume_leaves {s : State α} {i due time : Nat} {t : Task α} {program : Program α}
    {notes : List Note} {ending : Ending α} {w : World} {call : Call} {answer : Answer}
    {store : LocalStore} (htask : s.tasks[i]? = some t) (hwait : t.wait = .time due program)
    (h : Settles t.handler s.world t.owed program notes ⟨.nothing ending time, some call, w⟩)
    (hserves : w.Serves call.operation)
    (hdone : w.store.perform w.mono (.issued (w.tokens + 1)) call = .ok (answer, store)) :
    s.entries (.resume i) = entriesOf w.mono none [.done call answer, .sent call] ++
        entriesOf s.world.mono (some i) (notes ++ [.resumed]) ∧
      s.apply (.resume i) = ⟨w.afterCall call store,
        s.tasks.set i ⟨.nothing ending time, none, t.handler, t.cancelAt⟩, s.detached⟩ := by
  refine step_leaves htask ?_ ?_ hserves hdone
  · unfold Task.resume
    rw [hwait]
    exact h.standing
  · unfold Task.resumeNotes
    rw [hwait]
    dsimp only
    rw [h.notes]

/-- A task whose handler has answered settles. -/
theorem resume_responded {s : State α} {i due : Nat} {t : Task α} {response : Http.Response}
    {next : Http.Response → Program α} {notes : List Note} {standing : Standing α}
    (htask : s.tasks[i]? = some t) (hwait : t.wait = .response due (some response) next)
    (h : Settles t.handler s.world t.owed (next response) notes standing)
    (howed : (t.standing standing).hasEnded = true → standing.owed = none) :
    s.entries (.resume i) =
        entriesOf s.world.mono (some i) (notes ++ [.finished (some response)]) ∧
      s.apply (.resume i) =
        ⟨standing.world, s.tasks.set i (t.standing standing), s.detached⟩ := by
  refine step_stands htask ?_ ?_ howed
  · unfold Task.resume
    rw [hwait]
    exact h.standing
  · unfold Task.resumeNotes
    rw [hwait]
    dsimp only
    rw [h.notes]

/-- A chronicle after a move whose entries and outcome are known. -/
theorem after_move {h : Chronicle α} {m : Move} {log : Log} {s : State α}
    (hmove : h.state.entries m = log ∧ h.state.apply m = s) :
    h.after (.move m) = ⟨s, log ++ h.log⟩ := by
  show (⟨h.state.apply m, h.state.entries m ++ h.log⟩ : Chronicle α) = _
  rw [hmove.1, hmove.2]

/-- A task that waits for a call and owes nothing is cancelled later. -/
theorem resume_cut {s : State α} {i due m expires : Nat} {t : Task α} {program : Program α}
    {notes : List Note} {flight : Flight} {deadline : Span} {call : Call}
    {next : Except Store.Error Answer → Program α} {w : World} (htask : s.tasks[i]? = some t)
    (hwait : t.wait = .time due program)
    (h : Settles t.handler s.world t.owed program notes
      ⟨.answer flight expires deadline call next, none, w⟩) :
    (Chronicle.of s [.move (.resume i), .pass m, .move (.cancel i)]).log =
        entriesOf (max w.mono m) (some i) (.quit none :: flight.dropNotes) ++
          (entriesOf s.world.mono (some i) (notes ++ [.resumed]) ++ []) ∧
      (Chronicle.of s [.move (.resume i), .pass m, .move (.cancel i)]).state =
        ⟨w.elapseTo m, s.tasks.set i
          ⟨.nothing .cancelled (max w.mono m), none, t.handler, t.cancelAt⟩, s.detached⟩ := by
  have hlt : i < s.tasks.length := (List.getElem?_eq_some_iff.1 htask).1
  let waiting : Task α := t.standing ⟨.answer flight expires deadline call next, none, w⟩
  let later : State α := ⟨w.elapseTo m, s.tasks.set i waiting, s.detached⟩
  have hresumed := after_move (h := ⟨s, []⟩) (resume_settled htask hwait h fun _ => rfl)
  have hwaiting : later.tasks[i]? = some waiting := List.getElem?_set_self hlt
  have hcancelled : later.stepEntries i Task.cancel Task.cancelNotes = _ ∧
      later.step i Task.cancel = _ := step_stands hwaiting rfl rfl fun _ => rfl
  have hset : (s.tasks.set i waiting).set i
      (waiting.standing ⟨.nothing .cancelled later.world.mono, none, later.world⟩) =
        s.tasks.set i ⟨.nothing .cancelled (max w.mono m), none, t.handler, t.cancelAt⟩ :=
    List.set_set _
  have hrun : Chronicle.of s [.move (.resume i), .pass m, .move (.cancel i)] =
      Chronicle.after ⟨later, entriesOf s.world.mono (some i) (notes ++ [.resumed]) ++ []⟩
        (.move (.cancel i)) :=
    congrArg (fun h => (Chronicle.after h (.pass m)).after (.move (.cancel i))) hresumed
  rw [hrun, after_move (h := ⟨later, _⟩) (m := .cancel i) hcancelled]
  exact ⟨rfl, congrArg (fun tasks => (⟨later.world, tasks, s.detached⟩ : State α)) hset⟩

/-- Two tasks that are resumed one after the other, and settle owing nothing. -/
theorem resume_two {s : State α} {due due' : Nat} {t t' : Task α} {p p' : Program α}
    {notes notes' : List Note} {st st' : Standing α} (htasks : s.tasks = [t, t'])
    (hwait : t.wait = .time due p) (h : Settles t.handler s.world t.owed p notes st)
    (howed : st.owed = none) (hwait' : t'.wait = .time due' p')
    (h' : Settles t'.handler st.world t'.owed p' notes' st') (howed' : st'.owed = none) :
    (Chronicle.of s [.move (.resume 0), .move (.resume 1)]).log =
        entriesOf st.world.mono (some 1) (notes' ++ [.resumed]) ++
          entriesOf s.world.mono (some 0) (notes ++ [.resumed]) ∧
      (Chronicle.of s [.move (.resume 0), .move (.resume 1)]).state =
        ⟨st'.world, [t.standing st, t'.standing st'], s.detached⟩ := by
  have hfirst : s.tasks[0]? = some t := by
    rw [htasks]
    rfl
  rcases resume_settled hfirst hwait h (fun _ => howed) with ⟨hentries, happly⟩
  have hsecond : (s.apply (.resume 0)).tasks[1]? = some t' := by
    rw [happly, htasks]
    rfl
  have hworld : (s.apply (.resume 0)).world = st.world := by rw [happly]
  rw [← hworld] at h'
  rcases resume_settled hsecond hwait' h' (fun _ => howed') with ⟨hentries', happly'⟩
  constructor
  · rw [log_move_move, hentries, hentries', hworld, List.append_nil]
  · rw [state_move_move, happly', happly, htasks]
    rfl

end Turnstile.Run

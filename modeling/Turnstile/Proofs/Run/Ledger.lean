import Turnstile.Proofs.Run.Chronicle
import Turnstile.Proofs.Store.History

/-!
# The world of a chronicle

What a log says of calls and readings is true of the world: the calls that it
tells as carried out are the deeds of the store, in their order and with the
answers that the store gave, and what a task read is what the clock showed.

The core of a world is the part of it that notes are about.  Every step of a
run, however large, takes the core from note to note; so what one note preserves
holds of every chronicle.

Main results:

- Theorem `chronicle_kept`: a chronicle keeps the log of its core.
- Theorem `Kept.ran`: the calls told as carried out are the deeds of the store.
- Theorem `Kept.sorted`: entries stand in the order of time.
- Theorem `Kept.read_eq`: clocks that are never set move together.
-/

namespace Turnstile.Run

open Store (Answer Call Deed LocalStore Ran Token)

variable {α : Type}

/-! ## The core of a world -/

/-- The part of a world that the notes of a log are about. -/
structure Core where
  clocks : Clocks
  store : LocalStore
  tokens : Nat

/-- The core of a world. -/
def World.core (w : World) : Core := ⟨w.clocks, w.store, w.tokens⟩

namespace Core

/-- The core after something happened that is no move. -/
def after (c : Core) : Happening → Core
  | .pass moment => { c with clocks := c.clocks.elapseTo moment }
  | .move _ => c
  | .purge => { c with store := c.store.purge c.clocks.mono }
  | .setWall time => { c with clocks := c.clocks.setWall time }
  | .setManual time => { c with clocks := c.clocks.setManual time }

/-- What a note says of the core before it and after it. -/
def Takes (c : Core) : Note → Core → Prop
  | .done call answer, c' => ∃ store,
      c.store.perform c.clocks.mono (.issued (c.tokens + 1)) call = .ok (answer, store) ∧
        c' = ⟨c.clocks, store, c.tokens + 1⟩
  | .read t, c' => t = c.clocks.now ∧ c' = c
  | _, c' => c' = c

/-- What notes say of the core before them and after them, the last note
first. -/
inductive Does : Core → List Note → Core → Prop where
  | refl (c : Core) : Does c [] c
  | step {c c' c'' : Core} {notes n} (h : Does c notes c') (hn : c'.Takes n c'') :
      Does c (n :: notes) c''

namespace Does

variable {c c' c'' : Core} {notes notes' : List Note}

/-- One note is taken by itself. -/
theorem single {n : Note} (h : c.Takes n c') : Does c [n] c' :=
  (refl c).step h

/-- Notes that are taken one after the other are taken together. -/
theorem append (h : Does c notes c') (h' : Does c' notes' c'') : Does c (notes' ++ notes) c'' := by
  induction h' with
  | refl => exact h
  | step _ hn ih => exact ih.step hn

end Does

/-- No note moves the clocks. -/
theorem Takes.clocks_eq {c c' : Core} {n : Note} (h : c.Takes n c') : c'.clocks = c.clocks := by
  cases n with
  | done call answer =>
      rcases h with ⟨store, _, rfl⟩
      rfl
  | read t =>
      rw [h.2]
  | _ =>
      have heq : c' = c := h
      rw [heq]

end Core

open Run.Core (Does)

/-! ## Calls -/

/-- Carrying out a call does to the core what it notes. -/
theorem does_carryOut (w : World) (call : Call) (treatment : Treatment) :
    Does w.core ((w.carryOut call treatment).1.notes call) (w.carryOut call treatment).2.core := by
  unfold World.carryOut
  cases treatment.failure with
  | some error => exact Does.single rfl
  | none =>
      dsimp only
      cases hdone : w.perform call with
      | error e => exact Does.single rfl
      | ok r =>
          rcases r with ⟨answer, w'⟩
          have htakes : w.core.Takes (.done call answer) w'.core := by
            unfold World.perform at hdone
            cases hstore : w.store.perform w.mono (.issued (w.tokens + 1)) call with
            | error e => simp [hstore, Except.map] at hdone
            | ok r =>
                simp only [hstore, Except.map, Except.ok.injEq, Prod.mk.injEq] at hdone
                rcases hdone with ⟨rfl, rfl⟩
                exact ⟨r.2, hstore, rfl⟩
          dsimp only
          cases treatment.after with
          | some wait => exact Does.single htakes
          | none => exact Does.single htakes

/-- So does beginning a call. -/
theorem does_send (w : World) (call : Call) :
    Does w.core (w.sendNotes call) (w.send call).2.core := by
  have hsent : Does w.core [.sent call] w.core := Does.single rfl
  let begun : World :=
    { w with counts := w.counts.next call.operation, calls := call :: w.calls }
  have hcarried := does_carryOut begun call
    (w.plan call.operation (w.counts.next call.operation call.operation))
  unfold World.sendNotes World.send
  dsimp only
  cases (w.plan call.operation (w.counts.next call.operation call.operation)).before with
  | some wait => exact hsent
  | none => exact hsent.append hcarried

/-- So does going on with one. -/
theorem does_proceed (w : World) (flight : Flight) :
    Does w.core (w.proceedNotes flight) (w.proceed flight).2.core := by
  unfold World.proceedNotes World.proceed
  rcases flight with ⟨phase, due⟩
  cases phase with
  | outbound call treatment => exact does_carryOut w call treatment
  | inbound answer => exact Does.refl _

/-- Dropping a call does nothing to the core. -/
theorem does_drop (c : Core) (flight : Flight) : Does c flight.dropNotes c := by
  unfold Flight.dropNotes
  cases flight.phase with
  | outbound call treatment => exact Does.single rfl
  | inbound answer => exact Does.refl _

/-! ## Tasks -/

/-- Settling a program does to the core what it notes. -/
theorem does_settle (handler : Handler) (p : Program α) (w : World) (owed : Option Call) :
    Does w.core (settleNotes handler w owed p) (settle handler w owed p).world.core := by
  induction p generalizing w owed with
  | done result => exact Does.single rfl
  | crash => exact Does.single rfl
  | call call deadline next ih =>
      have hsent := does_send w call
      unfold settle settleNotes
      rcases hsend : w.send call with ⟨progress, w'⟩
      rw [hsend] at hsent
      cases progress with
      | answered result =>
          have htold : Does w'.core [.told call result] w'.core := Does.single rfl
          have hboth := (hsent.append htold).append (ih result w' owed)
          simpa using hboth
      | waiting flight => exact hsent
      | overflow => exact hsent.step rfl
  | sleep span next ih =>
      have hpaused : Does w.core [.paused span] w.core := Does.single rfl
      have hresumed : Does w.core [.resumed, .paused span] w.core := hpaused.step rfl
      by_cases hzero : span.timerNanos = 0
      · rw [settle, settleNotes, if_pos hzero, if_pos hzero]
        exact hresumed.append (ih w owed)
      · rw [settle, settleNotes, if_neg hzero, if_neg hzero]
        exact hpaused
  | now next ih =>
      have hread : Does w.core [.read w.clocks.now] w.core := Does.single ⟨rfl, rfl⟩
      exact hread.append (ih _ w owed)
  | emit event next ih =>
      have hemitted : Does w.core [.emitted event] w.core := Does.single rfl
      exact hemitted.append (ih { w with events := event :: w.events } owed)
  | serve request next ih =>
      have hbegan : Does w.core [.began request] w.core := Does.single rfl
      have hfinished : ∀ response,
          Does w.core [.finished response, .began request] w.core := fun _ => hbegan.step rfl
      have hquit : Does w.core [.quit owed, .finished none, .began request] w.core :=
        (hfinished none).step rfl
      unfold settle settleNotes
      dsimp only
      generalize handler.answer (w.served + 1) request = response
      cases handler.delay with
      | some delay => exact hbegan
      | none =>
          cases response with
          | some response =>
              exact (hfinished (some response)).append
                (ih response { w with served := w.served + 1 } owed)
          | none => exact hquit
  | fresh next ih =>
      have hdrew : Does w.core [.drew (w.drawn + 1)] w.core := Does.single rfl
      exact hdrew.append (ih (w.drawn + 1) { w with drawn := w.drawn + 1 } owed)
  | hold call next ih =>
      have hheld : Does w.core [.held call] w.core := Does.single rfl
      exact hheld.append (ih w (some call))
  | unhold next ih =>
      have hunheld : Does w.core [.unheld] w.core := Does.single rfl
      exact hunheld.append (ih w none)

/-- Resuming a task does to the core what it notes. -/
theorem does_resume (t : Task α) (w : World) :
    Does w.core (t.resumeNotes w) (t.resume w).world.core := by
  rcases t with ⟨wait, owed, handler, cancelAt⟩
  cases wait with
  | time due program =>
      have hresumed : Does w.core [.resumed] w.core := Does.single rfl
      exact hresumed.append (does_settle handler program w owed)
  | answer flight expires deadline call next =>
      have hproceeded := does_proceed w flight
      unfold Task.resume Task.resumeNotes
      dsimp only
      rcases hproceed : w.proceed flight with ⟨progress, w'⟩
      rw [hproceed] at hproceeded
      cases progress with
      | answered result =>
          have htold : Does w'.core [.told call result] w'.core := Does.single rfl
          exact hproceeded.append (htold.append (does_settle handler (next result) w' owed))
      | waiting flight => exact hproceeded
      | overflow => exact hproceeded.step rfl
  | response due given next =>
      have hfinished : Does w.core [.finished given] w.core := Does.single rfl
      cases given with
      | some response => exact hfinished.append (does_settle handler (next response) w owed)
      | none => exact hfinished.step rfl
  | nothing ending time => exact Does.refl _

/-- So does the end of its wait. -/
theorem does_expire (t : Task α) (w : World) :
    Does w.core (t.expireNotes w) (t.expire w).world.core := by
  rcases t with ⟨wait, owed, handler, cancelAt⟩
  cases wait with
  | answer flight expires deadline call next =>
      have hdropped := does_drop w.core flight
      have htold : Does w.core
          (.told call (.error (.timeout call.operation deadline)) :: flight.dropNotes) w.core :=
        hdropped.step rfl
      exact htold.append (does_settle handler _ w owed)
  | _ => exact Does.refl _

/-- So does cancelling it. -/
theorem does_cancel (t : Task α) (w : World) :
    Does w.core (t.cancelNotes w) (t.cancel w).world.core := by
  rcases t with ⟨wait, owed, handler, cancelAt⟩
  cases wait with
  | time due program => exact Does.single rfl
  | answer flight expires deadline call next => exact (does_drop w.core flight).step rfl
  | response due given next =>
      have hdropped : Does w.core [.finished none] w.core := Does.single rfl
      exact hdropped.step rfl
  | nothing ending time => exact Does.refl _

/-! ## Chronicles -/

/-- The log was kept of a core while the given things happened, and the core is
now the last one. -/
inductive Kept (happenings : List Happening) (start : Core) : Log → Core → Prop where
  | start : Kept happenings start [] start
  | happened {log : Log} {c : Core} {e : Happening} (h : Kept happenings start log c)
      (he : e ∈ happenings) : Kept happenings start log (c.after e)
  | noted {log : Log} {c c' : Core} {n : Note} (task : Option Nat) (h : Kept happenings start log c)
      (hn : c.Takes n c') : Kept happenings start (⟨c.clocks.mono, task, n⟩ :: log) c'

section

variable {happenings : List Happening} {start c c' : Core} {log : Log}

/-- Notes that belong to a core go into its log. -/
theorem Kept.entries (task : Option Nat) {notes : List Note} (h : Kept happenings start log c)
    (hdoes : Does c notes c') :
    Kept happenings start (entriesOf c.clocks.mono task notes ++ log) c' := by
  have hboth : Kept happenings start (entriesOf c.clocks.mono task notes ++ log) c' ∧
      c'.clocks = c.clocks := by
    induction hdoes with
    | refl => exact ⟨h, rfl⟩
    | step _ hn ih =>
        have hnoted := Kept.noted task ih.1 hn
        rw [ih.2] at hnoted
        exact ⟨hnoted, hn.clocks_eq.trans ih.2⟩
  exact hboth.1

variable {h : Chronicle α}

/-- The log of a core is kept with a step of a task. -/
theorem kept_step {i : Nat} {f : Task α → World → Standing α} {notes : Task α → World → List Note}
    (hkept : Kept happenings start h.log h.state.world.core)
    (hf : ∀ t w, Does w.core (notes t w) (f t w).world.core) :
    Kept happenings start (h.state.stepEntries i f notes ++ h.log)
      (h.state.step i f).world.core := by
  unfold State.stepEntries State.step
  cases hi : h.state.tasks[i]? with
  | none => exact hkept
  | some t =>
      have hown := hkept.entries (some i) (hf t h.state.world)
      simp only [State.place, State.leaveEntries]
      generalize f t h.state.world = st at hown ⊢
      rcases st with ⟨wait, owed, w⟩
      cases wait with
      | nothing ending time =>
          cases owed with
          | none => exact hown
          | some owed =>
              have hleft := hown.entries none (does_send w owed)
              rw [List.append_assoc]
              exact hleft
      | _ => exact hown

/-- A chronicle keeps the log of its core. -/
theorem chronicle_kept (s : State α) (happenings : List Happening) :
    Kept happenings s.world.core (Chronicle.of s happenings).log
      (Chronicle.of s happenings).state.world.core := by
  refine chronicle_induction (P := fun h =>
    Kept happenings s.world.core h.log h.state.world.core) s Kept.start ?_
  intro h e he hkept
  cases e with
  | pass moment => exact hkept.happened he
  | purge => exact hkept.happened he
  | setWall time => exact hkept.happened he
  | setManual time => exact hkept.happened he
  | move m =>
      cases m with
      | resume i => exact kept_step hkept does_resume
      | expire i => exact kept_step hkept does_expire
      | cancel i => exact kept_step hkept does_cancel
      | deliver j =>
          unfold Chronicle.after State.apply State.entries State.deliver State.deliverEntries
          dsimp only
          cases h.state.detached[j]? with
          | none => exact hkept
          | some flight => exact hkept.entries none (does_proceed h.state.world flight)

end

/-! ## Time -/

section

variable {happenings : List Happening} {start c : Core} {log : Log}

/-- Whatever happens, the monotonic clock never moves back. -/
theorem mono_le_after (c : Core) (e : Happening) : c.clocks.mono ≤ (c.after e).clocks.mono := by
  cases e with
  | pass moment => exact Nat.le_max_left _ _
  | _ => exact Nat.le_refl _

/-- No entry was made after the clock of the core. -/
theorem Kept.time_le (h : Kept happenings start log c) : ∀ e ∈ log, e.time ≤ c.clocks.mono := by
  induction h with
  | start =>
      intro e he
      exact absurd he List.not_mem_nil
  | happened _ _ ih =>
      intro e he
      exact Nat.le_trans (ih e he) (mono_le_after _ _)
  | noted task _ hn ih =>
      intro e he
      rw [hn.clocks_eq]
      rcases List.mem_cons.1 he with rfl | he
      · exact Nat.le_refl _
      · exact ih e he

/-- The clock of the core never moves back. -/
theorem Kept.start_le (h : Kept happenings start log c) : start.clocks.mono ≤ c.clocks.mono := by
  induction h with
  | start => exact Nat.le_refl _
  | happened _ _ ih => exact Nat.le_trans ih (mono_le_after _ _)
  | noted task _ hn ih =>
      rw [hn.clocks_eq]
      exact ih

/-- No entry was made before the run started. -/
theorem Kept.le_time (h : Kept happenings start log c) :
    ∀ e ∈ log, start.clocks.mono ≤ e.time := by
  induction h with
  | start =>
      intro e he
      exact absurd he List.not_mem_nil
  | happened _ _ ih => exact ih
  | noted task h hn ih =>
      intro e he
      rcases List.mem_cons.1 he with rfl | he
      · exact h.start_le
      · exact ih e he

/-- Entries stand in the order of time. -/
theorem Kept.sorted (h : Kept happenings start log c) : Sorted log := by
  induction h with
  | start => exact List.Pairwise.nil
  | happened _ _ ih => exact ih
  | noted task h hn ih => exact List.Pairwise.cons h.time_le ih

/-- Whether something that happens leaves the clocks to themselves. -/
def Happening.SetsNoClock : Happening → Prop
  | .setWall _ => False
  | .setManual _ => False
  | _ => True

/-- Clocks that are never set move together. -/
theorem Kept.steady (h : Kept happenings start log c) (hset : ∀ e ∈ happenings, e.SetsNoClock) :
    c.clocks.offset = start.clocks.offset ∧ c.clocks.manual = start.clocks.manual := by
  induction h with
  | start => exact ⟨rfl, rfl⟩
  | @happened log c e _ he ih =>
      cases e with
      | setWall time => exact (hset _ he).elim
      | setManual time => exact (hset _ he).elim
      | _ => exact ih
  | noted task _ hn ih =>
      rw [hn.clocks_eq]
      exact ih

/-- Moves take no time. -/
theorem Kept.clocks_eq (h : Kept happenings start log c)
    (hmoves : ∀ e ∈ happenings, ∃ m, e = .move m) : c.clocks = start.clocks := by
  induction h with
  | start => rfl
  | happened _ he ih =>
      rcases hmoves _ he with ⟨m, rfl⟩
      exact ih
  | noted task _ hn ih => rw [hn.clocks_eq, ih]

/-- What the wall clock shows at a reading of the monotonic clock, if it is
never set. -/
def Clocks.wallAt (clocks : Clocks) (time : Nat) : Timestamp :=
  Timestamp.ofTotalNanos (clocks.offset + time)

/-- What a task read is what the wall clock showed, where clocks are never
set. -/
theorem Kept.read_eq (h : Kept happenings start log c) (hset : ∀ e ∈ happenings, e.SetsNoClock)
    (hmanual : start.clocks.manual = none) {e : Entry} (he : e ∈ log) {now : Timestamp}
    (hread : e.note = .read now) : now = start.clocks.wallAt e.time := by
  induction h with
  | start => exact absurd he List.not_mem_nil
  | happened _ _ ih => exact ih he
  | @noted log c c' n task hkept hn ih =>
      rcases List.mem_cons.1 he with rfl | he
      · simp only at hread
        subst hread
        have hsteady := hkept.steady hset
        have hnow : now = c.clocks.now := hn.1
        rw [hnow, Clocks.now, hsteady.2, hmanual]
        simp only [Option.getD_none, Clocks.wall, Clocks.wallAt, hsteady.1]
      · exact ih he

end

/-! ## Deeds -/

/-- The calls that a log tells as carried out. -/
def deeds (log : Log) : List Deed :=
  log.filterMap fun e =>
    match e.note with
    | .done call answer => some ⟨e.time, call, answer⟩
    | _ => none

section

variable {happenings : List Happening} {start c : Core} {log past : Log}

/-- A call that was carried out is a deed. -/
theorem deeds_cons_done (t : Nat) (task : Option Nat) (call : Call) (answer : Answer) (log : Log) :
    deeds (⟨t, task, .done call answer⟩ :: log) = ⟨t, call, answer⟩ :: deeds log := by
  simp [deeds]

/-- Nothing else is. -/
theorem deeds_cons_of_ne {e : Entry} (h : ∀ call answer, e.note ≠ .done call answer) (log : Log) :
    deeds (e :: log) = deeds log := by
  rcases e with ⟨t, task, n⟩
  cases n with
  | done call answer => exact absurd rfl (h call answer)
  | _ => rfl

/-- The deeds of an earlier log are those done first. -/
theorem deeds_suffix (h : past <:+ log) : deeds past <:+ deeds log := by
  rcases h with ⟨newer, rfl⟩
  unfold deeds
  rw [List.filterMap_append]
  exact List.suffix_append _ _

/-- A call that is told as carried out is a deed, with what was told before
behind it. -/
theorem Tells.deed {t : Nat} {task : Option Nat} {call : Call} {answer : Answer}
    (h : Tells log ⟨t, task, .done call answer⟩ past) :
    ⟨t, call, answer⟩ :: deeds past <:+ deeds log := by
  have hs := deeds_suffix h
  rw [deeds_cons_done] at hs
  exact hs

/-- Every deed was told. -/
theorem exists_of_deed {d : Deed} {behind : List Deed} (h : d :: behind <:+ deeds log) :
    ∃ task past, Tells log ⟨d.time, task, .done d.call d.answer⟩ past ∧ deeds past = behind := by
  induction log with
  | nil => simp [deeds] at h
  | cons e log ih =>
      by_cases hdone : ∃ call answer, e.note = .done call answer
      · rcases e with ⟨t, task, n⟩
        rcases hdone with ⟨call, answer, hn⟩
        simp only at hn
        subst hn
        rw [deeds_cons_done] at h
        rcases List.suffix_cons_iff.1 h with heq | h
        · rw [List.cons.injEq] at heq
          rcases heq with ⟨rfl, rfl⟩
          exact ⟨task, log, Tells.last _ _, rfl⟩
        · rcases ih h with ⟨task', past, htold, hpast⟩
          exact ⟨task', past, htold.of_suffix (List.suffix_cons _ _), hpast⟩
      · rw [deeds_cons_of_ne fun call answer hn => hdone ⟨call, answer, hn⟩] at h
        rcases ih h with ⟨task, past, htold, hpast⟩
        exact ⟨task, past, htold.of_suffix (List.suffix_cons _ _), hpast⟩

/-- Every deed was told, whatever was done later. -/
theorem exists_of_mem_deeds {d : Deed} (h : d ∈ deeds log) :
    ∃ task past, Tells log ⟨d.time, task, .done d.call d.answer⟩ past := by
  rcases List.append_of_mem h with ⟨newer, behind, hdeeds⟩
  have hsuffix : d :: behind <:+ deeds log := by
    rw [hdeeds]
    exact List.suffix_append _ _
  rcases exists_of_deed hsuffix with ⟨task, past, htold, _⟩
  exact ⟨task, past, htold⟩

/-- Deeds that lie behind each other were told so. -/
theorem tells_of_deeds {t t' : Nat} {task task' : Option Nat} {call call' : Call}
    {answer answer' : Answer} {past past' : Log}
    (h : Tells log ⟨t, task, .done call answer⟩ past)
    (h' : Tells log ⟨t', task', .done call' answer'⟩ past')
    (hbehind : ⟨t, call, answer⟩ :: deeds past <:+ deeds past') :
    Tells past' ⟨t, task, .done call answer⟩ past := by
  rcases h.order h' with ⟨_, rfl⟩ | hlater | hearlier
  · have hlen := List.IsSuffix.length_le hbehind
    simp only [List.length_cons] at hlen
    omega
  · have hlen := List.IsSuffix.length_le hbehind
    have hlen' := List.IsSuffix.length_le hlater.deed
    simp only [List.length_cons] at hlen hlen'
    omega
  · exact hearlier

/-- A token is given once. -/
theorem given_once {store : LocalStore} {now : Nat} (h : Ran (deeds log) store now) {t t' : Nat}
    {task task' : Option Nat} {lock lock' : String} {ttl ttl' : Span} {token : Token}
    {past past' : Log}
    (htold : Tells log ⟨t, task, .done (.acquireLock lock ttl) (.token (some token))⟩ past)
    (htold' : Tells log ⟨t', task', .done (.acquireLock lock' ttl') (.token (some token))⟩ past') :
    task = task' ∧ past = past' := by
  rcases htold.order htold' with ⟨heq, hpast⟩ | hbehind | hbehind
  · simp only [Entry.mk.injEq] at heq
    exact ⟨heq.2.1, hpast⟩
  · have hmem := List.IsSuffix.mem List.mem_cons_self hbehind.deed
    exact absurd rfl (h.token_ne htold.deed hmem ⟨rfl, rfl⟩ ⟨rfl, rfl⟩)
  · have hmem := List.IsSuffix.mem List.mem_cons_self hbehind.deed
    exact absurd rfl (h.token_ne htold'.deed hmem ⟨rfl, rfl⟩ ⟨rfl, rfl⟩)

/-- The store carried out a call for a task, at a time, and went from one state to another
with it. -/
def CarriesOut (log : Log) (i : Nat) (call : Call) (time : Nat) (before after : LocalStore) : Prop :=
  ∃ past answer fresh, Tells log ⟨time, some i, .done call answer⟩ past ∧
    Ran (deeds past) before time ∧ before.perform time fresh call = .ok (answer, after)

/-- What the store carried out for a task is noted, with the answer of the store. -/
theorem CarriesOut.noted {i : Nat} {call : Call} {time : Nat} {before after : LocalStore}
    (h : CarriesOut log i call time before after) :
    ∃ past answer fresh, .done call answer ∈ own i log ∧ Ran (deeds past) before time ∧
      before.perform time fresh call = .ok (answer, after) := by
  rcases h with ⟨past, answer, fresh, htold, hran, hdone⟩
  exact ⟨past, answer, fresh, List.IsSuffix.mem List.mem_cons_self htold.own, hran, hdone⟩

/-- Whatever was carried out for a task took the store from one state to another. -/
theorem exists_carriesOut {store : LocalStore} {now i : Nat} {call : Call}
    (h : Ran (deeds log) store now) (hcall : call ∈ carriedOut (own i log)) :
    ∃ time before after, CarriesOut log i call time before after := by
  rcases mem_carriedOut.1 hcall with ⟨answer, hdone⟩
  rcases exists_tells_of_mem hdone with ⟨time, past, htold⟩
  rcases h.behind htold.deed with ⟨before, after, fresh, hran, _, hperform⟩
  exact ⟨time, before, after, past, answer, fresh, htold, hran, hperform⟩

/-- The tokens that the store answered were issued in their order. -/
def Issued (log : Log) (tokens : Nat) : Prop :=
  ∀ d ∈ deeds log, ∀ token, d.answer = .token (some token) → ∃ n ≤ tokens, token = .issued n

/-- The calls told as carried out are the deeds of the store. -/
theorem Kept.ran_and_issued (h : Kept happenings start log c) (hstore : start.store = .empty) :
    Ran (deeds log) c.store c.clocks.mono ∧ Issued log c.tokens := by
  induction h with
  | start =>
      refine ⟨?_, ?_⟩
      · rw [hstore]
        exact Ran.start _
      · intro d hd
        exact absurd hd List.not_mem_nil
  | @happened log c e _ _ ih =>
      refine ⟨?_, ?_⟩
      · cases e with
        | purge => exact ih.1.purge
        | pass moment => exact ih.1.elapse (mono_le_after c (.pass moment))
        | _ => exact ih.1
      · cases e <;> exact ih.2
  | @noted log c c' n task _ hn ih =>
      by_cases hdone : ∃ call answer, n = .done call answer
      · rcases hdone with ⟨call, answer, rfl⟩
        rcases hn with ⟨store, hperform, rfl⟩
        have hfresh : ∀ d ∈ deeds log, d.answer ≠ .token (some (.issued (c.tokens + 1))) := by
          intro d hd hanswer
          rcases ih.2 d hd _ hanswer with ⟨n, hn, heq⟩
          simp only [Token.issued.injEq] at heq
          omega
        rw [deeds_cons_done]
        refine ⟨ih.1.perform hfresh hperform, ?_⟩
        intro d hd token hanswer
        rw [deeds_cons_done] at hd
        rcases List.mem_cons.1 hd with rfl | hd
        · exact ⟨c.tokens + 1, Nat.le_refl _, Ran.fresh_of_perform hperform hanswer⟩
        · rcases ih.2 d hd token hanswer with ⟨n, hle, heq⟩
          exact ⟨n, Nat.le_succ_of_le hle, heq⟩
      · have hsame : c' = c := by
          cases n with
          | done call answer => exact absurd ⟨call, answer, rfl⟩ hdone
          | read t => exact hn.2
          | _ => exact hn
        have hdeeds : deeds (⟨c.clocks.mono, task, n⟩ :: log) = deeds log :=
          deeds_cons_of_ne (fun call answer heq => hdone ⟨call, answer, heq⟩) log
        unfold Issued
        rw [hsame, hdeeds]
        exact ih

/-- The calls told as carried out are the deeds of the store. -/
theorem Kept.ran (h : Kept happenings start log c) (hstore : start.store = .empty) :
    Ran (deeds log) c.store c.clocks.mono :=
  (h.ran_and_issued hstore).1

end

end Turnstile.Run

import Turnstile.Run.Schedule

/-!
# Logs of a run

A log says what the tasks of a run did and what was done to them, in the order
in which it happened.  It is kept with its last entry first, so that what lies
behind an entry is what was known when the entry was made.

The entries of one task are its own log.  Two entries of a log that were made
in some order are told apart by what lies behind them, which is how "before"
and "after" are said of the entries of a run.

Main results:

- Theorem `Tells.order`: of two entries of a log one lies behind the other.
- Theorem `exists_of_own`: every note of a task's own log stands in the log,
  before what the task noted later and after what it noted earlier.
- Theorem `owedBy_eq_some`: what a task owes is what it held last.
-/

namespace Turnstile.Run

open Store (Answer Call)

/-! ## Notes and entries -/

/-- One thing that a task did, or that was done to it. -/
inductive Note where
  /-- The task goes on, at its start or after a pause. -/
  | resumed
  /-- The task read the clock of the guards. -/
  | read (now : Timestamp)
  /-- The task reported an event. -/
  | emitted (event : Event)
  /-- The task drew a number. -/
  | drew (number : Nat)
  /-- The task begins a pause. -/
  | paused (span : Span)
  /-- From here on the task owes a call. -/
  | held (call : Call)
  /-- From here on the task owes nothing. -/
  | unheld
  /-- The task began a call. -/
  | sent (call : Call)
  /-- A call was carried out. -/
  | done (call : Call) (answer : Answer)
  /-- A call was given up before it was carried out. -/
  | lost (call : Call)
  /-- The task is told how its call ended. -/
  | told (call : Call) (result : Except Store.Error Answer)
  /-- A run of the handler begins. -/
  | began (request : Http.Request)
  /-- A run of the handler ends, with a response or without. -/
  | finished (response : Option Http.Response)
  /-- The task ended with its result. -/
  | ended
  /-- The task broke off or was cancelled, and left behind what it owed. -/
  | quit (owed : Option Call)

/-- A note with the reading of the monotonic clock and the task that it is
about; a call that was left behind belongs to no task. -/
structure Entry where
  time : Nat
  task : Option Nat
  note : Note

/-- The entries of a run, the last one first. -/
abbrev Log := List Entry

/-- The notes of one task, the last one first. -/
def own (i : Nat) (log : Log) : List Note :=
  log.filterMap fun e => if e.task = some i then some e.note else none

/-- The requests that a task handed to its handler, the last one first. -/
def handedOver (notes : List Note) : List Http.Request :=
  notes.filterMap fun n =>
    match n with
    | .began request => some request
    | _ => none

/-- The events that a task reported, the last one first. -/
def reported (notes : List Note) : List Event :=
  notes.filterMap fun n =>
    match n with
    | .emitted event => some event
    | _ => none

/-- The calls that the store carried out for a task, the last one first. -/
def carriedOut (notes : List Note) : List Call :=
  notes.filterMap fun n =>
    match n with
    | .done call _ => some call
    | _ => none

/-- The log tells an entry, and `past` is what lies behind it. -/
def Tells (log : Log) (e : Entry) (past : Log) : Prop :=
  e :: past <:+ log

/-- The last entry of a log was not made before the others. -/
def Sorted (log : Log) : Prop :=
  log.Pairwise fun e f => f.time ≤ e.time

/-- Every entry of a log tells what happened before it. -/
theorem exists_tells {log : Log} {e : Entry} (h : e ∈ log) : ∃ past, Tells log e past := by
  rcases List.append_of_mem h with ⟨newer, past, rfl⟩
  exact ⟨past, List.suffix_append _ _⟩

/-- What begins with something else than the last entry lies behind that entry. -/
theorem suffix_of_head_ne {β : Type} {a b : β} {older past : List β} (h : a :: older <:+ b :: past)
    (hne : a ≠ b) : a :: older <:+ past := by
  rcases List.suffix_cons_iff.1 h with heq | hbehind
  · exact absurd (List.cons.inj heq).1 hne
  · exact hbehind

/-! ## Order of entries -/

namespace Tells

variable {log past past' : Log} {e e' : Entry}

/-- A log tells its last entry. -/
theorem last (e : Entry) (past : Log) : Tells (e :: past) e past :=
  List.suffix_rfl

/-- What lies behind an entry is the end of the log. -/
theorem suffix (h : Tells log e past) : past <:+ log := by
  have htail : past <:+ e :: past := List.suffix_cons e past
  exact htail.trans h

/-- A log that goes on tells what it told. -/
theorem of_suffix (h : Tells past e past') (hs : past <:+ log) : Tells log e past' :=
  List.IsSuffix.trans h hs

/-- What an entry's past tells, the log tells. -/
theorem trans (h : Tells log e past) (h' : Tells past e' past') : Tells log e' past' :=
  h'.of_suffix h.suffix

/-- The entries of a log that it tells. -/
theorem mem (h : Tells log e past) : e ∈ log :=
  List.IsSuffix.mem List.mem_cons_self h

/-- Of two entries of a log one lies behind the other, if they are not the
same. -/
theorem order (h : Tells log e past) (h' : Tells log e' past') :
    (e = e' ∧ past = past') ∨ Tells past e' past' ∨ Tells past' e past := by
  rcases List.suffix_or_suffix_of_suffix h h' with hs | hs
  · rcases List.suffix_cons_iff.1 hs with heq | hs
    · rw [List.cons.injEq] at heq
      exact Or.inl heq
    · exact Or.inr (Or.inr hs)
  · rcases List.suffix_cons_iff.1 hs with heq | hs
    · rw [List.cons.injEq] at heq
      exact Or.inl ⟨heq.1.symm, heq.2.symm⟩
    · exact Or.inr (Or.inl hs)

/-- No entry lies behind itself. -/
theorem irrefl : ¬ Tells past e past := by
  intro h
  have hlen := List.IsSuffix.length_le h
  simp only [List.length_cons] at hlen
  omega

/-- An entry that lies behind another was not made after it. -/
theorem time_le (hlog : Sorted log) (h : Tells log e past) (h' : Tells past e' past') :
    e'.time ≤ e.time := by
  have hpair : (e :: past).Pairwise fun e f => f.time ≤ e.time := hlog.sublist h.sublist
  exact List.rel_of_pairwise_cons hpair h'.mem

/-- No entry of a log was made after the last one. -/
theorem time_le_last (hlog : Sorted (e :: past)) (h : Tells (e :: past) e' past') :
    e'.time ≤ e.time := by
  rcases List.mem_cons.1 h.mem with rfl | hmem
  · exact Nat.le_refl _
  · exact List.rel_of_pairwise_cons hlog hmem

end Tells

/-! ## The log of one task -/

/-- Nobody has notes in an empty log. -/
@[simp]
theorem own_nil (i : Nat) : own i [] = [] := rfl

/-- The notes of a task in a log that goes on go on. -/
@[simp]
theorem own_append (i : Nat) (newer older : Log) :
    own i (newer ++ older) = own i newer ++ own i older := by
  simp [own]

/-- So do the requests handed over. -/
theorem handedOver_append (newer older : List Note) :
    handedOver (newer ++ older) = handedOver newer ++ handedOver older :=
  List.filterMap_append

/-- So do the calls carried out. -/
theorem carriedOut_append (newer older : List Note) :
    carriedOut (newer ++ older) = carriedOut newer ++ carriedOut older :=
  List.filterMap_append

/-- What was carried out for a task is noted. -/
theorem mem_carriedOut {notes : List Note} {call : Call} :
    call ∈ carriedOut notes ↔ ∃ answer, .done call answer ∈ notes := by
  unfold carriedOut
  rw [List.mem_filterMap]
  constructor
  · rintro ⟨n, hn, hcall⟩
    cases n with
    | done c answer =>
        rw [Option.some.injEq] at hcall
        subst hcall
        exact ⟨answer, hn⟩
    | _ => cases hcall
  · rintro ⟨answer, hdone⟩
    exact ⟨_, hdone, rfl⟩

/-- An entry of a task goes into its own log. -/
theorem own_cons_self (i t : Nat) (n : Note) (log : Log) :
    own i (⟨t, some i, n⟩ :: log) = n :: own i log := by
  simp [own]

/-- An entry of another task, or of none, does not. -/
theorem own_cons_of_ne {i : Nat} {e : Entry} (h : e.task ≠ some i) (log : Log) :
    own i (e :: log) = own i log := by
  simp [own, h]

/-- What a task noted at one time, as entries. -/
def entriesOf (time : Nat) (task : Option Nat) (notes : List Note) : Log :=
  notes.map fun n => ⟨time, task, n⟩

/-- The entries of a task are its notes. -/
@[simp]
theorem own_entriesOf_self (i time : Nat) (notes : List Note) :
    own i (entriesOf time (some i) notes) = notes := by
  induction notes with
  | nil => rfl
  | cons n notes ih =>
      simp only [entriesOf, List.map_cons, own_cons_self, List.cons.injEq, true_and]
      exact ih

/-- Nobody else has notes in them. -/
theorem own_entriesOf_of_ne {i time : Nat} {task : Option Nat} (h : task ≠ some i)
    (notes : List Note) : own i (entriesOf time task notes) = [] := by
  induction notes with
  | nil => rfl
  | cons n notes ih =>
      simp only [entriesOf, List.map_cons]
      rw [own_cons_of_ne (e := ⟨time, task, n⟩) h]
      exact ih

/-- A log tells what a task noted last, and what lay behind the notes lies behind. -/
theorem exists_of_mem_entriesOf {notes : List Note} {n : Note} (h : n ∈ notes) (time : Nat)
    (task : Option Nat) (log : Log) :
    ∃ past, Tells (entriesOf time task notes ++ log) ⟨time, task, n⟩ past ∧ log <:+ past := by
  rcases List.append_of_mem h with ⟨newer, older, rfl⟩
  refine ⟨entriesOf time task older ++ log, ⟨entriesOf time task newer, ?_⟩, List.suffix_append _ _⟩
  simp [entriesOf]

/-- Every note of a task's own log stands in the log, and what lies behind the
one lies behind the other. -/
theorem exists_of_own {i : Nat} {log : Log} (newer : List Note) {older : List Note} {n : Note}
    (h : own i log = newer ++ n :: older) :
    ∃ t past, Tells log ⟨t, some i, n⟩ past ∧ own i past = older := by
  induction log generalizing newer with
  | nil => simp at h
  | cons e log ih =>
      by_cases he : e.task = some i
      · rcases e with ⟨t, task, m⟩
        simp only at he
        subst he
        rw [own_cons_self] at h
        cases newer with
        | nil =>
            rw [List.nil_append, List.cons.injEq] at h
            rcases h with ⟨rfl, hown⟩
            exact ⟨t, log, Tells.last _ _, hown⟩
        | cons m' newer =>
            rw [List.cons_append, List.cons.injEq] at h
            rcases ih newer h.2 with ⟨t', past, htold, hown⟩
            exact ⟨t', past, htold.of_suffix (List.suffix_cons _ _), hown⟩
      · rw [own_cons_of_ne he] at h
        rcases ih newer h with ⟨t, past, htold, hown⟩
        exact ⟨t, past, htold.of_suffix (List.suffix_cons _ _), hown⟩

/-- Every note of a task tells what happened before it. -/
theorem exists_tells_of_mem {i : Nat} {log : Log} {n : Note} (h : n ∈ own i log) :
    ∃ t past, Tells log ⟨t, some i, n⟩ past := by
  rcases List.append_of_mem h with ⟨newer, older, hown⟩
  rcases exists_of_own newer hown with ⟨t, past, htold, _⟩
  exact ⟨t, past, htold⟩

/-- A task's own log grows with the log. -/
theorem own_suffix {past log : Log} (i : Nat) (h : past <:+ log) : own i past <:+ own i log := by
  rcases h with ⟨newer, rfl⟩
  rw [own_append]
  exact List.suffix_append _ _

/-- An entry of a task puts its note on top of what the task noted before. -/
theorem Tells.own {log past : Log} {i t : Nat} {n : Note}
    (h : Tells log ⟨t, some i, n⟩ past) : n :: own i past <:+ Turnstile.Run.own i log := by
  have hs := own_suffix i h
  rw [own_cons_self] at hs
  exact hs

/-- A log in which a task noted nothing lies behind whatever that notes. -/
theorem Tells.suffix_of_fresh {log past older : Log} {k t : Nat} {n : Note}
    (htold : Tells log ⟨t, some k, n⟩ past) (hs : older <:+ log)
    (hfresh : Turnstile.Run.own k older = []) : older <:+ past := by
  rcases List.suffix_or_suffix_of_suffix hs htold with hbehind | hbehind
  · rcases List.suffix_cons_iff.1 hbehind with rfl | hbehind
    · rw [own_cons_self] at hfresh
      exact nomatch hfresh
    · exact hbehind
  · have hown := own_suffix k hbehind
    rw [own_cons_self, hfresh] at hown
    simp at hown

/-- What lies behind a note of a task lies behind its last note, too. -/
theorem Tells.suffix_of_last {log past older : Log} {k t t' : Nat} {n n' : Note}
    (hlast : Tells log ⟨t, some k, n⟩ past)
    (hown : Turnstile.Run.own k log = n :: Turnstile.Run.own k past)
    (h : Tells log ⟨t', some k, n'⟩ older) : older <:+ past := by
  rcases h.order hlast with ⟨_, rfl⟩ | hbehind | hbehind
  · exact List.suffix_rfl
  · -- The last note cannot lie behind another.
    have hlength := List.IsSuffix.length_le h.own
    have hlength' := List.IsSuffix.length_le hbehind.own
    rw [hown] at hlength
    simp only [List.length_cons] at hlength hlength'
    omega
  · exact hbehind.suffix

/-! ## What a task owes -/

/-- The call that a task with these notes owes to the store. -/
def owedBy : List Note → Option Call
  | [] => none
  | .held call :: _ => some call
  | .unheld :: _ => none
  | .ended :: _ => none
  | .quit _ :: _ => none
  | _ :: past => owedBy past

/-- What a task owes is what it held last. -/
theorem owedBy_eq_some {notes : List Note} {call : Call} (h : owedBy notes = some call) :
    ∃ newer older, notes = newer ++ .held call :: older ∧ .unheld ∉ newer := by
  induction notes with
  | nil => simp [owedBy] at h
  | cons n notes ih =>
      cases n with
      | held c =>
          simp only [owedBy, Option.some.injEq] at h
          subst h
          exact ⟨[], notes, rfl, List.not_mem_nil⟩
      | unheld => simp [owedBy] at h
      | ended => simp [owedBy] at h
      | quit owed => simp [owedBy] at h
      | _ =>
          rcases ih (by simpa only [owedBy] using h) with ⟨newer, older, rfl, hnew⟩
          refine ⟨_ :: newer, older, rfl, ?_⟩
          simp [hnew]

end Turnstile.Run

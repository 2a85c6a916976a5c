import Turnstile.Proofs.Limiter.Conduct
import Turnstile.Proofs.Run.Calm
import Turnstile.Proofs.Time.Timestamp

/-!
# The limit in every window

Any number of callers ask one limiter for room for one subject, while others
count its requests, use the store under other keys and purge it.  As long as the
clock moves together with the monotonic clock and requests are recorded at the
instant at which their callers read it, no interval that is as long as the
window, whatever its ends are, holds more callers that were let through than the
limit.

Main results:

- Theorem `slides`: what such a run does to the window of the subject.
- Theorem `letThrough_le_limit`: no window holds more callers that were let
  through than the limit.
-/

namespace Turnstile.Limiter

open Run
open Store (Answer Call Deed LocalStore Slides)

/-! ## Those who take part -/

/-- What somebody does that takes part in a run. -/
inductive Errand where
  /-- Asks for room for a request of the subject. -/
  | allow
  /-- Counts the requests of the subject. -/
  | usage
  /-- Asks how much room the subject has. -/
  | remaining
  /-- Something else. -/
  | other (program : Program Unit)

/-- How an errand ends. -/
inductive Reply where
  | decided (result : Except Store.Error Decision)
  | counted (result : Except Store.Error Nat)
  | finished

/-- Whether a request was let through. -/
def Reply.allowed : Reply → Bool
  | .decided (.ok decision) => decision.allowed
  | _ => false

/-- Somebody who takes part in a run. -/
structure Asker where
  errand : Errand
  handler : Handler
  /-- When it starts, by the monotonic clock. -/
  time : Nat
  /-- When it is cancelled, if it has not ended by then. -/
  cancelAt : Option Nat

namespace Errand

/-- What an errand runs. -/
def program (l : Limiter) (subject : Subject) : Errand → Program Reply
  | .allow => l.allow subject >>= fun result => pure (.decided result)
  | .usage => l.usage subject >>= fun result => pure (.counted result)
  | .remaining => l.remaining subject >>= fun result => pure (.counted result)
  | .other program => program >>= fun _ => pure .finished

/-- The rules of an errand. -/
def rules (l : Limiter) (subject : Subject) : Errand → Pact Reply
  | .allow => ⟨l.mayAsk subject, fun past reply =>
      ∃ result, reply = .decided result ∧ l.mayPass subject past result⟩
  | _ => .onlyCalls (Call.SparesWindow (l.keyFor subject)) (Call.SparesWindow (l.keyFor subject))
      fun _ reply => reply.allowed = false

end Errand

namespace Asker

/-- Somebody as a task. -/
def task (l : Limiter) (subject : Subject) (a : Asker) : Run.Task Reply :=
  Run.Task.start (a.errand.program l subject) a.handler a.time a.cancelAt

/-- Whoever does something else leaves the window under a key alone. -/
def Spares (key : String) (a : Asker) : Prop :=
  ∀ program, a.errand = .other program → Limiter.Spares key program

/-- Somebody as a party that keeps the rules of its errand. -/
def party (l : Limiter) (subject : Subject) (a : Asker) : Party Reply :=
  ⟨a.errand.program l subject, a.handler, a.time, a.cancelAt, a.errand.rules l subject⟩

/-- Everybody keeps the rules of its errand. -/
theorem keeps {l : Limiter} {subject : Subject} {a : Asker} (h : a.Spares (l.keyFor subject)) :
    (a.party l subject).Keeps := by
  unfold Party.Keeps party
  dsimp only
  cases herrand : a.errand with
  | allow => exact (l.allow_keeps subject).map _ fun _ result hpass => ⟨result, rfl, hpass⟩
  | usage => exact (l.usage_spares subject _).keepsFromStart.map _ fun _ _ _ => rfl
  | remaining => exact (l.remaining_spares subject _).keepsFromStart.map _ fun _ _ _ => rfl
  | other program => exact (h program herrand).keepsFromStart.map _ fun _ _ _ => rfl

end Asker

/-- A run of a limiter over a store without entries. -/
def begin (l : Limiter) (subject : Subject) (clocks : Clocks) (plan : Plan) (askers : List Asker) :
    State Reply :=
  ⟨.start clocks plan, askers.map (Asker.task l subject), []⟩

/-! ## What is counted -/

/-- What somebody with these notes read of the clock last. -/
def readingOf (notes : List Note) : Option Timestamp :=
  notes.findSome? fun n =>
    match n with
    | .read now => some now
    | _ => none

/-- Whether a task has ended with a request that was let through. -/
def wasAllowed (t : Run.Task Reply) : Bool :=
  match t.wait with
  | .nothing (.result reply) _ => reply.allowed
  | _ => false

/-- Whether somebody with these notes read an instant of the clock in an interval
with its ends. -/
def readWithin (low high : Int) (notes : List Note) : Bool :=
  (readingOf notes).any fun now => low ≤ now.totalNanos && now.totalNanos ≤ high

/-- Those who were let through and read the clock in an interval with its ends. -/
def letThrough (run : Chronicle Reply) (low high : Int) : List Nat :=
  (List.range run.state.tasks.length).filter fun i =>
    run.state.tasks[i]?.any wasAllowed && readWithin low high (own i run.log)

/-! ## What a run has to provide -/

/-- The clock that is read moves together with the monotonic clock, in the range
of stamps. -/
structure Ticks (offset : Int) (log : Log) : Prop where
  reads : ∀ e ∈ log, ∀ now, e.note = .read now → now.totalNanos = offset + e.time
  ranged : ∀ e ∈ log, ∀ now, e.note = .read now →
    Timestamp.minStamp ≤ now.totalNanos ∧ now.totalNanos ≤ Timestamp.maxStamp

/-- Clocks that nobody sets tick. -/
theorem ticks_of_setsNoClock {happenings : List Happening} {s : State Reply}
    (hclocks : ∀ e ∈ happenings, e.SetsNoClock) (hmanual : s.world.clocks.manual = none)
    (hrange : ∀ e ∈ (Chronicle.of s happenings).log,
      Timestamp.minStamp ≤ s.world.clocks.offset + e.time ∧
        s.world.clocks.offset + e.time ≤ Timestamp.maxStamp) :
    Ticks s.world.clocks.offset (Chronicle.of s happenings).log := by
  have hreads : ∀ e ∈ (Chronicle.of s happenings).log, ∀ now, e.note = .read now →
      now.totalNanos = s.world.clocks.offset + e.time := by
    intro e he now hread
    rw [(chronicle_kept s happenings).read_eq hclocks hmanual he hread]
    exact Timestamp.totalNanos_ofTotalNanos _
  refine ⟨hreads, ?_⟩
  intro e he now hread
  rw [hreads e he now hread]
  exact hrange e he

/-- A call that changes the window under a key takes effect at the instant at
which whoever made it read the clock. -/
def TakesEffectAtOnce (key : String) (log : Log) : Prop :=
  ∀ t i call answer past, Tells log ⟨t, some i, .done call answer⟩ past →
    ¬ call.SparesWindow key →
    ∀ t' now older, Tells past ⟨t', some i, .read now⟩ older → t' = t

/-- No call of the store fails. -/
def NoCallFails (log : Log) : Prop :=
  ∀ e ∈ log, ∀ call error, e.note ≠ .told call (.error error)

/-! ## What happens to the window -/

section

variable {l : Limiter} {subject : Subject} {askers : List Asker} {log : Log} {offset : Int}

/-- Only those who ask for room change the window, and each of them once. -/
theorem exists_of_changes (h : Account (askers.map (Asker.party l subject)) log) {t : Nat}
    {who : Option Nat} {call : Call} {answer : Answer} {past : Log}
    (htold : Tells log ⟨t, who, .done call answer⟩ past)
    (hchanges : ¬ call.SparesWindow (l.keyFor subject)) :
    ∃ i now ttl, who = some i ∧ l.config.window.add? l.config.safetyMargin = some ttl ∧
      own i past = [.sent call, .read now, .resumed] ∧ call = l.asking subject now ttl := by
  rcases h.origin htold with ⟨i, p, older, hwho, hp, hown, hmay⟩ | ⟨t', i, behind, hquit⟩
  · rw [List.getElem?_map] at hp
    rcases Option.map_eq_some_iff.1 hp with ⟨a, _, rfl⟩
    unfold Asker.party Errand.rules at hmay
    cases herrand : a.errand with
    | allow =>
        rw [herrand] at hmay
        rcases hmay with ⟨now, ttl, httl, rfl, hcall⟩
        exact ⟨i, now, ttl, hwho, httl, hown, hcall⟩
    | _ =>
        rw [herrand] at hmay
        exact absurd hmay hchanges
  · rcases (h.of_suffix htold.suffix).held_of_quit hquit with ⟨p, older, hp, _, hmay⟩
    rw [List.getElem?_map] at hp
    rcases Option.map_eq_some_iff.1 hp with ⟨a, _, rfl⟩
    unfold Asker.party Errand.rules at hmay
    cases herrand : a.errand with
    | allow =>
        rw [herrand] at hmay
        exact hmay.elim
    | _ =>
        rw [herrand] at hmay
        exact absurd hmay hchanges

/-- The stamp of an instant in the range of stamps. -/
theorem stamp_eq_totalNanos {now : Timestamp}
    (h : Timestamp.minStamp ≤ now.totalNanos ∧ now.totalNanos ≤ Timestamp.maxStamp) :
    now.stamp = now.totalNanos := by
  unfold Timestamp.stamp
  exact if_pos h

/-- A sum of spans is as long as both. -/
theorem eq_of_add? {a b ttl : Span} (h : a.add? b = some ttl) : ttl = ⟨a.nanos + b.nanos⟩ := by
  unfold Span.add? at h
  dsimp only at h
  split at h
  · exact (Option.some.inj h).symm
  · exact nomatch h

/-- What such a run does to the window of the subject. -/
theorem slides (h : Account (askers.map (Asker.party l subject)) log) (hticks : Ticks offset log)
    (honce : TakesEffectAtOnce (l.keyFor subject) log)
    (hmargin : 0 < l.config.safetyMargin.nanos) :
    Slides (l.keyFor subject) offset l.config.window (l.limitFor subject)
      ⟨l.config.window.nanos + l.config.safetyMargin.nanos⟩ (deeds log) := by
  have hasked : ∀ d ∈ deeds log, ¬ d.call.SparesWindow (l.keyFor subject) →
      d.call = .recordInWindow (l.keyFor subject) (offset + d.time) l.config.window
        (l.limitFor subject) ⟨l.config.window.nanos + l.config.safetyMargin.nanos⟩ ∧
        Timestamp.minStamp ≤ offset + d.time := by
    intro d hd hchanges
    rcases exists_of_mem_deeds hd with ⟨who, past, htold⟩
    rcases exists_of_changes h htold hchanges with ⟨i, now, ttl, rfl, httl, hown, hcall⟩
    rcases exists_of_own [.sent d.call] hown with ⟨t', older, hread, _⟩
    have hat : t' = d.time := honce _ _ _ _ _ htold hchanges _ _ _ hread
    have hmem := List.IsSuffix.mem hread.mem htold.suffix
    have hrange := hticks.ranged _ hmem now rfl
    have hnow : now.totalNanos = offset + d.time := by
      rw [← hat]
      exact hticks.reads _ hmem now rfl
    rw [hcall, asking, stamp_eq_totalNanos hrange, hnow, eq_of_add? httl]
    rw [hnow] at hrange
    exact ⟨rfl, hrange.1⟩
  refine ⟨fun d hd hchanges => (hasked d hd hchanges).1,
    fun d hd hchanges => (hasked d hd hchanges).2, ?_⟩
  dsimp only
  omega

end

/-! ## Those who were let through -/

/-- Those who were admitted under a key in an interval with its ends. -/
def admittedBy (key : String) (low high : Int) (log : Log) : List (Option Nat) :=
  log.filterMap fun e =>
    match e.note with
    | .done call answer =>
        match Deed.admits? key ⟨e.time, call, answer⟩ with
        | some stamp => if low ≤ stamp ∧ stamp ≤ high then some e.task else none
        | none => none
    | _ => none

/-- As many were admitted as the deeds of the store say. -/
theorem length_admittedBy (key : String) (low high : Int) (log : Log) :
    (admittedBy key low high log).length = Store.admittedWithin key (deeds log) low high := by
  induction log with
  | nil => rfl
  | cons e log ih =>
      rcases e with ⟨t, task, n⟩
      cases n with
      | done call answer =>
          rw [deeds_cons_done]
          unfold admittedBy Store.admittedWithin at ih ⊢
          rw [List.filterMap_cons]
          dsimp only
          cases hadmits : Deed.admits? key ⟨t, call, answer⟩ with
          | none =>
              rw [Store.admissions_cons_none hadmits]
              exact ih
          | some stamp =>
              rw [Store.admissions_cons_some hadmits, List.countP_cons]
              by_cases hin : low ≤ stamp ∧ stamp ≤ high
              · simp only [hin, and_self, if_true, List.length_cons, decide_true, ih]
              · simp only [hin, if_false, decide_false, Bool.false_eq_true, Nat.add_zero]
                exact ih
      | _ => exact ih

section

variable {l : Limiter} {subject : Subject} {clocks : Clocks} {plan : Plan} {askers : List Asker}

/-- Every asker begins with its own program. -/
theorem begins (l : Limiter) (subject : Subject) (clocks : Clocks) (plan : Plan)
    (askers : List Asker) :
    Begins (askers.map (Asker.party l subject)) (begin l subject clocks plan askers) :=
  .of_members _ _ rfl rfl rfl

/-- Every asker keeps its rules. -/
theorem parties_keep (hothers : ∀ a ∈ askers, a.Spares (l.keyFor subject)) :
    ∀ p ∈ askers.map (Asker.party l subject), p.Keeps :=
  List.forall_mem_map.2 fun a ha => Asker.keeps (hothers a ha)

/-- Somebody as a party with other rules. -/
def Asker.under (l : Limiter) (subject : Subject) (rules : Asker → Pact Reply) (a : Asker) :
    Party Reply :=
  ⟨a.errand.program l subject, a.handler, a.time, a.cancelAt, rules a⟩

/-- Under other rules everybody begins in the same way. -/
theorem begins_under (rules : Asker → Pact Reply) :
    Begins (askers.map (Asker.under l subject rules)) (begin l subject clocks plan askers) :=
  .of_members _ _ rfl rfl rfl

/-- Under other rules the parties keep them if everybody does. -/
theorem under_keep {rules : Asker → Pact Reply}
    (hkeep : ∀ a ∈ askers, (a.under l subject rules).Keeps) :
    ∀ p ∈ askers.map (Asker.under l subject rules), p.Keeps :=
  List.forall_mem_map.2 hkeep

/-- Whoever has ended ended by the rules that all keep. -/
theorem own_of_ended (rules : Asker → Pact Reply) {happenings : List Happening}
    {run : Chronicle Reply}
    (hrun : run = Chronicle.of (begin l subject clocks plan askers) happenings)
    (hkeep : ∀ a ∈ askers, (a.under l subject rules).Keeps) {i : Nat} {t : Run.Task Reply}
    {reply : Reply} {time : Nat} (ht : run.state.tasks[i]? = some t)
    (hwait : t.wait = .nothing (.result reply) time) :
    ∃ a older, askers[i]? = some a ∧ own i run.log = .ended :: older ∧
      (rules a).ends older reply := by
  subst hrun
  have hbegins : Begins (askers.map (Asker.under l subject rules))
      (begin l subject clocks plan askers) := begins_under rules
  cases hp : (askers.map (Asker.under l subject rules))[i]? with
  | none =>
      have hlen := List.getElem?_eq_none_iff.1 hp
      have hlt := (List.getElem?_eq_some_iff.1 ht).1
      rw [(chronicle_path hbegins.fits happenings).length, hbegins.tasks, List.length_map] at hlt
      omega
  | some p =>
      rcases ends_of_conduct hbegins (under_keep hkeep) hp ht hwait with ⟨older, hown, hends⟩
      rw [List.getElem?_map] at hp
      rcases Option.map_eq_some_iff.1 hp with ⟨a, ha, rfl⟩
      exact ⟨a, older, ha, hown, hends⟩

/-- A task that was allowed has ended with that reply. -/
theorem wait_of_wasAllowed {t : Run.Task Reply} (h : wasAllowed t = true) :
    ∃ reply time, t.wait = .nothing (.result reply) time ∧ reply.allowed = true := by
  unfold wasAllowed at h
  split at h
  · next reply time hwait => exact ⟨reply, time, hwait, h⟩
  · exact nomatch h

/-- What somebody notes stands in the log. -/
theorem exists_of_mem_own {log : Log} {i : Nat} {n : Note} (h : n ∈ own i log) :
    ∃ e ∈ log, e.note = n := by
  rcases exists_tells_of_mem h with ⟨t, past, htold⟩
  exact ⟨_, htold.mem, rfl⟩

/-- Whoever was let through was admitted by the store, under the stamp that it
read. -/
theorem own_of_wasAllowed {happenings : List Happening} {run : Chronicle Reply}
    (hrun : run = Chronicle.of (begin l subject clocks plan askers) happenings)
    (hothers : ∀ a ∈ askers, a.Spares (l.keyFor subject))
    (hpolicy : l.config.failurePolicy = .failClosed ∨ NoCallFails run.log) {i : Nat} {a : Asker}
    (ha : askers[i]? = some a) {t : Run.Task Reply} (ht : run.state.tasks[i]? = some t)
    (hallowed : wasAllowed t = true) :
    ∃ now ttl outcome, l.config.window.add? l.config.safetyMargin = some ttl ∧
      own i run.log = .ended :: l.answered subject now ttl (.window outcome) ∧
      outcome.admitted = true := by
  subst hrun
  rcases wait_of_wasAllowed hallowed with ⟨reply, time, hwait, hreply⟩
  have hparty : (askers.map (Asker.party l subject))[i]? = some (a.party l subject) := by
    simp [ha]
  rcases ends_of_conduct (begins l subject clocks plan askers) (parties_keep hothers) hparty ht hwait
    with ⟨older, hown, hends⟩
  unfold Asker.party Errand.rules at hends
  cases herrand : a.errand with
  | allow =>
      rw [herrand] at hends
      rcases hends with ⟨result, rfl, hpass⟩
      cases result with
      | error error => exact nomatch hreply
      | ok decision =>
          rcases hpass hreply with ⟨now, ttl, outcome, httl, rfl, hadmitted⟩ | ⟨hopen, call, error, htold⟩
          · exact ⟨now, ttl, outcome, httl, hown, hadmitted⟩
          · -- The store failed, and yet the request was let through.
            rcases hpolicy with hclosed | hnone
            · rw [hopen] at hclosed
              exact nomatch hclosed
            · have hmem : .told call (.error error) ∈ own i
                  (Chronicle.of (begin l subject clocks plan askers) happenings).log := by
                rw [hown]
                exact List.mem_cons_of_mem _ htold
              rcases exists_of_mem_own hmem with ⟨e, he, hnote⟩
              exact absurd hnote (hnone e he call error)
  | _ =>
      rw [herrand] at hends
      have hrefused : reply.allowed = false := hends
      rw [hrefused] at hreply
      exact nomatch hreply

/-- Those who were let through in an interval were admitted by the store in that
interval. -/
theorem mem_admittedBy {happenings : List Happening} {run : Chronicle Reply}
    (hrun : run = Chronicle.of (begin l subject clocks plan askers) happenings)
    (hothers : ∀ a ∈ askers, a.Spares (l.keyFor subject))
    (hpolicy : l.config.failurePolicy = .failClosed ∨ NoCallFails run.log) {offset : Int}
    (hticks : Ticks offset run.log) {low high : Int} {i : Nat}
    (hi : i ∈ letThrough run low high) :
    some i ∈ admittedBy (l.keyFor subject) low high run.log := by
  unfold letThrough at hi
  rw [List.mem_filter, Bool.and_eq_true] at hi
  rcases hi with ⟨_, hallowed, hread⟩
  rcases (Option.any_eq_true _ _).1 hallowed with ⟨t, ht, hallowed⟩
  cases ha : askers[i]? with
  | none =>
      have hempty : own i run.log = [] := by
        rw [hrun]
        apply (account (begins l subject clocks plan askers) (parties_keep hothers) happenings).absent
        simp [ha]
      rw [hempty] at hread
      exact nomatch hread
  | some a =>
      rcases own_of_wasAllowed hrun hothers hpolicy ha ht hallowed with
        ⟨now, ttl, outcome, httl, hown, hadmitted⟩
      have hwithin : low ≤ now.totalNanos ∧ now.totalNanos ≤ high := by
        rw [hown] at hread
        simpa [readWithin, readingOf, answered] using hread
      have hnoted : .read now ∈ own i run.log := by
        rw [hown]
        simp [answered]
      rcases exists_of_mem_own hnoted with ⟨e, he, hnote⟩
      have hstamp := stamp_eq_totalNanos (hticks.ranged e he now hnote)
      have hdone : own i run.log = [.ended, .told (l.asking subject now ttl) (.ok (.window outcome))] ++
          .done (l.asking subject now ttl) (.window outcome) ::
            [.sent (l.asking subject now ttl), .read now, .resumed] := hown
      rcases exists_of_own _ hdone with ⟨t', past, htold, _⟩
      refine List.mem_filterMap.2 ⟨_, htold.mem, ?_⟩
      dsimp only [asking]
      rw [Store.admits?_window, if_pos hadmitted, hstamp]
      exact if_pos hwithin

end

/-- The limit is kept in every window.  If requests are recorded at the instants
at which their callers read the clock, the clock moves together with the
monotonic clock, and the limiter does not go on without a store that fails, then
no interval as long as the window holds more callers that were let through than
the limit, whenever it ends. -/
theorem letThrough_le_limit {l : Limiter} {subject : Subject} {clocks : Clocks} {plan : Plan}
    {askers : List Asker} {happenings : List Happening} {run : Chronicle Reply}
    (hrun : run = Chronicle.of (begin l subject clocks plan askers) happenings)
    (hwindow : (l.config.window.nanos : Int) ≤ Timestamp.maxStamp)
    (hmargin : 0 < l.config.safetyMargin.nanos)
    (hothers : ∀ a ∈ askers, a.Spares (l.keyFor subject))
    {offset : Int} (hticks : Ticks offset run.log)
    (honce : TakesEffectAtOnce (l.keyFor subject) run.log)
    (hpolicy : l.config.failurePolicy = .failClosed ∨ NoCallFails run.log) (time : Int) :
    (letThrough run (time - l.config.window.nanos) time).length ≤ l.limitFor subject := by
  have hadmitted : (letThrough run (time - l.config.window.nanos) time).map some ⊆
      admittedBy (l.keyFor subject) (time - l.config.window.nanos) time run.log := by
    intro who hwho
    rcases List.mem_map.1 hwho with ⟨i, hi, rfl⟩
    exact mem_admittedBy hrun hothers hpolicy hticks hi
  have hnodup : ((letThrough run (time - l.config.window.nanos) time).map some).Nodup := by
    have hrange : (letThrough run (time - l.config.window.nanos) time).Nodup :=
      List.nodup_range.filter _
    exact List.Pairwise.map some (fun _ _ hne heq => hne (Option.some.inj heq)) hrange
  have hfew : (letThrough run (time - l.config.window.nanos) time).length ≤
      Store.admittedWithin (l.keyFor subject) (deeds run.log) (time - l.config.window.nanos) time := by
    rw [← length_admittedBy, ← List.length_map some]
    exact List.Nodup.length_le_of_subset hnodup hadmitted
  refine Nat.le_trans hfew ?_
  have haccount : Account (askers.map (Asker.party l subject)) run.log := by
    rw [hrun]
    exact account (begins l subject clocks plan askers) (parties_keep hothers) happenings
  rcases haccount.ran with ⟨store, now, hran⟩
  exact hran.admittedWithin_le (slides haccount hticks honce hmargin) hwindow (by omega)

/-! ## Two requests in a minute -/

/-- A limiter with room for one request a minute, which does not go on without
its store. -/
def strict : Limiter :=
  .standard { LimiterConfig.standard with limit := 1, failurePolicy := .failClosed }

/-- Whose requests are counted. -/
def guest : Subject := .address "203.0.113.7"

/-- Somebody who asks for room. -/
def guestAsker : Asker := ⟨.allow, ⟨none, fun _ _ => none⟩, 0, none⟩

/-- How long the requests of the guest are kept. -/
def strictTtl : Span := .ofSeconds 61

/-- The margin of the strict limiter can be added to its window. -/
theorem strict_add? : strict.config.window.add? strict.config.safetyMargin = some strictTtl := by
  decide

/-- Asking for room is one call, once the clock is read. -/
theorem program_allow (l : Limiter) (subject : Subject) {ttl : Span}
    (httl : l.config.window.add? l.config.safetyMargin = some ttl) :
    Errand.allow.program l subject = .now fun now =>
      .call (l.asking subject now ttl) l.config.storeTimeout fun answer =>
        (match answer with
          | .error error => l.onStoreFailure (l.limitFor subject) now error
          | .ok answer => l.decide subject (l.limitFor subject) now (outcomeOf answer) >>= fun decision =>
              pure (.ok decision)) >>= fun result => pure (.decided result) := by
  unfold Errand.program
  rw [allow_eq]
  simp only [httl]
  rfl

/-- The first request of the guest is let through. -/
theorem settles_admitted {w : World} (hw : w = .start (.start .epoch none) .faultless) :
    ∃ notes st, Settles guestAsker.handler w none (Errand.allow.program strict guest) notes st ∧
      notes ++ [.resumed] = .ended :: strict.answered guest .epoch strictTtl
        (.window ⟨true, 1, some 0⟩) ∧
      (∃ decision, st.wait = .nothing (.result (.decided (.ok decision))) 0 ∧
        decision.allowed = true) ∧
      st.owed = none ∧ st.world.plan = .faultless ∧ st.world.clocks = .start .epoch none ∧
      ∃ expiresAt, 0 < expiresAt ∧
        st.world.store.windows.lookup (strict.keyFor guest) = some ⟨[0], some expiresAt⟩ := by
  have hexpiry : Store.expiry 0 strictTtl = .ok (0 + strictTtl.nanos) :=
    Store.expiry_ok (by decide)
  have hnow : (Clocks.start .epoch none).now = .epoch := by decide
  subst hw
  have hdone : LocalStore.empty.perform 0 (.issued 1) (strict.asking guest .epoch strictTtl) =
      .ok (.window ⟨true, 1, some 0⟩, { LocalStore.empty with
        windows := Store.Table.empty.insert (strict.keyFor guest)
          ⟨[0], some (0 + strictTtl.nanos)⟩ }) :=
    LocalStore.perform_record_first rfl (by decide) (by decide) hexpiry _
  rw [program_allow strict guest strict_add?]
  apply Exists.intro
  apply Exists.intro
  apply And.intro
  · apply Settles.now hnow
    apply Settles.call (fun _ => rfl) hdone
    exact Settles.done _ _ _ _
  · refine ⟨rfl, ⟨_, rfl, rfl⟩, rfl, rfl, rfl, 0 + strictTtl.nanos, by decide, ?_⟩
    exact Store.Table.lookup_insert_self _ _ _

/-- The next request of the guest is refused. -/
theorem settles_refused {w : World} (hplan : w.plan = .faultless)
    (hclocks : w.clocks = .start .epoch none) {expiresAt : Nat} (hpos : 0 < expiresAt)
    (hwindow : w.store.windows.lookup (strict.keyFor guest) = some ⟨[0], some expiresAt⟩) :
    ∃ notes st, Settles guestAsker.handler w none (Errand.allow.program strict guest) notes st ∧
      st.owed = none ∧ ∃ decision, st.wait = .nothing (.result (.decided (.ok decision))) w.mono ∧
        decision.allowed = false := by
  have hnow : w.clocks.now = .epoch := by
    rw [hclocks]
    decide
  have hmono : w.mono = 0 := mono_of_start hclocks
  have hdone : ∃ store, w.store.perform w.mono (.issued (w.tokens + 1))
      (strict.asking guest .epoch strictTtl) = .ok (.window ⟨false, 1, some 0⟩, store) := by
    have hstamps : w.store.stampsAt 0 (strict.keyFor guest) = [0] :=
      LocalStore.stampsAt_of_lookup hwindow hpos
    have hlive : (w.store.stampsAt 0 (strict.keyFor guest)).filter (Store.windowStart
        Timestamp.epoch.stamp strict.config.window ≤ ·) = [0] := by
      rw [hstamps]
      decide
    have hfull : strict.limitFor guest ≤ 1 := by decide
    rw [hmono]
    exact ⟨_, LocalStore.perform_record_refused hlive hfull _ _⟩
  rcases hdone with ⟨store, hdone⟩
  rw [program_allow strict guest strict_add?]
  apply Exists.intro
  apply Exists.intro
  apply And.intro
  · apply Settles.now hnow
    apply Settles.call (World.serves_of_faultless hplan _) hdone
    apply Settles.emit
    exact Settles.done _ _ _ _
  · exact ⟨rfl, _, rfl, rfl⟩

/-- The guest asks twice at the beginning of 1970. -/
def twoAsks : Chronicle Reply :=
  .of (begin strict guest (.start .epoch none) .faultless [guestAsker, guestAsker])
    [.move (.resume 0), .move (.resume 1)]

/-- The first of the two is let through, and the second is not. -/
theorem twoAsks_letThrough : letThrough twoAsks (0 - strict.config.window.nanos) 0 = [0] := by
  let first : State Reply :=
    begin strict guest (.start .epoch none) .faultless [guestAsker, guestAsker]
  rcases settles_admitted (w := first.world) rfl with
    ⟨notes, st, hsettles, hnotes, ⟨decision, hwait, hallowed⟩, howed, hplan, hclocks, expiresAt, hpos,
      hwindow⟩
  rcases settles_refused hplan hclocks hpos hwindow with
    ⟨_, st', hsettles', howed', decision', hwait', hrefused⟩
  rcases resume_two (s := first) rfl rfl hsettles howed rfl hsettles' howed' with ⟨hlog, hstate⟩
  have hown : own 0 twoAsks.log = .ended :: strict.answered guest .epoch strictTtl
      (.window ⟨true, 1, some 0⟩) := by
    unfold twoAsks
    rw [hlog, own_append, own_entriesOf_of_ne (by decide), own_entriesOf_self, List.nil_append,
      hnotes]
  have htasks : twoAsks.state.tasks = [(guestAsker.task strict guest).standing st,
      (guestAsker.task strict guest).standing st'] := congrArg State.tasks hstate
  have hread : readWithin (0 - strict.config.window.nanos) 0 (own 0 twoAsks.log) = true := by
    rw [hown]
    decide
  have hfirst : wasAllowed ((guestAsker.task strict guest).standing st) = true := by
    unfold wasAllowed Run.Task.standing
    rw [hwait]
    exact hallowed
  have hsecond : wasAllowed ((guestAsker.task strict guest).standing st') = false := by
    unfold wasAllowed Run.Task.standing
    rw [hwait']
    exact hrefused
  unfold letThrough
  rw [htasks]
  show List.filter _ [0, 1] = [0]
  rw [List.filter_cons_of_pos, List.filter_cons_of_neg, List.filter_nil]
  · simp [hsecond]
  · simp only [List.getElem?_cons_zero, Option.any_some, hfirst, hread, Bool.and_self]

/-- Of two requests in one minute, one at most is let through. -/
theorem twoAsks_within_limit :
    letThrough twoAsks (0 - strict.config.window.nanos) 0 = [0] ∧
      (letThrough twoAsks (0 - strict.config.window.nanos) 0).length ≤ strict.limitFor guest := by
  have hothers : ∀ a ∈ [guestAsker, guestAsker], a.Spares (strict.keyFor guest) := by
    intro a ha program hother
    have hasker : a = guestAsker := by simpa using ha
    rw [hasker] at hother
    exact nomatch hother
  -- No time passes.
  have hnow : ∀ e ∈ twoAsks.log, e.time = 0 := by
    intro e he
    have hkept := chronicle_kept
      (begin strict guest (.start .epoch none) .faultless [guestAsker, guestAsker])
      [.move (.resume 0), .move (.resume 1)]
    have hle := hkept.time_le e he
    rw [hkept.clocks_eq (by simp)] at hle
    exact Nat.le_zero.1 hle
  have hticks : Ticks Timestamp.epoch.totalNanos twoAsks.log := by
    refine ticks_of_setsNoClock
      (s := begin strict guest (.start .epoch none) .faultless [guestAsker, guestAsker])
      (by simp [Happening.SetsNoClock]) rfl ?_
    intro e he
    rw [hnow e he]
    decide
  have honce : TakesEffectAtOnce (strict.keyFor guest) twoAsks.log := by
    intro t i call answer past htold _ t' now older hread
    have htime := hnow _ htold.mem
    have htime' := hnow _ (hread.of_suffix htold.suffix).mem
    exact htime'.trans htime.symm
  exact ⟨twoAsks_letThrough, letThrough_le_limit rfl (by decide) (by decide) hothers hticks honce
    (Or.inl rfl) 0⟩

end Turnstile.Limiter

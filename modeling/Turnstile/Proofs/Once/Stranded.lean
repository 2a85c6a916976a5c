import Turnstile.Proofs.Once.Release
import Turnstile.Proofs.Once.AtMostOnce

/-!
# Stranded locks

A caller that breaks off or is cancelled leaves the release of its lock behind as
long as it owes it.  There are two moments at which it has a lock and owes nothing:
while the answer that brings it the token is still on its way, and while the release
that it began itself is.  If it breaks off there, the release is never carried out,
and the lock is held until it expires.  Everywhere else the lock is gone as soon as
the calls that were left behind have been carried out.

Main results:

- Theorem `told_or_stranded`: a caller that has ended was told the token that the
  store gave it, or broke off before.
- Theorem `not_released_of_stranded`: nobody releases a lock that was stranded.
- Theorem `held_exactly_when_stranded`: a caller that has ended leaves its lock held
  if it is stranded, and only then.
- Theorems `cutRelease_strands` and `cutAcquire_held`: a payer that is cancelled while
  it releases its lock leaves it held, and so does one that is cancelled while it
  waits for the token.
-/

namespace Turnstile.Once

open Run
open Store (Answer Call HeldLock LocalStore Ran Token)

/-- The caller broke off where nobody answers for its lock: before the answer came
that brings the token, or before the release was carried out that it began itself. -/
def Stranded (lock : String) (token : Token) (notes : List Note) : Prop :=
  (∃ ttl older, notes =
    .quit none :: .done (.acquireLock lock ttl) (.token (some token)) :: older) ∨
  ∃ older, notes = .quit none :: .lost (.releaseLock lock token) :: older

/-- No call of the notes failed. -/
def AllAnswered (notes : List Note) : Prop :=
  ∀ call error, .told call (.error error) ∉ notes

section

variable {s : State Result} {i : Nat} {c : Caller} {happenings : List Happening} {t : Run.Task Result}
  {lock : String} {ttl : Span} {token : Token} {older : List Note}

/-- What becomes of a call of a caller that has ended and whose calls did not fail:
the caller was told the answer, or broke off. -/
theorem TakesPart.after_outcome (h : TakesPart s i c)
    (ht : (Chronicle.of s happenings).state.tasks[i]? = some t) (hended : t.hasEnded = true)
    (hanswered : AllAnswered (own i (Chronicle.of s happenings).log)) {call : Call}
    {answer : Option Answer}
    (hn : outcome call answer :: older <:+ own i (Chronicle.of s happenings).log) :
    (∃ a, answer = some a ∧
      .told call (.ok a) :: outcome call answer :: older <:+ own i (Chronicle.of s happenings).log) ∨
    ∃ owed, own i (Chronicle.of s happenings).log = .quit owed :: outcome call answer :: older := by
  have hpath := (h.conduct ht).1
  rcases hpath.after_outcome hn with ⟨next, hcalled⟩ | ⟨result, hreports, htold⟩ | ⟨owed, hquit⟩
  · rcases point_of_hasEnded hended with ⟨result, hpoint⟩ | hpoint
    · exact nomatch hcalled.symm.trans hpoint
    · exact nomatch hcalled.symm.trans hpoint
  · cases result with
    | ok a => exact Or.inl ⟨a, hreports, htold⟩
    | error error => exact absurd (List.IsSuffix.mem List.mem_cons_self htold) (hanswered call error)
  · exact Or.inr ⟨owed, hpath.after_quit hquit⟩

/-- A caller that has ended was told the token that the store gave it, or broke off
before. -/
theorem TakesPart.told_or_stranded (h : TakesPart s i c)
    (ht : (Chronicle.of s happenings).state.tasks[i]? = some t) (hended : t.hasEnded = true)
    (hanswered : AllAnswered (own i (Chronicle.of s happenings).log))
    (htaken : .done (.acquireLock lock ttl) (.token (some token)) :: older <:+
      own i (Chronicle.of s happenings).log) :
    toldToken lock ttl token ∈ own i (Chronicle.of s happenings).log ∨
      Stranded lock token (own i (Chronicle.of s happenings).log) := by
  have hlawful := (h.conduct ht).2.1
  have houtcome : outcome (.acquireLock lock ttl) (some (.token (some token))) :: older <:+
      own i (Chronicle.of s happenings).log := htaken
  rcases h.after_outcome ht hended hanswered houtcome with ⟨a, ha, htold⟩ | ⟨owed, hquit⟩
  · rw [← Option.some.inj ha] at htold
    exact Or.inl (List.IsSuffix.mem List.mem_cons_self htold)
  · have hallows := (hlawful _ _ ⟨[], hquit.symm⟩).2 trivial
    rcases (hlawful _ older htaken).1 with ⟨before, hasked⟩
    have hbefore := hlawful.of_suffix htaken
    have hnone : custody (outcome (.acquireLock lock ttl) (some (.token (some token))) :: older) =
        .none := by
      refine none_of_asked hbefore (fun earlier he => ?_) (congrArg _ hasked)
      exact inCustody_of_lawful (hbefore.of_suffix he)
    have howed : owed = none := by
      simp only [keepingCustody, hnone] at hallows
      exact hallows
    subst howed
    exact Or.inr (Or.inl ⟨ttl, older, hquit⟩)

end

/-! ## Who releases a lock -/

section

variable {clocks : Clocks} {plan : Plan} {callers : List Caller} {happenings : List Happening}
  {run : Chronicle Result} {i j a : Nat} {lock lock' : String} {ttl ttl' : Span} {token : Token}
  {past : Log} {older : List Note} {n : Note}

/-- What is noted of a task is noted of a caller, which keeps custody of its lock. -/
theorem caller_of_note (hrun : run = Chronicle.of (begin clocks plan callers) happenings)
    (hn : n ∈ own i run.log) :
    ∃ c t, TakesPart (begin clocks plan callers) i c ∧
      Path c.handler c.task.stage (own i run.log) t ∧
      Lawful c.handler (keepingCustody : Pact Result) (own i run.log) := by
  subst hrun
  rcases exists_takesPart hn with ⟨c, hpart⟩
  rcases hpart.exists_task happenings with ⟨t, ht⟩
  rcases hpart.conduct ht with ⟨hpath, hlawful, _⟩
  exact ⟨c, t.stage, hpart, hpath, hlawful⟩

/-- The store gives no token twice. -/
theorem given_to_one (hrun : run = Chronicle.of (begin clocks plan callers) happenings) {a' : Nat}
    {who who' : Option Nat} {past' : Log}
    (htaken : Tells run.log ⟨a, who, .done (.acquireLock lock ttl) (.token (some token))⟩ past)
    (htaken' : Tells run.log ⟨a', who', .done (.acquireLock lock' ttl') (.token (some token))⟩ past') :
    who = who' ∧ past = past' := by
  have hbegins := begins clocks plan callers
  have hran := (chronicle_kept (begin clocks plan callers) happenings).ran hbegins.store
  rw [← hrun] at hran
  exact given_once hran htaken htaken'

/-- A lock is released by the caller that was told its token, which is the one that
took it. -/
theorem holder_of_release (hrun : run = Chronicle.of (begin clocks plan callers) happenings)
    (htaken : Tells run.log ⟨a, some i, .done (.acquireLock lock ttl) (.token (some token))⟩ past)
    (hn : n :: older <:+ own j run.log) (hcall : n.call? = some (.releaseLock lock' token)) :
    j = i ∧ ∃ ttl', toldToken lock' ttl' token ∈ older := by
  rcases caller_of_note hrun (List.IsSuffix.mem List.mem_cons_self hn) with ⟨_, _, _, _, hlawful⟩
  have hbehind : older <:+ own j _ := (List.suffix_cons n older).trans hn
  rcases told_before_release hlawful hn hcall with ⟨ttl', htold⟩
  have hdone := List.IsSuffix.mem (done_of_told (hlawful.of_suffix hbehind) htold) hbehind
  rcases exists_tells_of_mem hdone with ⟨a', past', htaken'⟩
  exact ⟨Option.some.inj (given_to_one hrun htaken' htaken).1, ttl', htold⟩

/-- A caller that breaks off before the answer comes is not told the token. -/
theorem not_told_of_cut (hrun : run = Chronicle.of (begin clocks plan callers) happenings)
    (hown : own i run.log =
      .quit none :: .done (.acquireLock lock ttl) (.token (some token)) :: older) :
    toldToken lock' ttl' token ∉ own i run.log := by
  intro htold
  rcases caller_of_note hrun htold with ⟨_, _, _, _, hlawful⟩
  rcases List.append_of_mem htold with ⟨newer, before, hsplit⟩
  rcases (hlawful _ before ⟨newer, hsplit.symm⟩).1 with ⟨answer, rest, rfl, hreports⟩
  have hanswer : answer = some (.token (some token)) := hreports
  subst hanswer
  -- The token was given once, and what followed was either that it was told or that the
  -- caller broke off.
  rcases exists_of_own [.quit none] hown with ⟨a, past, htaken, hpast⟩
  rcases exists_of_own (newer ++ [toldToken lock' ttl' token])
      (hsplit.trans (List.append_cons _ _ _)) with ⟨a', past', htaken', hpast'⟩
  have hsame : own i past = own i past' := congrArg _ (given_to_one hrun htaken htaken').2
  rw [hpast, hpast'] at hsame
  have hbehind : toldToken lock' ttl' token :: outcome (.acquireLock lock' ttl')
      (some (.token (some token))) :: .sent (.acquireLock lock' ttl') :: rest <:+
      .quit none :: .done (.acquireLock lock ttl) (.token (some token)) :: older :=
    ⟨newer, hsplit.symm.trans hown⟩
  have hlength := List.IsSuffix.length_le (suffix_of_head_ne hbehind nofun)
  rw [hsame] at hlength
  simp only [List.length_cons] at hlength
  omega

/-- A release that is carried out was begun by the caller that took the lock, or was
left behind by it. -/
theorem release_of_holder (hrun : run = Chronicle.of (begin clocks plan callers) happenings)
    (htaken : Tells run.log ⟨a, some i, .done (.acquireLock lock ttl) (.token (some token))⟩ past)
    {time : Nat} {who : Option Nat} {answer : Answer} {past' : Log}
    (hreleased : Tells run.log ⟨time, who, .done (.releaseLock lock token) answer⟩ past') :
    (∃ older, .done (.releaseLock lock token) answer :: .sent (.releaseLock lock token) :: older <:+
      own i run.log) ∨
    ∃ older, .quit (some (.releaseLock lock token)) :: older <:+ own i run.log := by
  cases who with
  | some j =>
      have hdone := hreleased.own
      rcases caller_of_note hrun (List.IsSuffix.mem List.mem_cons_self hdone) with
        ⟨_, _, _, _, hlawful⟩
      rcases (hlawful _ _ hdone).1 with ⟨older, hsent⟩
      rw [hsent] at hdone
      have hbegan := (List.suffix_cons _ _).trans hdone
      rcases holder_of_release hrun htaken hbegan rfl with ⟨rfl, _⟩
      exact Or.inl ⟨older, hdone⟩
  | none =>
      have hbegins := begins clocks plan callers
      have hremains := chronicle_remains hbegins.fits hbegins.detached happenings
      rw [← hrun] at hremains
      rcases hremains.entries _ _ hreleased rfl with ⟨call, ⟨t, j, behind, hquit⟩, hcall⟩
      have heq : .releaseLock lock token = call := hcall
      subst heq
      have hleft := (hquit.of_suffix hreleased.suffix).own
      rcases holder_of_release hrun htaken hleft rfl with ⟨rfl, _⟩
      exact Or.inr ⟨_, hleft⟩

/-- Nobody releases a lock that is stranded. -/
theorem not_released_of_stranded (hrun : run = Chronicle.of (begin clocks plan callers) happenings)
    (htaken : Tells run.log ⟨a, some i, .done (.acquireLock lock ttl) (.token (some token))⟩ past)
    (hstranded : Stranded lock token (own i run.log)) {time : Nat} {who : Option Nat}
    {answer : Answer} {past' : Log} :
    ¬ Tells run.log ⟨time, who, .done (.releaseLock lock token) answer⟩ past' := by
  intro hreleased
  have horigin := release_of_holder hrun htaken hreleased
  rcases hstranded with ⟨ttl', older', hcut⟩ | ⟨older', hcut⟩
  · -- The caller would have been told the token.
    have htold : ∃ n older, n :: older <:+ own i run.log ∧
        n.call? = some (.releaseLock lock token) := by
      rcases horigin with ⟨older, hdone⟩ | ⟨older, hleft⟩
      · exact ⟨_, older, (List.suffix_cons _ _).trans hdone, rfl⟩
      · exact ⟨_, older, hleft, rfl⟩
    rcases htold with ⟨n, older, hn, hcall⟩
    rcases (holder_of_release hrun htaken hn hcall).2 with ⟨ttl'', hmem⟩
    exact not_told_of_cut hrun hcut (List.IsSuffix.mem hmem ((List.suffix_cons n older).trans hn))
  · -- The caller began the release once, and broke off before it was carried out.
    rcases caller_of_note hrun (List.IsSuffix.mem List.mem_cons_self htaken.own) with
      ⟨_, _, _, hpath, hlawful⟩
    rcases horigin with ⟨older, hdone⟩ | ⟨older, hleft⟩
    · have hlost : .lost (.releaseLock lock token) :: older' <:+ own i run.log := by
        rw [hcut]
        exact List.suffix_cons _ _
      rcases (hlawful _ _ hlost).1 with ⟨before, rfl⟩
      have hcalls : callsOf (own i run.log) = .releaseLock lock token :: callsOf before := by
        rw [hcut]
        rfl
      have hbefore : .done (.releaseLock lock token) answer ::
          .sent (.releaseLock lock token) :: older <:+ before := by
        rw [hcut] at hdone
        exact suffix_of_head_ne (suffix_of_head_ne (suffix_of_head_ne hdone nofun) nofun) nofun
      have hagain := (List.suffix_cons _ _).trans hbefore
      have hcalled : .releaseLock lock token ∈ callsOf before :=
        List.mem_filterMap.2 ⟨_, List.IsSuffix.mem List.mem_cons_self hagain, rfl⟩
      exact (inCustody_of_lawful hlawful).no_release_before hcalls _ hcalled trivial
    · have hall := hpath.after_quit hleft
      rw [hcut] at hall
      exact nomatch (List.cons.inj hall).1

/-! ## Locks that stay held -/

/-- A release is lost only with the caller that strands its lock, if none is lost that
was left behind. -/
theorem stranded_of_lost (hrun : run = Chronicle.of (begin clocks plan callers) happenings)
    {t : Run.Task Result} (ht : run.state.tasks[i]? = some t) (hended : t.hasEnded = true)
    (hanswered : AllAnswered (own i run.log))
    (htaken : Tells run.log ⟨a, some i, .done (.acquireLock lock ttl) (.token (some token))⟩ past)
    (hspawned : ∀ e ∈ run.log, e.task = none → e.note ≠ .lost (.releaseLock lock token))
    {e : Entry} (he : e ∈ run.log) (hlost : e.note = .lost (.releaseLock lock token)) :
    Stranded lock token (own i run.log) := by
  rcases e with ⟨time, who, n⟩
  have hnote : n = .lost (.releaseLock lock token) := hlost
  subst hnote
  rcases exists_tells he with ⟨before, htold⟩
  cases who with
  | none => exact absurd rfl (hspawned _ he rfl)
  | some j =>
      have hown := htold.own
      rcases caller_of_note hrun (List.IsSuffix.mem List.mem_cons_self hown) with
        ⟨c, _, hpart, _, hlawful⟩
      rcases (hlawful _ _ hown).1 with ⟨older, hsent⟩
      rw [hsent] at hown
      have hbegan := (List.suffix_cons _ _).trans hown
      rcases holder_of_release hrun htaken hbegan rfl with ⟨rfl, _⟩
      subst hrun
      have houtcome : outcome (.releaseLock lock token) none ::
          .sent (.releaseLock lock token) :: older <:+ own j _ := hown
      rcases hpart.after_outcome ht hended hanswered houtcome with ⟨a, ha, _⟩ | ⟨owed, hquit⟩
      · exact nomatch ha
      · have hallows := (hlawful _ _ ⟨[], hquit.symm⟩).2 trivial
        have hletGo : custody (outcome (.releaseLock lock token) none ::
            .sent (.releaseLock lock token) :: older) = .letGo (.releaseLock lock token) := by
          simp only [custody_cons, Custody.after_outcome, due_of_sent hlawful hbegan trivial]
          rfl
        have howed : owed = none := by
          simp only [keepingCustody, hletGo] at hallows
          exact hallows
        subst howed
        exact Or.inr ⟨_, hquit⟩

/-- Where no call of a caller fails, and neither does a release that was left behind,
a caller that has ended leaves its lock held until it expires if it is stranded; and
if it is not, the table of locks does not hold its token, once the release that it
left behind has been carried out. -/
theorem held_exactly_when_stranded
    (hrun : run = Chronicle.of (begin clocks plan callers) happenings) {t : Run.Task Result}
    (ht : run.state.tasks[i]? = some t) (hended : t.hasEnded = true)
    (hanswered : AllAnswered (own i run.log))
    (htaken : Tells run.log ⟨a, some i, .done (.acquireLock lock ttl) (.token (some token))⟩ past)
    (hspawned : ∀ e ∈ run.log, e.task = none → e.note ≠ .lost (.releaseLock lock token))
    (harrived : ¬ Pending run.state.detached (.releaseLock lock token)) :
    (Stranded lock token (own i run.log) → run.state.world.mono < a + ttl.nanos →
      run.state.world.store.locks.lookup lock = some ⟨token, a + ttl.nanos⟩) ∧
    (¬ Stranded lock token (own i run.log) → ∀ key held,
      run.state.world.store.locks.lookup key = some held → held.token ≠ token) := by
  have hmem := List.IsSuffix.mem List.mem_cons_self htaken.own
  rw [hrun] at hmem
  rcases exists_takesPart hmem with ⟨c, hpart⟩
  constructor
  · intro hstranded hlive
    have hran := (chronicle_kept (begin clocks plan callers) happenings).ran hpart.store
    rw [← hrun] at hran
    rcases hran.held_or_released_or_expired htaken.deed ⟨rfl, rfl⟩ with
      hheld | ⟨r, past', hr, _, hrelease⟩ | hexpired
    · have hnow := hran.heldAt_eq (Nat.le_refl _) lock
      have hunexpired : run.state.world.core.clocks.mono < a + ttl.nanos := hlive
      rw [hheld, Option.filter_some, if_pos (by simpa using hunexpired)] at hnow
      exact (Option.filter_eq_some_iff.1 hnow).1
    · rcases exists_of_deed hr with ⟨who, past'', hreleased, _⟩
      rw [hrelease] at hreleased
      exact absurd hreleased (not_released_of_stranded hrun htaken hstranded)
    · exact absurd hlive (Nat.not_lt_of_le hexpired)
  · intro hnot key held hlookup
    have hkept : ∀ e ∈ run.log, e.note ≠ .lost (.releaseLock lock token) :=
      fun e he hlost => hnot (stranded_of_lost hrun ht hended hanswered htaken hspawned he hlost)
    subst hrun
    rcases hpart.told_or_stranded ht hended hanswered htaken.own with htold | hstranded
    · exact hpart.not_held ht hended htold hkept harrived hlookup
    · exact absurd hstranded hnot

end

/-! ## A payment that is cancelled while it releases its lock -/

/-- The plan by which releases wait for fifty milliseconds before they are carried
out. -/
def slowRelease : Plan :=
  Plan.ofRules [⟨.releaseLock, none, ⟨some 50000000, none, none⟩⟩]

/-- The notes of a payment until it waits for the release of its lock. -/
def releasingNotes (key : OperationKey) : List Note :=
  .sent (.releaseLock key.lock (.issued 2)) :: .unheld ::
    writtenNotes .standard key receipt (.read .epoch :: .finished (some (.ofStatus 201)) ::
      .began payment :: clearedNotes .standard key (.issued 2) .epoch [])

/-- A payer pays and waits for the release of its lock, which it holds till then. -/
theorem settles_releasing (key : OperationKey) :
    ∃ flight expires deadline call next w,
      Settles promptPayer.handler (.start (.start .epoch none) slowRelease) none
        (guarded promptPayer.config key (served promptPayer.http)) (releasingNotes key)
        ⟨.answer flight expires deadline call next, none, w⟩ ∧
      flight.dropNotes = [.lost (.releaseLock key.lock (.issued 2))] ∧ w.mono = 0 ∧
      w.store.locks.lookup key.lock = some ⟨.issued 2, 0 + Config.standard.lockTtl.nanos⟩ := by
  have hlock : Store.expiry 0 Config.standard.lockTtl = .ok (0 + Config.standard.lockTtl.nanos) :=
    Store.expiry_ok (by decide)
  have hcache : Store.expiry 0 Config.standard.cacheTtl = .ok (0 + Config.standard.cacheTtl.nanos) :=
    Store.expiry_ok (by decide)
  have hnow : (Clocks.start .epoch none).now = .epoch := by decide
  let world : World := .start (.start .epoch none) slowRelease
  let cleared : World := clearedWorld world .standard key (0 + Config.standard.lockTtl.nanos)
  let responded : World := { cleared with served := cleared.served + 1 }
  have hreleasing : Settles promptPayer.handler responded
      (some (.releaseLock key.lock (.issued 2)))
      (runHandler .standard key (pure (.ofStatus 201)) (.issued 2) >>= Program.done) _ _ :=
    settles_written (fun _ => rfl) hnow rfl hcache
      (Settles.unhold (Settles.call_waits (send_of_delay (fun _ => rfl) rfl)))
  have hresponded : Settles promptPayer.handler cleared (some (.releaseLock key.lock (.issued 2)))
      (runHandler .standard key (served payment) (.issued 2) >>= Program.done) _ _ :=
    Settles.serve rfl rfl hreleasing
  have hpays : Settles promptPayer.handler world none
      (guarded .standard key (served payment) >>= Program.done) _ _ :=
    settles_cleared (fun _ => rfl) (fun _ => rfl) hnow rfl rfl hlock hresponded
  rw [← Program.bind_pure (guarded promptPayer.config key (served promptPayer.http))]
  exact ⟨_, _, _, _, _, _, hpays.of_notes_eq rfl, rfl, rfl, Store.Table.lookup_insert_self _ _ _⟩

/-- A payer is cancelled when it has waited for twenty milliseconds for the release of
its lock. -/
def cutRelease : Chronicle Result :=
  .of (begin (.start .epoch none) slowRelease [promptPayer])
    [.move (.resume 0), .pass 20000000, .move (.cancel 0)]

/-- What is noted of the payment, and where the run stands after it. -/
theorem cutRelease_log :
    cutRelease.log = entriesOf 20000000 (some 0)
        [.quit none, .lost (.releaseLock orderKey.lock (.issued 2))] ++
      (entriesOf 0 (some 0) (releasingNotes orderKey ++ [.resumed]) ++ []) ∧
    cutRelease.state.detached = [] ∧ cutRelease.state.world.mono = 20000000 ∧
    cutRelease.state.world.store.locks.lookup orderKey.lock =
      some ⟨.issued 2, 0 + Config.standard.lockTtl.nanos⟩ := by
  let first : State Result := begin (.start .epoch none) slowRelease [promptPayer]
  have hprogram := Caller.program_of_key promptPayer_key
  rcases settles_releasing orderKey with
    ⟨flight, expires, deadline, call, next, w, hsettles, hdrop, hmono, hheld⟩
  rw [← hprogram] at hsettles
  have hcut := resume_cut (s := first) (i := 0) (m := 20000000) (t := promptPayer.task) rfl rfl
    hsettles
  rw [hmono, hdrop] at hcut
  have hrun : cutRelease = Chronicle.of first _ := rfl
  rw [hrun, hcut.1, hcut.2]
  exact ⟨rfl, rfl, congrArg (max · 20000000) hmono, hheld⟩

/-- A payer that is cancelled while it releases its lock leaves it held, though no call
fails, every wait is shorter than the deadline of its call, and nothing was left
behind that could still release the lock. -/
theorem cutRelease_strands :
    (∀ operation n, (slowRelease operation n).failure = none) ∧
    50000000 < promptPayer.config.storeTimeout.nanos ∧
    AllAnswered (own 0 cutRelease.log) ∧ (∃ older, own 0 cutRelease.log = .quit none :: older) ∧
    .done (.acquireLock orderKey.lock promptPayer.config.lockTtl) (.token (some (.issued 2))) ∈
      own 0 cutRelease.log ∧
    cutRelease.state.detached = [] ∧
    ∃ held, cutRelease.state.world.store.locks.lookup orderKey.lock = some held ∧
      held.token = .issued 2 ∧ cutRelease.state.world.mono < held.expiresAt := by
  rcases cutRelease_log with ⟨hlog, hdetached, hmono, hheld⟩
  have hown : own 0 cutRelease.log = [.quit none, .lost (.releaseLock orderKey.lock (.issued 2))] ++
      (releasingNotes orderKey ++ [.resumed]) := by
    rw [hlog]
    simp
  refine ⟨?_, by decide, ?_, ⟨_, hown⟩, ?_, hdetached, _, hheld, rfl, ?_⟩
  · intro operation n
    cases operation <;> rfl
  · rw [hown]
    simp [AllAnswered, releasingNotes, writtenNotes, clearedNotes, lookedUp, tookLock]
  · rw [hown]
    simp [releasingNotes, writtenNotes, clearedNotes, lookedUp, tookLock]
    rfl
  · rw [hmono]
    decide

/-! ## A payment that is cancelled while it waits for the token -/

/-- The plan by which the answers wait for fifty milliseconds that bring tokens. -/
def slowAcquire : Plan :=
  Plan.ofRules [⟨.acquireLock, none, ⟨none, none, some 50000000⟩⟩]

/-- The notes of a payment until it waits for the token. -/
def askingNotes (key : OperationKey) : List Note :=
  .done (.acquireLock key.lock Config.standard.lockTtl) (.token (some (.issued 2))) ::
    .sent (.acquireLock key.lock Config.standard.lockTtl) ::
    lookedUp key .epoch (.value none) []

/-- A payer asks for the lock and waits for the token. -/
theorem settles_asking (key : OperationKey) :
    ∃ flight expires deadline call next w,
      Settles promptPayer.handler (.start (.start .epoch none) slowAcquire) none
        (guarded promptPayer.config key (served promptPayer.http)) (askingNotes key)
        ⟨.answer flight expires deadline call next, none, w⟩ ∧
      flight.dropNotes = [] ∧ w.mono = 0 := by
  have hlock : Store.expiry 0 Config.standard.lockTtl = .ok (0 + Config.standard.lockTtl.nanos) :=
    Store.expiry_ok (by decide)
  have hnow : (Clocks.start .epoch none).now = .epoch := by decide
  have hasks : Settles promptPayer.handler (.start (.start .epoch none) slowAcquire) none
      (guarded .standard key (served payment)) _ _ :=
    Settles.now hnow (Settles.call (fun _ => rfl) rfl
      (Settles.call_waits (send_of_late_answer (fun _ => rfl)
        (LocalStore.perform_acquire_free rfl hlock _))))
  exact ⟨_, _, _, _, _, _, hasks.of_notes_eq rfl, rfl, rfl⟩

/-- A payer is cancelled when it has waited for twenty milliseconds for the token. -/
def cutAcquire : Chronicle Result :=
  .of (begin (.start .epoch none) slowAcquire [promptPayer])
    [.move (.resume 0), .pass 20000000, .move (.cancel 0)]

/-- What is noted of the payment, and where the run stands after it. -/
theorem cutAcquire_log :
    cutAcquire.log = entriesOf 20000000 (some 0) [.quit none] ++
      (entriesOf 0 (some 0) (askingNotes orderKey ++ [.resumed]) ++ []) ∧
    cutAcquire.state.detached = [] ∧ cutAcquire.state.world.mono = 20000000 ∧
    ∃ task, cutAcquire.state.tasks[0]? = some task ∧ task.hasEnded = true := by
  let first : State Result := begin (.start .epoch none) slowAcquire [promptPayer]
  have hprogram := Caller.program_of_key promptPayer_key
  rcases settles_asking orderKey with
    ⟨flight, expires, deadline, call, next, w, hsettles, hdrop, hmono⟩
  rw [← hprogram] at hsettles
  have hcut := resume_cut (s := first) (i := 0) (m := 20000000) (t := promptPayer.task) rfl rfl
    hsettles
  rw [hmono, hdrop] at hcut
  have hrun : cutAcquire = Chronicle.of first _ := rfl
  rw [hrun, hcut.1, hcut.2]
  exact ⟨rfl, rfl, congrArg (max · 20000000) hmono, _, rfl, rfl⟩

/-- A payer that is cancelled while it waits for the token leaves its lock held until it
expires. -/
theorem cutAcquire_held :
    Stranded orderKey.lock (.issued 2) (own 0 cutAcquire.log) ∧
      cutAcquire.state.world.store.locks.lookup orderKey.lock =
        some ⟨.issued 2, 0 + Config.standard.lockTtl.nanos⟩ := by
  rcases cutAcquire_log with ⟨hlog, hdetached, hmono, task, htask, hended⟩
  have hown : own 0 cutAcquire.log = .quit none :: (askingNotes orderKey ++ [.resumed]) := by
    rw [hlog]
    simp
  have hstranded : Stranded orderKey.lock (.issued 2) (own 0 cutAcquire.log) :=
    Or.inl ⟨_, _, hown⟩
  have htaken : ⟨0, some 0, .done (.acquireLock orderKey.lock Config.standard.lockTtl)
      (.token (some (.issued 2)))⟩ ∈ cutAcquire.log := by
    rw [hlog]
    simp [entriesOf, askingNotes]
  rcases exists_tells htaken with ⟨past, htold⟩
  have hanswered : AllAnswered (own 0 cutAcquire.log) := by
    rw [hown]
    simp [AllAnswered, askingNotes, lookedUp]
  have hspawned : ∀ e ∈ cutAcquire.log, e.task = none →
      e.note ≠ .lost (.releaseLock orderKey.lock (.issued 2)) := by
    intro e he hnone
    rw [hlog, List.append_nil] at he
    have howner : e.task = some 0 := by
      rcases List.mem_append.1 he with he | he
      · exact (mem_entriesOf he).1
      · exact (mem_entriesOf he).1
    rw [howner] at hnone
    exact absurd hnone (Option.some_ne_none 0)
  have harrived : ¬ Pending cutAcquire.state.detached
      (.releaseLock orderKey.lock (.issued 2)) := by
    rw [hdetached]
    simp [Pending]
  have hexactly := held_exactly_when_stranded (rfl : cutAcquire = _) htask hended hanswered htold
    hspawned harrived
  refine ⟨hstranded, hexactly.1 hstranded ?_⟩
  rw [hmono]
  decide

end Turnstile.Once

import Turnstile.Proofs.Once.AtMostOnce

/-!
# Records in their time

A record is set without regard to the lock: a caller whose lock has expired, and was
taken by another, writes its record over that of the other.  Nothing else ends the
life of a record early.  As long as no such caller comes, the record that was set is
the only one under its key until it expires, and every replay is of its response.

Main results:

- Theorem `expired_of_unsettled`: a lock that is taken between another's lock and
  the write of that finds the other lock expired.
- Theorem `Recorded.replayed`: whoever is replayed gets the record that was not
  written over.
- Theorem `authoritative_iff_not_written_over`: a record is authoritative until it
  expires unless it is written over, and then the lock of one of the two had expired.
- Theorem `slowPayment_writes_over`: a payment that takes longer than the lock lasts
  replaces the receipt that others were given.
-/

namespace Turnstile.Once

open Run
open Store (Answer Call LocalStore Token)

/-! ## Locks of writers -/

/-- The caller took the lock of the key, which was to expire at the given time. -/
def TookLock (log : Log) (i : Nat) (key : OperationKey) (expiresAt : Nat) : Prop :=
  ∃ a ttl token older,
    Tells log ⟨a, some i, .done (.acquireLock key.lock ttl) (.token (some token))⟩ older ∧
    expiresAt = a + ttl.nanos

/-- A lock that another takes between the lock of a caller and its write has
expired. -/
theorem expired_of_unsettled {callers : List Caller} {log later past older : Log} {x a a' t : Nat}
    {key : OperationKey} {c : Caller} {response : Http.Response} {captured : Timestamp}
    {bytes value : Bytes} {k lock : String} {ttl ttl' ttl'' : Span} {token token' : Token}
    {who : Option Nat} {answer : Answer} (h : Account callers log)
    (hrec : Records callers log x key c response captured bytes)
    (hset : Tells log ⟨t, some x, .done (.set k value ttl) answer⟩ later)
    (hagain : Tells later ⟨a', who, .done (.acquireLock lock ttl') (.token (some token'))⟩ past)
    (hfirst : Tells past ⟨a, some x, .done (.acquireLock lock ttl'') (.token (some token))⟩ older) :
    a + ttl''.nanos ≤ a' := by
  have hagainNow := hset.trans hagain
  rcases h.let_go_or_expired hagainNow hfirst with hgo | hexpired
  · rcases settled_of_let_go hrec hagainNow.suffix hgo with ⟨k', value', ttl', answer', hsettled⟩
    rcases exists_tells_of_mem hsettled with ⟨t', before, hsettledTold⟩
    have hsettledNow := hagain.trans hsettledTold
    have hwritten : Tells log ⟨t, some x, outcome (.set k value ttl) (some answer)⟩ later := hset
    rw [(outcome_once h hwritten (hset.trans hsettledNow)).2] at hsettledNow
    exact absurd hsettledNow Tells.irrefl
  · exact hexpired

section

variable {clocks : Clocks} {callers : List Caller} {log past : Log} {i s : Nat}
  {key : OperationKey} {c : Caller} {response : Http.Response} {captured : Timestamp}
  {bytes value : Bytes} {k : String} {ttl : Span} {answer : Answer}

/-- After the record was set, and until it expires, another caller sets a value
under its key, having taken the lock before the record was set. -/
structure WritesOver (clocks : Clocks) (log : Log) (key : OperationKey) (stop : Timestamp)
    (e : Entry) (past : Log) (x t : Nat) : Prop where
  sets : ∃ value ttl answer later,
    Tells log ⟨t, some x, .done (.set key.text value ttl) answer⟩ later ∧ Tells later e past
  valid : ShowsBefore clocks t stop
  took : ∃ expiresAt, TookLock past x key expiresAt

/-- If a record is written over, the lock of the one caller or of the other had
expired when it wrote. -/
theorem WritesOver.late (h : Account callers log)
    (hset : Tells log ⟨s, some i, .done (.set key.text value ttl) answer⟩ past)
    {stop : Timestamp} {x t : Nat}
    (hover : WritesOver clocks log key stop
      ⟨s, some i, .done (.set key.text value ttl) answer⟩ past x t) :
    (∃ expiresAt, TookLock past x key expiresAt ∧ expiresAt ≤ t) ∨
      ∃ expiresAt, TookLock past i key expiresAt ∧ expiresAt ≤ s := by
  rcases hover.sets with ⟨value', ttl', answer', later, hagain, hbehind⟩
  rcases hover.took with ⟨_, a, lockTtl, token, older, htook, rfl⟩
  have hx : x ≠ i := by
    rintro rfl
    rw [(written_once h hagain hset).2] at hbehind
    exact Tells.irrefl hbehind
  rcases record_of_set h hset with ⟨_, _, _, _, hrec, _⟩
  rcases hrec.began with ⟨_, _, start, hbegan⟩
  rcases exists_of_began (h.of_suffix hset.suffix) hrec.keyOf_eq hbegan with
    ⟨a', lockTtl', token', older', _, _, _, _, _, _, hgot, hread, htook', _⟩
  have htookI := hbegan.trans ((hgot.trans hread).trans htook')
  rcases htook.order htookI with ⟨heq, _⟩ | hfirst | hfirst
  · simp only [Entry.mk.injEq, Option.some.injEq] at heq
    exact absurd heq.2.1 hx
  · -- The writer took the lock first, and held it no more.
    have hexpired := expired_of_unsettled h (hrec.of_suffix hset.suffix) hset htook hfirst
    have hlate := Tells.time_le h.sorted hset htook
    simp only at hlate
    exact Or.inr ⟨_, ⟨a', lockTtl', token', older', htookI, rfl⟩, by omega⟩
  · rcases record_of_set h hagain with ⟨_, _, _, _, hrecX, _⟩
    have hexpired := expired_of_unsettled h (hrecX.of_suffix hagain.suffix) hagain
      (hbehind.trans htookI) hfirst
    have hlate := Tells.time_le h.sorted hagain (hbehind.trans htookI)
    simp only at hlate
    exact Or.inl ⟨_, ⟨a, lockTtl, token, older, htook, rfl⟩, by omega⟩

/-! ## Records that are not written over -/

/-- As long as nobody writes over the record, nobody sets another until it
expires. -/
theorem Recorded.not_set_again (h : Recorded clocks callers log i key c response captured bytes)
    (hset : Tells log ⟨s, some i, .done (.set k value ttl) answer⟩ past)
    (hnone : ∀ x t, ¬ WritesOver clocks log key (captured.addSaturating c.config.cacheTtl)
      ⟨s, some i, .done (.set k value ttl) answer⟩ past x t)
    {x t : Nat} {value' : Bytes} {ttl' : Span} {answer' : Answer} {later : Log}
    (hagain : Tells log ⟨t, some x, .done (.set key.text value' ttl') answer'⟩ later)
    (hafter : Tells later ⟨s, some i, .done (.set k value ttl) answer⟩ past) :
    ¬ ShowsBefore clocks t (captured.addSaturating c.config.cacheTtl) := by
  -- The first that sets another would have found the record, had it not taken the lock before.
  induction hn : later.length using Nat.strongRecOn generalizing x t value' ttl' answer' later with
  | ind n ih =>
      intro hvalid
      by_cases hx : x = i
      · subst hx
        rw [(written_once h.account hagain hset).2] at hafter
        exact Tells.irrefl hafter
      rcases record_of_set h.account hagain with ⟨_, _, _, _, hrec, _⟩
      rcases hrec.began with ⟨_, _, start, hbegan⟩
      have hbeganNow := hagain.trans hbegan
      rcases exists_of_began h.account hrec.keyOf_eq hbeganNow with
        ⟨a, lockTtl, token, older, read, now, earlier, got, found, before, hgot, hread, htook,
          hnothing⟩
      have htookX := hbegan.trans ((hgot.trans hread).trans htook)
      rcases htookX.order hafter with ⟨heq, _⟩ | hbehind | hbehind
      · simp at heq
      · have hsetBefore := (hread.trans htook).trans hbehind
        have hs := (hbeganNow.trans hgot).suffix
        have hgotLe := Tells.time_le h.account.sorted hagain (hbegan.trans hgot)
        have hentry := h.valueUnder_eq hs hsetBefore (by
          intro t' x' value'' ttl'' answer'' behind hother hsince
          have hother' := (hbegan.trans hgot).trans hother
          have hshorter := List.IsSuffix.length_le hother'
          simp only [List.length_cons] at hshorter
          have hearlier := Tells.time_le h.account.sorted hagain hother'
          exact ih behind.length (by omega) (hagain.trans hother') hsince rfl (hvalid.mono hearlier))
        have hfound := h.found hs hsetBefore hentry (hbeganNow.trans hgot) hread
          (hvalid.mono hgotLe)
        rw [hnothing] at hfound
        simp at hfound
      · exact hnone x t ⟨⟨value', ttl', answer', later, hagain, hafter⟩, hvalid, _, a, lockTtl, token,
          older, hbehind, rfl⟩

/-- Whoever looks up after the record was set finds it until it expires, as long as
nobody writes over it. -/
theorem Recorded.found_again (h : Recorded clocks callers log i key c response captured bytes)
    (hset : Tells log ⟨s, some i, .done (.set k value ttl) answer⟩ past)
    (hnone : ∀ x t, ¬ WritesOver clocks log key (captured.addSaturating c.config.cacheTtl)
      ⟨s, some i, .done (.set k value ttl) answer⟩ past x t)
    {who : Option Nat} {got read : Nat} {now : Timestamp} {found : Answer} {before behind : Log}
    (hgot : Tells log ⟨got, who, .done (.get key.text) found⟩ before)
    (hread : Tells before ⟨read, who, .read now⟩ behind)
    (hafter : Tells before ⟨s, some i, .done (.set k value ttl) answer⟩ past)
    (hvalid : ShowsBefore clocks got (captured.addSaturating c.config.cacheTtl)) :
    recordOf now found = .ok (some (recordBy c response captured bytes)) := by
  have hentry := h.valueUnder_eq hgot.suffix hafter (by
    intro t x value' ttl' answer' later hother hsince
    have hearlier := Tells.time_le h.account.sorted hgot hother
    exact h.not_set_again hset hnone (hgot.trans hother) hsince (hvalid.mono hearlier))
  exact h.found hgot.suffix hafter hentry hgot hread hvalid

/-! ## Whoever is replayed -/

/-- A caller that was replayed after another's entry, in a run without waits for the
store, looked up what it was replayed after that entry. -/
theorem looked_after {j t : Nat} {newer older : List Note} {now : Timestamp} {found : Answer}
    {before : Log} {e : Entry} (hunbroken : Unbroken log)
    (hended : Tells log ⟨t, some j, .ended⟩ before)
    (hown : own j before = newer ++ lookedUp key now found older)
    (hnewer : ∀ n ∈ newer, ¬ n.EndsWait) (he : e.task ≠ some j) (hafter : Tells before e past) :
    ∃ read behind earlier, Tells log ⟨t, some j, .done (.get key.text) found⟩ behind ∧
      Tells behind ⟨read, some j, .read now⟩ earlier ∧ Tells behind e past := by
  have hsplit : own j before = (newer ++ [.told (.get key.text) (.ok found)]) ++
      .done (.get key.text) found :: .sent (.get key.text) :: .read now :: older := by
    rw [hown, List.append_assoc]
    rfl
  have hstretch : ∀ n ∈ newer ++ [.told (.get key.text) (.ok found)], ¬ n.EndsWait := by
    intro n hn
    rcases List.mem_append.1 hn with hn | hn
    · exact hnewer n hn
    · rw [List.mem_singleton.1 hn]
      exact id
  rcases hunbroken.behind hended id hsplit hstretch with ⟨behind, hgot, hbehind, hothers⟩
  rcases exists_of_own [.sent (.get key.text)] hbehind with ⟨read, earlier, hread, _⟩
  exact ⟨read, behind, earlier, hended.trans hgot, hread, hothers e past hafter he⟩

/-- Whoever is replayed after the record was set, and until it expires, gets its
response, as long as nobody writes over it. -/
theorem Recorded.replayed (h : Recorded clocks callers log i key c response captured bytes)
    (hproper : response.headers.Proper) (hunbroken : Unbroken log)
    (hset : Tells log ⟨s, some i, .done (.set k value ttl) answer⟩ past)
    (hnone : ∀ x t, ¬ WritesOver clocks log key (captured.addSaturating c.config.cacheTtl)
      ⟨s, some i, .done (.set k value ttl) answer⟩ past x t)
    {j t : Nat} {replay : Http.Response} {before : Log}
    (hended : Tells log ⟨t, some j, .ended⟩ before)
    (hends : mayEnd key (own j before) (.ok (.replayed replay)))
    (hafter : Tells before ⟨s, some i, .done (.set k value ttl) answer⟩ past)
    (hvalid : ShowsBefore clocks t (captured.addSaturating c.config.cacheTtl)) :
    IsReplayOf response (.ok (.replayed replay)) := by
  rcases hends with ⟨hquiet, newer, now, found, older, record, hown, hnewer, hfound, rfl⟩
  have hj : some i ≠ some j := by
    -- The writer ran its handler: it is not replayed.
    rintro heq
    have hij := Option.some.inj heq
    subst hij
    rcases (h.records.written h.account hset).1.noted with ⟨_, request, _, _, _, hnoted⟩
    apply hquiet request
    apply List.IsSuffix.mem _ (own_suffix i hafter.suffix)
    rw [hnoted]
    simp
  rcases looked_after hunbroken hended hown hnewer hj hafter with
    ⟨read, behind, earlier, hgot, hread, hsince⟩
  have hthis := h.found_again hset hnone hgot hread hsince hvalid
  rw [hfound, Except.ok.injEq, Option.some.injEq] at hthis
  rw [hthis]
  exact isReplayOf_recordBy h.records.kept hproper

end

/-! ## The whole run -/

/-- After the record was set, and until it expires, nothing else is set under its
key, and every caller that ends with a replay gets its response. -/
structure IsAuthoritative (clocks : Clocks) (callers : List Caller) (run : Chronicle Result)
    (key : OperationKey) (stop : Timestamp) (response : Http.Response) (e : Entry) (past : Log) :
    Prop where
  kept : ∀ who t value ttl answer later,
    Tells run.log ⟨t, who, .done (.set key.text value ttl) answer⟩ later → Tells later e past →
    ¬ ShowsBefore clocks t stop
  replayed : ∀ j t replay later, keyOf callers j = some key →
    EndedWith run j t (.ok (.replayed replay)) → Tells run.log ⟨t, some j, .ended⟩ later →
    Tells later e past → ShowsBefore clocks t stop → IsReplayOf response (.ok (.replayed replay))

/-- A record that was set is authoritative until it expires unless it is written
over, by a caller that had taken the lock before; and where it is written over, the
lock of the one caller or of the other had expired when it wrote. -/
theorem authoritative_iff_not_written_over {clocks : Clocks} {plan : Plan} {callers : List Caller}
    {happenings : List Happening} {run : Chronicle Result}
    (hrun : run = Chronicle.of (begin clocks plan callers) happenings)
    (hwall : Timestamp.earliest.le clocks.wall = true) (hmanual : clocks.manual = none)
    (hclosed : ∀ c ∈ callers, c.config.failurePolicy = .failClosed)
    (hclocks : ∀ e ∈ happenings, e.SetsNoClock) (hprompt : plan.IsPrompt)
    {i s : Nat} {key : OperationKey} {c : Caller} {response : Http.Response}
    {captured : Timestamp} {bytes value : Bytes} {ttl : Span} {answer : Answer} {past : Log}
    (hrecords : Records callers run.log i key c response captured bytes)
    (hproper : response.headers.Proper)
    (hset : Tells run.log ⟨s, some i, .done (.set key.text value ttl) answer⟩ past) :
    (IsAuthoritative clocks callers run key (captured.addSaturating c.config.cacheTtl) response
        ⟨s, some i, .done (.set key.text value ttl) answer⟩ past ↔
      ¬ ∃ x t, WritesOver clocks run.log key (captured.addSaturating c.config.cacheTtl)
        ⟨s, some i, .done (.set key.text value ttl) answer⟩ past x t) ∧
    ∀ x t, WritesOver clocks run.log key (captured.addSaturating c.config.cacheTtl)
        ⟨s, some i, .done (.set key.text value ttl) answer⟩ past x t →
      (∃ expiresAt, TookLock past x key expiresAt ∧ expiresAt ≤ t) ∨
        ∃ expiresAt, TookLock past i key expiresAt ∧ expiresAt ≤ s := by
  have hrecorded := recorded_of_run hrun hwall hmanual hclosed hclocks hrecords
  refine ⟨⟨?_, ?_⟩, fun x t hover => hover.late hrecorded.account hset⟩
  · rintro hauthoritative ⟨x, t, hover⟩
    rcases hover.sets with ⟨value', ttl', answer', later, hagain, hafter⟩
    exact hauthoritative.kept _ t value' ttl' answer' later hagain hafter hover.valid
  · intro hnone
    have hnotOver : ∀ x t, ¬ WritesOver clocks run.log key (captured.addSaturating c.config.cacheTtl)
        ⟨s, some i, .done (.set key.text value ttl) answer⟩ past x t :=
      fun x t hover => hnone ⟨x, t, hover⟩
    refine ⟨?_, ?_⟩
    · intro who t value' ttl' answer' later hagain hafter
      rcases written_of_set hrecorded.account hagain with ⟨x, _, _, _, _, _, rfl, _⟩
      exact hrecorded.not_set_again hset hnotOver hagain hafter
    · intro j t replay later hj hended htold hafter hvalid
      have hunbroken : Unbroken run.log := by
        rw [hrun]
        refine (chronicle_prompt hprompt ?_ happenings).unbroken
        intro task htask
        rcases List.mem_map.1 htask with ⟨_, _, rfl⟩
        exact id
      rcases ends_of_keyOf hrun hclosed hj hended with ⟨before, hend, hends, hown⟩
      exact hrecorded.replayed hproper hunbroken hset hnotOver hend hends
        (hafter.of_suffix (hend.suffix_of_last hown htold)) hvalid

/-! ## A slow payment -/

/-- Settings with locks that last for ten nanoseconds. -/
def brief : Config := { Config.standard with lockTtl := ⟨10⟩ }

/-- A caller whose handler pays, but takes longer than its lock lasts. -/
def slowPayer : Caller :=
  { payer with config := brief, handler := ⟨some 20, fun _ _ => some (.ofStatus 201)⟩ }

/-- A caller that comes when that lock has expired. -/
def nextPayer : Caller :=
  { payer with config := brief, time := 10, handler := ⟨none, fun _ _ => some (.ofStatus 202)⟩ }

/-- A caller that comes when both have paid. -/
def lastPayer : Caller := { nextPayer with time := 20 }

/-- What the wall clock shows at a reading of the monotonic clock. -/
def shownAt (time : Nat) : Timestamp := (Clocks.start .epoch none).wallAt time

/-- The receipt of the caller that comes when the lock has expired. -/
def nextReceipt : Record := recordBy nextPayer (.ofStatus 202) (shownAt 10) []

/-- The receipt of the caller that takes longer than its lock lasts. -/
def slowReceipt : Record := recordBy slowPayer (.ofStatus 201) (shownAt 20) []

section

variable (key : OperationKey)

/-- The world while the slow caller pays. -/
def payingWorld : World :=
  { clearedWorld (.start (.start .epoch none) .faultless) brief key (0 + brief.lockTtl.nanos) with
    served := 1 }

/-- The world after the next caller has paid. -/
def paidWorld : World :=
  recordedWorld
    { clearedWorld ((payingWorld key).elapseTo 10) brief key (10 + brief.lockTtl.nanos) with
      served := 2 }
    brief key nextReceipt (.issued 5) (10 + brief.cacheTtl.nanos)

/-- The world after the slow caller has paid, too. -/
def paidTwiceWorld : World :=
  recordedWorld ((paidWorld key).elapseTo 20) brief key slowReceipt (.issued 2)
    (20 + brief.cacheTtl.nanos)

/-- How the slow caller goes on with the response of its handler. -/
def slowRest (response : Http.Response) : Program Result :=
  runHandler brief key (pure response) (.issued 2) >>= Program.done

/-- The notes of the slow caller until it waits for its handler. -/
def payingNotes : List Note :=
  .began payment :: clearedNotes brief key (.issued 2) (shownAt 0) []

/-- The notes of the slow caller once its handler has answered. -/
def lateNotes : List Note :=
  .ended :: recordedNotes brief key (.issued 2) slowReceipt [.read (shownAt 20)]

/-- The notes of the next caller. -/
def nextNotes : List Note :=
  .ended :: recordedNotes brief key (.issued 5) nextReceipt
    (.read (shownAt 10) :: .finished (some (.ofStatus 202)) :: .began payment ::
      clearedNotes brief key (.issued 5) (shownAt 10) [])

/-- The notes of the last caller. -/
def lastNotes : List Note :=
  .ended :: .emitted (.cacheHit key.text) ::
    lookedUp key (shownAt 20) (.value (some slowReceipt.render)) []

/-- The slow caller begins to pay. -/
theorem settles_slow :
    Settles slowPayer.handler (.start (.start .epoch none) .faultless) none
      (guarded slowPayer.config key (served slowPayer.http)) (payingNotes key)
      ⟨.response 20 (some (.ofStatus 201)) (slowRest key),
        some (.releaseLock key.lock (.issued 2)), payingWorld key⟩ := by
  have hlock : Store.expiry 0 brief.lockTtl = .ok (0 + brief.lockTtl.nanos) :=
    Store.expiry_ok (by decide)
  have hnow : (Clocks.start .epoch none).now = shownAt 0 := by decide
  have hbegins : Settles slowPayer.handler
      (clearedWorld (.start (.start .epoch none) .faultless) brief key (0 + brief.lockTtl.nanos))
      (some (.releaseLock key.lock (.issued 2)))
      (runHandler brief key (served payment) (.issued 2) >>= Program.done) [.began payment]
      ⟨.response 20 (some (.ofStatus 201)) (slowRest key),
        some (.releaseLock key.lock (.issued 2)), payingWorld key⟩ :=
    Settles.serve_waits (show slowPayer.handler.delay = some 20 from rfl)
  have hpays : Settles slowPayer.handler (.start (.start .epoch none) .faultless) none
      (guarded brief key (served payment) >>= Program.done) _ _ :=
    settles_cleared (fun _ => rfl) (fun _ => rfl) hnow rfl rfl hlock hbegins
  rw [← Program.bind_pure (guarded slowPayer.config key (served slowPayer.http))]
  exact hpays

/-- The next caller finds the lock expired, and pays. -/
theorem settles_next :
    Settles nextPayer.handler ((payingWorld key).elapseTo 10) none
      (guarded nextPayer.config key (served nextPayer.http)) (nextNotes key)
      ⟨.nothing (.result (.ok (.executed (.ofStatus 202)))) 10, none, paidWorld key⟩ := by
  have hlock : Store.expiry 10 brief.lockTtl = .ok (10 + brief.lockTtl.nanos) :=
    Store.expiry_ok (by decide)
  have hcache : Store.expiry 10 brief.cacheTtl = .ok (10 + brief.cacheTtl.nanos) :=
    Store.expiry_ok (by decide)
  have hnow : ((Clocks.start .epoch none).elapseTo 10).now = shownAt 10 := by decide
  have hfree : ((payingWorld key).elapseTo 10).store.heldAt 10 key.lock = none := by
    unfold LocalStore.heldAt
    rw [show ((payingWorld key).elapseTo 10).store.locks.lookup key.lock =
      some ⟨.issued 2, 0 + brief.lockTtl.nanos⟩ from Store.Table.lookup_insert_self _ _ _]
    rfl
  exact settles_executed (fun _ _ => rfl) hnow rfl hfree hlock hcache rfl rfl rfl

/-- The slow caller goes on when its handler has answered. -/
theorem settles_late :
    Settles slowPayer.handler ((paidWorld key).elapseTo 20)
      (some (.releaseLock key.lock (.issued 2))) (slowRest key (.ofStatus 201)) (lateNotes key)
      ⟨.nothing (.result (.ok (.executed (.ofStatus 201)))) 20, none, paidTwiceWorld key⟩ := by
  have hcache : Store.expiry 20 brief.cacheTtl = .ok (20 + brief.cacheTtl.nanos) :=
    Store.expiry_ok (by decide)
  have hnow : (((Clocks.start .epoch none).elapseTo 10).elapseTo 20).now = shownAt 20 := by decide
  have hrecorded : Settles slowPayer.handler ((paidWorld key).elapseTo 20)
      (some (.releaseLock key.lock (.issued 2)))
      (runHandler brief key (pure (.ofStatus 201)) (.issued 2) >>= Program.done) _
      ⟨.nothing (.result (.ok (.executed (.ofStatus 201)))) 20, none, paidTwiceWorld key⟩ :=
    settles_recorded (fun _ => rfl) (fun _ => rfl) hnow rfl hcache
      (Settles.done _ (paidTwiceWorld key) _ _)
  exact hrecorded.of_notes_eq rfl

/-- The receipts last. -/
theorem receipts_shown : ShowsBefore (.start .epoch none) 20 ((shownAt 10).addSaturating brief.cacheTtl) ∧
    ShowsBefore (.start .epoch none) 20 ((shownAt 20).addSaturating brief.cacheTtl) := by
  unfold ShowsBefore
  decide

/-- The last caller gets the receipt of the slow one. -/
theorem settles_last : ∃ world,
    Settles lastPayer.handler (paidTwiceWorld key) none
      (guarded lastPayer.config key (served lastPayer.http)) (lastNotes key)
      ⟨.nothing (.result (.ok (.replayed slowReceipt.toResponse))) 20, none, world⟩ := by
  have hnow : (paidTwiceWorld key).clocks.now = shownAt 20 := by
    show (((Clocks.start .epoch none).elapseTo 10).elapseTo 20).now = shownAt 20
    decide
  have hvalue : (paidTwiceWorld key).store.values.lookup key.text =
      some ⟨slowReceipt.render, 20 + brief.cacheTtl.nanos⟩ :=
    lookup_recordedWorld _ _ _ _ _ _
  have hlive : (paidTwiceWorld key).mono < 20 + brief.cacheTtl.nanos := by
    show 20 < 20 + brief.cacheTtl.nanos
    decide
  have hstorable : slowReceipt.Storable :=
    storable_recordBy (by decide) rfl (Nat.zero_le 20) (Nat.le_refl 20) receipts_shown.2
  rw [← Program.bind_pure (guarded lastPayer.config key (served lastPayer.http))]
  exact ⟨_, settles_replayed (fun _ => rfl) hnow hvalue hlive hstorable (by decide)
    (Settles.done _ _ _ _)⟩

end

/-- The callers that pay for one order. -/
def slowPayers : List Caller := [slowPayer, nextPayer, lastPayer]

/-- The slow caller begins to pay, the next one pays when its lock has expired, and the
last one comes when the slow one has paid, too. -/
def slowPayments : Chronicle Result :=
  .of (begin (.start .epoch none) .faultless slowPayers)
    [.move (.resume 0), .pass 10, .move (.resume 1), .pass 20, .move (.resume 0), .move (.resume 2)]

/-- The slow caller while it pays. -/
def payingTask : Run.Task Result :=
  slowPayer.task.standing ⟨.response 20 (some (.ofStatus 201)) (slowRest orderKey),
    some (.releaseLock orderKey.lock (.issued 2)), payingWorld orderKey⟩

/-- The next caller after it has paid. -/
def paidTask : Run.Task Result :=
  nextPayer.task.standing
    ⟨.nothing (.result (.ok (.executed (.ofStatus 202)))) 10, none, paidWorld orderKey⟩

/-- The slow caller after it has paid. -/
def lateTask : Run.Task Result :=
  payingTask.standing
    ⟨.nothing (.result (.ok (.executed (.ofStatus 201)))) 20, none, paidTwiceWorld orderKey⟩

/-- What the callers note until the slow one pays. -/
def payingLog : Log := entriesOf 0 (some 0) (payingNotes orderKey ++ [.resumed])

/-- What the callers note until the next one has paid. -/
def paidLog : Log := entriesOf 10 (some 1) (nextNotes orderKey ++ [.resumed]) ++ payingLog

/-- What the callers note until the slow one has paid, too. -/
def paidTwiceLog : Log :=
  entriesOf 20 (some 0) (lateNotes orderKey ++ [.finished (some (.ofStatus 201))]) ++ paidLog

/-- The next caller pays while the slow one does. -/
theorem paid_after :
    Chronicle.of (begin (.start .epoch none) .faultless slowPayers)
        [.move (.resume 0), .pass 10, .move (.resume 1)] =
      ⟨⟨paidWorld orderKey, [payingTask, paidTask, lastPayer.task], []⟩, paidLog⟩ := by
  let start : State Result := begin (.start .epoch none) .faultless slowPayers
  let paying : State Result :=
    ⟨(payingWorld orderKey).elapseTo 10, [payingTask, nextPayer.task, lastPayer.task], []⟩
  have hslow := settles_slow orderKey
  have hnext := settles_next orderKey
  rw [← Caller.program_of_key (show slowPayer.key? = some orderKey from payer_key)] at hslow
  rw [← Caller.program_of_key (show nextPayer.key? = some orderKey from payer_key)] at hnext
  have hbegins := resume_settled (s := start) (i := 0) (t := slowPayer.task) rfl rfl hslow
    (fun h => Bool.noConfusion h)
  have hpays := resume_settled (s := paying) (i := 1) (t := nextPayer.task) rfl rfl hnext
    (fun _ => rfl)
  have hfirst : Chronicle.after ⟨start, []⟩ (.move (.resume 0)) = _ := after_move hbegins
  have hsecond : Chronicle.after ⟨paying, payingLog⟩ (.move (.resume 1)) = _ := after_move hpays
  show ((Chronicle.after ⟨start, []⟩ (.move (.resume 0))).after (.pass 10)).after
    (.move (.resume 1)) = _
  rw [hfirst]
  exact hsecond

/-- The slow caller pays, too, and the last one gets its receipt. -/
theorem slowPayments_log :
    slowPayments.log = entriesOf 20 (some 2) (lastNotes orderKey ++ [.resumed]) ++ paidTwiceLog ∧
      ∃ task, slowPayments.state.tasks[2]? = some task ∧
        task.wait = .nothing (.result (.ok (.replayed slowReceipt.toResponse))) 20 := by
  let paid : State Result :=
    ⟨(paidWorld orderKey).elapseTo 20, [payingTask, paidTask, lastPayer.task], []⟩
  let paidTwice : State Result :=
    ⟨paidTwiceWorld orderKey, [lateTask, paidTask, lastPayer.task], []⟩
  rcases settles_last orderKey with ⟨world, hlast⟩
  rw [← Caller.program_of_key (show lastPayer.key? = some orderKey from payer_key)] at hlast
  have hlate := resume_responded (s := paid) (i := 0) (t := payingTask) rfl rfl
    (settles_late orderKey) (fun _ => rfl)
  have hreplays := resume_settled (s := paidTwice) (i := 2) (t := lastPayer.task) rfl rfl hlast
    (fun _ => rfl)
  have hthird : Chronicle.after ⟨paid, paidLog⟩ (.move (.resume 0)) = _ := after_move hlate
  have hfourth : Chronicle.after ⟨paidTwice, paidTwiceLog⟩ (.move (.resume 2)) = _ :=
    after_move hreplays
  have hrun : slowPayments = Chronicle.after ⟨paidTwice, paidTwiceLog⟩ (.move (.resume 2)) := by
    show (((Chronicle.of (begin (.start .epoch none) .faultless slowPayers)
      [.move (.resume 0), .pass 10, .move (.resume 1)]).after (.pass 20)).after
        (.move (.resume 0))).after (.move (.resume 2)) = _
    rw [paid_after]
    show (Chronicle.after ⟨paid, paidLog⟩ (.move (.resume 0))).after (.move (.resume 2)) = _
    rw [hthird]
    rfl
  rw [hrun, hfourth]
  exact ⟨rfl, _, rfl, rfl⟩

/-! ### The receipt that is replaced -/

/-- The entry of the receipt of the next caller. -/
def nextSet : Entry :=
  ⟨10, some 1, .done (.set orderKey.text nextReceipt.render brief.cacheTtl) .done⟩

/-- The entry of the receipt of the slow caller. -/
def lateSet : Entry :=
  ⟨20, some 0, .done (.set orderKey.text slowReceipt.render brief.cacheTtl) .done⟩

theorem slowPayers_closed : ∀ c ∈ slowPayers, c.config.failurePolicy = .failClosed := by
  have hbrief : ∀ c ∈ slowPayers, c.config = brief := by
    simp [slowPayers, slowPayer, nextPayer, lastPayer]
  intro c hc
  rw [hbrief c hc]
  rfl

theorem slowPayments_records : Records slowPayers slowPayments.log 1 orderKey nextPayer
    (.ofStatus 202) (shownAt 10) [] := by
  have hown : own 1 slowPayments.log = nextNotes orderKey ++ [.resumed] := by
    rw [slowPayments_log.1]
    unfold paidTwiceLog paidLog payingLog
    simp only [own_append, own_entriesOf_self]
    rw [own_entriesOf_of_ne (by decide), own_entriesOf_of_ne (by decide),
      own_entriesOf_of_ne (by decide), List.append_nil]
    rfl
  refine ⟨rfl, payer_key, rfl, .ended :: recordedNotes brief orderKey (.issued 5) nextReceipt [],
    payment, .issued 5, _, cleared_clearedNotes brief orderKey (.issued 5) (shownAt 10), ?_⟩
  rw [hown]
  rfl

/-- The receipt of the next caller was set while the slow one paid, under a lock that
had expired. -/
theorem slowPayments_set : ∃ past, Tells paidLog nextSet past ∧ TookLock past 0 orderKey 10 := by
  have htook : .done (.acquireLock orderKey.lock brief.lockTtl) (.token (some (.issued 2))) ∈
      payingNotes orderKey ++ [.resumed] := by
    simp [payingNotes, clearedNotes, lookedUp, tookLock]
  have hset : .done (.set orderKey.text nextReceipt.render brief.cacheTtl) .done ∈
      nextNotes orderKey ++ [.resumed] := by
    simp [nextNotes, recordedNotes]
  rcases exists_of_mem_entriesOf htook 0 (some 0) [] with ⟨older, htold, _⟩
  rcases exists_of_mem_entriesOf hset 10 (some 1) payingLog with ⟨past, hnext, hbehind⟩
  rw [List.append_nil] at htold
  exact ⟨past, hnext, 0, brief.lockTtl, _, older, htold.of_suffix hbehind, rfl⟩

/-- The slow caller replaces the receipt. -/
theorem slowPayments_replaces :
    ∃ later, Tells slowPayments.log lateSet later ∧ paidLog <:+ later := by
  have hset : .done (.set orderKey.text slowReceipt.render brief.cacheTtl) .done ∈
      lateNotes orderKey ++ [.finished (some (.ofStatus 201))] := by
    simp [lateNotes, recordedNotes]
  rcases exists_of_mem_entriesOf hset 20 (some 0) paidLog with ⟨later, hlate, hbehind⟩
  refine ⟨later, hlate.of_suffix ?_, hbehind⟩
  rw [slowPayments_log.1]
  exact List.suffix_append _ _

/-- The last caller ended with the receipt of the slow one. -/
theorem slowPayments_ended : ∃ later,
    EndedWith slowPayments 2 20 (.ok (.replayed slowReceipt.toResponse)) ∧
      Tells slowPayments.log ⟨20, some 2, .ended⟩ later ∧ paidLog <:+ later := by
  rcases slowPayments_log with ⟨hlog, task, htask, hwait⟩
  let later : Log := entriesOf 20 (some 2) (.emitted (.cacheHit orderKey.text) ::
    lookedUp orderKey (shownAt 20) (.value (some slowReceipt.render)) [.resumed]) ++ paidTwiceLog
  have hended : slowPayments.log = ⟨20, some 2, .ended⟩ :: later := hlog
  have htold : Tells slowPayments.log ⟨20, some 2, .ended⟩ later := hended ▸ Tells.last _ _
  refine ⟨later, ⟨⟨later, htold, ?_⟩, task, 20, htask, hwait⟩, htold,
    (List.suffix_append _ _).trans (List.suffix_append _ _)⟩
  rw [hended, own_cons_self]

/-- What the slow caller did is another response than the next one's. -/
theorem slowReceipt_other :
    ¬ IsReplayOf (.ofStatus 202) (.ok (.replayed slowReceipt.toResponse)) := by
  rintro ⟨replay, heq, hstatus, _⟩
  cases heq
  revert hstatus
  decide

/-- The record that was replaced was valid and no longer stood: whoever came then got
another response. -/
theorem slowPayment_writes_over : ∃ past,
    Records slowPayers slowPayments.log 1 orderKey nextPayer (.ofStatus 202) (shownAt 10) [] ∧
      Tells slowPayments.log nextSet past ∧
      (∃ later, Tells slowPayments.log lateSet later ∧ Tells later nextSet past) ∧
      (∃ later, Tells slowPayments.log ⟨20, some 2, .ended⟩ later ∧ Tells later nextSet past) ∧
      EndedWith slowPayments 2 20 (.ok (.replayed slowReceipt.toResponse)) ∧
      ShowsBefore (.start .epoch none) 20 ((shownAt 10).addSaturating nextPayer.config.cacheTtl) ∧
      ¬ IsReplayOf (.ofStatus 202) (.ok (.replayed slowReceipt.toResponse)) := by
  rcases slowPayments_set with ⟨past, hset, _⟩
  rcases slowPayments_replaces with ⟨later, hlate, hbehind⟩
  rcases slowPayments_ended with ⟨later', hended, htold, hbehind'⟩
  exact ⟨past, slowPayments_records, (hset.of_suffix hbehind).of_suffix hlate.suffix,
    ⟨later, hlate, hset.of_suffix hbehind⟩, ⟨later', htold, hset.of_suffix hbehind'⟩, hended,
    receipts_shown.1, slowReceipt_other⟩

/-- The receipt of the next caller was not authoritative, as it was written over, and
the lock of the one that did so had expired. -/
theorem slowPayment_was_late : ∃ past, Tells slowPayments.log nextSet past ∧
    ¬ IsAuthoritative (.start .epoch none) slowPayers slowPayments orderKey
      ((shownAt 10).addSaturating nextPayer.config.cacheTtl) (.ofStatus 202) nextSet past ∧
    ((∃ expiresAt, TookLock past 0 orderKey expiresAt ∧ expiresAt ≤ 20) ∨
      ∃ expiresAt, TookLock past 1 orderKey expiresAt ∧ expiresAt ≤ 10) := by
  rcases slowPayments_set with ⟨past, hset, htook⟩
  rcases slowPayments_replaces with ⟨later, hlate, hbehind⟩
  have hproper : (Http.Response.ofStatus 202).headers.Proper :=
    ⟨List.nodup_nil, nofun, nofun, nofun⟩
  have hnext := (hset.of_suffix hbehind).of_suffix hlate.suffix
  have hover : WritesOver (.start .epoch none) slowPayments.log orderKey
      ((shownAt 10).addSaturating nextPayer.config.cacheTtl) nextSet past 0 20 :=
    ⟨⟨_, _, _, later, hlate, hset.of_suffix hbehind⟩, receipts_shown.1, 10, htook⟩
  have hexact := authoritative_iff_not_written_over (rfl : slowPayments = _) (by decide) rfl
    slowPayers_closed (by simp [Happening.SetsNoClock]) faultless_isPrompt slowPayments_records
    hproper hnext
  exact ⟨past, hnext, fun hauthoritative => hexact.1.1 hauthoritative ⟨0, 20, hover⟩,
    hexact.2 0 20 hover⟩

end Turnstile.Once

import Turnstile.Proofs.Once.Records
import Turnstile.Proofs.Run.Together

/-!
# Records that stand

Where the clocks move together, a record that was set is found by whoever looks it
up while it is valid, unless another was set in its place.

Where every holder of a lock finishes before the lock expires, nobody sets another
unless another run begins, and no other run begins while the record is valid unless
the record was lost.

Main results:

- Theorem `Recorded.found`: a record that stands is found while it is valid.
- Theorem `Recording.began_after`: whoever sets another record began its run later.
- Theorem `Recording.lost_of_run`: if another run begins while the record would be
  valid, then it was lost.
- Theorem `Recording.found_eq`: what is found while the record is valid is the
  record.
-/

namespace Turnstile.Once

open Run
open Store (Answer Call Token ValueEntry valueUnder)

/-! ## Looking up later -/

/-- A value that holds no valid record holds none later either. -/
theorem recordOf_at_none_mono {t t' : Nat} {now now' : Timestamp} {entry : ValueEntry}
    (hle : t' ≤ t) (hnow : now'.le now = true)
    (h : recordOf now' (.value (entry.at t')) = .ok none) :
    recordOf now (.value (entry.at t)) = .ok none := by
  unfold ValueEntry.at at h ⊢
  by_cases hlive : t < entry.expiresAt
  · rw [if_pos hlive]
    rw [if_pos (by omega)] at h
    unfold recordOf at h ⊢
    dsimp only at h ⊢
    cases hread : Record.ofStored? entry.value with
    | none => simp [hread] at h
    | some stored =>
        simp only [hread, Except.ok.injEq] at h ⊢
        by_cases hexpired : stored.isExpired now' = true
        · rw [if_pos (show stored.isExpired now = true from Timestamp.le_trans hexpired hnow)]
        · rw [if_neg hexpired] at h
          exact nomatch h
  · rw [if_neg hlive]
    rfl

section

variable {clocks : Clocks} {callers : List Caller} {log start : Log} {i time : Nat}
  {key : OperationKey} {c : Caller} {response : Http.Response} {captured : Timestamp}
  {bytes : Bytes} {request : Http.Request}

/-- A record that was captured can be stored while it is valid. -/
theorem storable_recordBy (hwall : Timestamp.earliest.le clocks.wall = true)
    (hkept : captured? c.config response = some bytes) {t t' : Nat} (hsince : clocks.mono ≤ t)
    (hle : t ≤ t')
    (hvalid : ShowsBefore clocks t' ((clocks.wallAt t).addSaturating c.config.cacheTtl)) :
    (recordBy c response (clocks.wallAt t) bytes).Storable := by
  have hwritable := hvalid.writable hwall hsince hle
  have hsuccess := (captured?_eq_some hkept).1
  simp only [Http.isSuccess, Bool.and_eq_true, decide_eq_true_eq] at hsuccess
  exact ⟨Nat.lt_trans hsuccess.2 (by decide), hwritable.1, hwritable.2⟩

/-- What is true of a run in which clocks move together and a response is to be
recorded. -/
structure Recorded (clocks : Clocks) (callers : List Caller) (log : Log) (i : Nat)
    (key : OperationKey) (c : Caller) (response : Http.Response) (captured : Timestamp)
    (bytes : Bytes) : Prop where
  account : Account callers log
  clocks : MoveTogether clocks log
  records : Records callers log i key c response captured bytes

/-- In a run in which nobody sets a clock, clocks move together. -/
theorem recorded_of_run {plan : Plan} {happenings : List Happening} {run : Chronicle Result}
    (hrun : run = Chronicle.of (begin clocks plan callers) happenings)
    (hwall : Timestamp.earliest.le clocks.wall = true) (hmanual : clocks.manual = none)
    (hclosed : ∀ c ∈ callers, c.config.failurePolicy = .failClosed)
    (hclocks : ∀ e ∈ happenings, e.SetsNoClock)
    (hrecords : Records callers run.log i key c response captured bytes) :
    Recorded clocks callers run.log i key c response captured bytes := by
  subst hrun
  exact ⟨account hclosed happenings, moveTogether_of_run (begin clocks plan callers) hwall hmanual hclocks, hrecords⟩

namespace Recorded

variable (h : Recorded clocks callers log i key c response captured bytes)

include h

theorem keyOf_eq : keyOf callers i = some key := h.records.keyOf_eq

/-- A record that was set is what stands under its key, as long as nobody sets
another. -/
theorem valueUnder_eq {past older : Log} {t : Nat} {k : String} {value : Bytes} {ttl : Span}
    {answer : Answer} (hs : past <:+ log)
    (hset : Tells past ⟨t, some i, .done (.set k value ttl) answer⟩ older)
    (hlast : ∀ t' x value' ttl' answer' later,
      Tells past ⟨t', some x, .done (.set key.text value' ttl') answer'⟩ later →
      ¬ Tells later ⟨t, some i, .done (.set k value ttl) answer⟩ older) :
    valueUnder key.text (deeds past) =
      some ⟨(recordBy c response captured bytes).render, t + c.config.cacheTtl.nanos⟩ := by
  have hpast := h.account.of_suffix hs
  rcases h.records.written h.account (hset.of_suffix hs) with ⟨_, rfl, rfl, rfl⟩
  apply Store.valueUnder_of_set hset.deed
  intro d' past' hd' hafter hwrites
  rcases set_of_writes hpast hd' hwrites with ⟨t', x, value', ttl', answer', later, hlater, rfl, rfl⟩
  exact hlast t' x value' ttl' answer' later hlater (tells_of_deeds hset hlater hafter)

/-- The response was captured when the wall clock showed as much. -/
theorem captured_at {past : Log} (hs : past <:+ log)
    (hrec : Records callers past i key c response captured bytes) :
    ∃ t older, Tells past ⟨t, some i, .read captured⟩ older ∧ clocks.mono ≤ t ∧
      captured = clocks.wallAt t := by
  have hpast := h.clocks.of_suffix hs
  rcases hrec.noted with ⟨newer, _, _, _, _, hown⟩
  rcases exists_of_own _ hown with ⟨t, older, hread, _⟩
  exact ⟨t, older, hread, hpast.since _ hread.mem, hpast.reads _ hread.mem captured rfl⟩

/-- A record that stands is found while it is valid. -/
theorem found {past older behind : Log} {t got read : Nat} {k : String} {value : Bytes}
    {ttl : Span} {answer : Answer} {now : Timestamp} {who : Option Nat} {found : Answer}
    (hs : past <:+ log)
    (hset : Tells past ⟨t, some i, .done (.set k value ttl) answer⟩ older)
    (hentry : valueUnder key.text (deeds past) =
      some ⟨(recordBy c response captured bytes).render, t + c.config.cacheTtl.nanos⟩)
    (hgot : Tells log ⟨got, who, .done (.get key.text) found⟩ past)
    (hread : Tells past ⟨read, who, .read now⟩ behind)
    (hvalid : ShowsBefore clocks got (captured.addSaturating c.config.cacheTtl)) :
    recordOf now found = .ok (some (recordBy c response captured bytes)) := by
  have hpast := h.account.of_suffix hs
  rcases h.records.written h.account (hset.of_suffix hs) with ⟨hrec, _⟩
  rcases h.captured_at ((hset.of_suffix hs).suffix) hrec with ⟨tc, _, hcaptured, hsince, hnow⟩
  have hcapturedBefore := Tells.time_le hpast.sorted hset hcaptured
  have hsetBefore := Tells.time_le h.account.sorted hgot hset
  have hreadBefore := Tells.time_le h.account.sorted hgot hread
  simp only at hcapturedBefore hsetBefore hreadBefore
  rw [hnow] at hvalid
  have hlive := hvalid.lt
  have hstorable : (recordBy c response captured bytes).Storable := by
    rw [hnow]
    exact storable_recordBy h.clocks.start h.records.kept hsince (by omega) hvalid
  have hunexpired : (recordBy c response captured bytes).isExpired now = false := by
    rw [(h.clocks.of_suffix hs).reads _ hread.mem now rfl]
    have hearlier : ShowsBefore clocks read (captured.addSaturating c.config.cacheTtl) := by
      rw [hnow]
      exact hvalid.mono hreadBefore
    exact hearlier
  rcases h.account.ran with ⟨store, later, hran⟩
  have hfound := hran.get_answer hgot.deed
  rw [hentry, Option.bind_some, ValueEntry.at, if_pos (by dsimp only; omega)] at hfound
  rw [hfound, recordOf, Record.ofStored?_render hstorable]
  simp [hunexpired]

end Recorded

/-! ## Where holders finish -/

/-- What is also true where every holder of a lock finishes: the run that is to be
recorded began at the given moment. -/
structure Recording (clocks : Clocks) (callers : List Caller) (log : Log) (i : Nat)
    (key : OperationKey) (c : Caller) (response : Http.Response) (captured : Timestamp)
    (bytes : Bytes) (time : Nat) (request : Http.Request) (start : Log) : Prop
    extends Recorded clocks callers log i key c response captured bytes where
  finish : HoldersFinish callers log
  began : Tells log ⟨time, some i, .began request⟩ start

namespace Recording

variable (h : Recording clocks callers log i key c response captured bytes time request start)

include h

/-- The run began before its record was written. -/
theorem began_before {past : Log} (hs : past <:+ log)
    (hrec : Records callers past i key c response captured bytes) :
    Tells past ⟨time, some i, .began request⟩ start := by
  rcases hrec.began with ⟨t, request', older, hbegan⟩
  rcases h.began.order (hbegan.of_suffix hs) with ⟨heq, hpast⟩ | hbehind | hbehind
  · rw [heq, hpast]
    exact hbegan
  · exact (began_once h.account h.keyOf_eq h.began hbehind).elim
  · exact (began_once h.account h.keyOf_eq (hbegan.of_suffix hs) hbehind).elim

/-- The look-up and the lock under which the run began. -/
theorem took_lock : ∃ a ttl token older read now earlier got answer before,
    Tells start ⟨got, some i, .done (.get key.text) answer⟩ before ∧
    Tells before ⟨read, some i, .read now⟩ earlier ∧
    Tells earlier ⟨a, some i, .done (.acquireLock key.lock ttl) (.token (some token))⟩ older ∧
    recordOf now answer = .ok none :=
  exists_of_began h.account h.keyOf_eq h.began

/-- Whoever sets another record after the lock of this run was taken began its run
after this one. -/
theorem began_after {x t a : Nat} {value : Bytes} {ttl ttl' : Span} {answer : Answer}
    {token : Token} {later older : Log} (hx : x ≠ i)
    (hset : Tells log ⟨t, some x, .done (.set key.text value ttl) answer⟩ later)
    (htook : Tells later ⟨a, some i, .done (.acquireLock key.lock ttl') (.token (some token))⟩
      older) :
    ∃ t' request' behind, keyOf callers x = some key ∧
      Tells later ⟨t', some x, .began request'⟩ behind ∧
      Tells behind ⟨time, some i, .began request⟩ start := by
  rcases record_of_set h.account hset with ⟨c', response', captured', bytes', hrec, _⟩
  rcases hrec.began with ⟨t', request', behind, hbegan⟩
  rcases exists_of_began h.account hrec.keyOf_eq (hset.trans hbegan) with
    ⟨a', _, _, older', _, _, earlier, _, _, before, hgot, hread, htook', _⟩
  have htookX := hbegan.trans ((hgot.trans hread).trans htook')
  rcases htook.order htookX with ⟨heq', _⟩ | hbehind | hbehind
  · simp only [Entry.mk.injEq, Option.some.injEq] at heq'
    exact absurd heq'.2.1.symm hx
  · -- The other took the lock first: its record was settled before this lock was taken.
    rcases settled_before_taken h.account h.finish (hrec.of_suffix hset.suffix)
      (hset.trans htook) hbehind with ⟨_, _, _, _, hsettled⟩
    rcases exists_tells_of_mem hsettled with ⟨_, _, hsettledTold⟩
    have hsettledNow := htook.trans hsettledTold
    have hwritten : Tells log ⟨t, some x, outcome (.set key.text value ttl) (some answer)⟩ later :=
      hset
    rw [(outcome_once h.account hwritten (hset.trans hsettledNow)).2] at hsettledNow
    exact absurd hsettledNow Tells.irrefl
  · refine ⟨t', request', behind, hrec.keyOf_eq, hbegan, ?_⟩
    rcases h.began.order (hset.trans htookX) with ⟨heq', _⟩ | hfirst | hfirst
    · simp at heq'
    · exact (not_taken_before_run h.account h.finish h.keyOf_eq h.began hfirst hbehind).elim
    · exact ((hgot.trans hread).trans htook').trans hfirst

/-- From the write on, the record is what stands under its key, as long as no
other run begins. -/
theorem valueUnder_of_no_run {past older : Log} {t : Nat} {k : String} {value : Bytes} {ttl : Span}
    {answer : Answer} (hs : past <:+ log)
    (hset : Tells past ⟨t, some i, .done (.set k value ttl) answer⟩ older)
    (hnone : ∀ j t' request' behind, keyOf callers j = some key →
      Tells past ⟨t', some j, .began request'⟩ behind →
      ¬ Tells behind ⟨time, some i, .began request⟩ start) :
    valueUnder key.text (deeds past) =
      some ⟨(recordBy c response captured bytes).render, t + c.config.cacheTtl.nanos⟩ := by
  apply h.valueUnder_eq hs hset
  intro t' x value' ttl' answer' later hlater hbehind
  have hlaterNow := hlater.of_suffix hs
  by_cases hx : x = i
  · subst hx
    rw [(written_once h.account hlaterNow (hset.of_suffix hs)).2] at hbehind
    exact Tells.irrefl hbehind
  · rcases h.records.written h.account (hset.of_suffix hs) with ⟨hrec, _⟩
    have hbegan := h.began_before ((hset.of_suffix hs).suffix) hrec
    rcases h.took_lock with ⟨_, _, _, _, _, _, _, _, _, _, hgot, hread, htook, _⟩
    have hlock := (hbehind.trans hbegan).trans ((hgot.trans hread).trans htook)
    rcases h.began_after hx hlaterNow hlock with ⟨t'', request'', behind, hkeyOf, hother, hafter⟩
    exact hnone x t'' request'' behind hkeyOf (hlater.trans hother) hafter

/-- If another run begins while the record would be valid, then it was lost. -/
theorem lost_of_run {j t : Nat} {request' : Http.Request} {past : Log}
    (hj : keyOf callers j = some key) (hbegan : Tells log ⟨t, some j, .began request'⟩ past)
    (hafter : Tells past ⟨time, some i, .began request⟩ start)
    (hvalid : ShowsBefore clocks t (captured.addSaturating c.config.cacheTtl)) :
    ∃ k value ttl, .lost (.set k value ttl) ∈ own i past := by
  -- The first run that begins while the record is valid would find the record.
  induction hn : past.length using Nat.strongRecOn generalizing j t request' past with
  | ind n ih =>
      by_cases hji : j = i
      · subst hji
        exact (began_once h.account hj hbegan hafter).elim
      rcases exists_of_began h.account hj hbegan with
        ⟨a', _, _, older', read, now, earlier, got, answer, before, hgot, hread, htook', hnothing⟩
      rcases h.took_lock with ⟨a, ttl, token, older, _, _, _, _, _, _, hgotI, hreadI, htookI, _⟩
      have htook := (hgotI.trans hreadI).trans htookI
      have htookJ := (hgot.trans hread).trans htook'
      rcases htookJ.order (hafter.trans htook) with ⟨heq, _⟩ | hbehind | hbehind
      · simp only [Entry.mk.injEq, Option.some.injEq] at heq
        exact absurd heq.2.1 hji
      · -- The lock was taken after this run: the record was settled before that.
        rcases settled_before_taken h.account h.finish h.records (hbegan.trans htookJ)
          hbehind with ⟨k, value, ttl', settled, hsettled⟩
        rcases exists_tells_of_mem hsettled with ⟨t', written, hoccurs⟩
        have hoccursBefore := (hread.trans htook').trans hoccurs
        cases settled with
        | none =>
            have hown' := (hgot.trans hoccursBefore).own
            exact ⟨k, value, ttl', List.IsSuffix.mem List.mem_cons_self hown'⟩
        | some answer' =>
            have hset : Tells before ⟨t', some i, .done (.set k value ttl') answer'⟩ written :=
              hoccursBefore
            have hs := (hbegan.trans hgot).suffix
            have hgotBefore := Tells.time_le h.account.sorted hbegan hgot
            apply Classical.byContradiction
            intro hkept
            have hentry := h.valueUnder_of_no_run hs hset (by
              intro m t'' request'' behind hm hbeganM hafterM
              have hbeganM' := hgot.trans hbeganM
              have hshorter := List.IsSuffix.length_le hbeganM'
              simp only [List.length_cons] at hshorter
              have hearlier := Tells.time_le h.account.sorted hbegan hbeganM'
              rcases ih behind.length (by omega) hm (hbegan.trans hbeganM') hafterM
                (hvalid.mono hearlier) rfl with ⟨k', value', ttl'', hlost⟩
              exact hkept ⟨k', value', ttl'',
                List.IsSuffix.mem hlost (own_suffix i hbeganM'.suffix)⟩)
            have hfound := h.found hs hset hentry (hbegan.trans hgot) hread
              (hvalid.mono hgotBefore)
            rw [hnothing] at hfound
            simp at hfound
      · exact (not_taken_before_run h.account h.finish hj hbegan (hafter.trans htook) hbehind).elim

/-- Where the same stands under the key as when the run looked up under its lock, whoever
looks up after the run began finds nothing either. -/
theorem nothing_found_of_same {who : Option Nat} {got read got' read' : Nat} {now now' : Timestamp}
    {found answer : Answer} {past behind before earlier : Log}
    (hgot : Tells log ⟨got, who, .done (.get key.text) found⟩ past)
    (hread : Tells past ⟨read, who, .read now⟩ behind)
    (hafter : Tells behind ⟨time, some i, .began request⟩ start)
    (hgot' : Tells start ⟨got', some i, .done (.get key.text) answer⟩ before)
    (hread' : Tells before ⟨read', some i, .read now'⟩ earlier)
    (hnothing : recordOf now' answer = .ok none)
    (hsame : valueUnder key.text (deeds past) = valueUnder key.text (deeds before)) :
    recordOf now found = .ok none := by
  have hbefore := (hread.trans hafter).trans hgot'
  rcases h.account.ran with ⟨store, later, hran⟩
  have hanswer := hran.get_answer hgot.deed
  have hanswer' := hran.get_answer (hgot.trans hbefore).deed
  rw [hsame] at hanswer
  cases hentry : valueUnder key.text (deeds before) with
  | none =>
      rw [hentry, Option.bind_none] at hanswer
      rw [hanswer]
      rfl
  | some entry =>
      rw [hentry, Option.bind_some] at hanswer hanswer'
      rw [hanswer'] at hnothing
      rw [hanswer]
      have hgotLe := Tells.time_le h.account.sorted hgot hbefore
      have hpast := h.account.of_suffix hgot.suffix
      have hnowLe := (h.clocks.of_suffix hgot.suffix).read_le hpast.sorted hread
        (hafter.trans (hgot'.trans hread'))
      exact recordOf_at_none_mono hgotLe hnowLe hnothing

/-- If the record was lost, whoever looks up after the run began finds nothing, as
long as no other run begins. -/
theorem nothing_found {k : String} {value : Bytes} {ttl : Span}
    (hlost : .lost (.set k value ttl) ∈ own i log) {who : Option Nat} {got read : Nat}
    {now : Timestamp} {found : Answer} {past behind : Log}
    (hgot : Tells log ⟨got, who, .done (.get key.text) found⟩ past)
    (hread : Tells past ⟨read, who, .read now⟩ behind)
    (hafter : Tells behind ⟨time, some i, .began request⟩ start)
    (hnone : ∀ j t' request' behind, keyOf callers j = some key →
      Tells past ⟨t', some j, .began request'⟩ behind →
      ¬ Tells behind ⟨time, some i, .began request⟩ start) :
    recordOf now found = .ok none := by
  rcases h.took_lock with
    ⟨a, ttl', token, older, read', now', earlier, got', answer', before, hgot', hread', htook,
      hnothing⟩
  have hbefore := (hread.trans hafter).trans hgot'
  apply h.nothing_found_of_same hgot hread hafter hgot' hread' hnothing
  -- Nothing was set since this run looked for the second time and found nothing.
  apply Store.valueUnder_of_suffix (deeds_suffix hbefore.suffix)
  intro d' past' hd' hsince hwrites
  rcases set_of_writes (h.account.of_suffix hgot.suffix) hd' hwrites with
    ⟨t', x, value', ttl'', answer, later, hset, rfl, rfl⟩
  have hsetNow := hgot.trans hset
  by_cases hx : x = i
  · subst hx
    rcases exists_tells_of_mem hlost with ⟨t'', past'', hlostTold⟩
    have hsetOutcome : Tells log
        ⟨t', some x, outcome (.set key.text value' ttl'') (some answer)⟩ later := hsetNow
    have hlostOutcome : Tells log ⟨t'', some x, outcome (.set k value ttl) none⟩ past'' :=
      hlostTold
    have hsameEntry := (outcome_once h.account hsetOutcome hlostOutcome).1
    simp [outcome] at hsameEntry
  · have hlock := tells_of_deeds (hbefore.trans (hread'.trans htook)) hset
      ((hread'.trans htook).deed.trans hsince)
    rcases h.began_after hx hsetNow hlock with ⟨t'', request'', behind', hkeyOf, hother, hfirst⟩
    exact hnone x t'' request'' behind' hkeyOf (hset.trans hother) hfirst

/-- Unless the record was lost, nobody else sets one while it is valid and after this run
took its lock. -/
theorem not_set_after_lock (hkept : ∀ k value ttl, .lost (.set k value ttl) ∉ own i log)
    {x t a : Nat} {value : Bytes} {ttl ttl' : Span} {answer : Answer} {token : Token}
    {later older : Log} (hx : x ≠ i)
    (hset : Tells log ⟨t, some x, .done (.set key.text value ttl) answer⟩ later)
    (htook : Tells later ⟨a, some i, .done (.acquireLock key.lock ttl') (.token (some token))⟩
      older) :
    ¬ ShowsBefore clocks t (captured.addSaturating c.config.cacheTtl) := by
  intro hvalid
  rcases h.began_after hx hset htook with ⟨t', request', behind, hkeyOf, hother, hfirst⟩
  have hbegan := hset.trans hother
  have hearlier := Tells.time_le h.account.sorted hset hother
  rcases h.lost_of_run hkeyOf hbegan hfirst (hvalid.mono hearlier) with ⟨k, value', ttl'', hlost⟩
  exact hkept k value' ttl'' (List.IsSuffix.mem hlost (own_suffix i hbegan.suffix))

/-- What is found while the record is valid, by a caller that came after the run
began, is the record, unless that was lost. -/
theorem found_eq (hkept : ∀ k value ttl, .lost (.set k value ttl) ∉ own i log) {who : Option Nat}
    {got read : Nat} {now : Timestamp} {found : Answer} {record : Record} {past behind : Log}
    (hgot : Tells log ⟨got, who, .done (.get key.text) found⟩ past)
    (hread : Tells past ⟨read, who, .read now⟩ behind)
    (hafter : Tells behind ⟨time, some i, .began request⟩ start)
    (hvalid : ShowsBefore clocks got (captured.addSaturating c.config.cacheTtl))
    (hfound : recordOf now found = .ok (some record)) :
    record = recordBy c response captured bytes := by
  have hs := hgot.suffix
  have hafterNow := hread.trans hafter
  rcases h.account.ran with ⟨store, later, hran⟩
  have hanswer := hran.get_answer hgot.deed
  cases hentry : valueUnder key.text (deeds past) with
  | none =>
      rw [hentry, Option.bind_none] at hanswer
      rw [hanswer] at hfound
      simp [recordOf] at hfound
  | some entry =>
      rcases Store.exists_of_valueUnder hentry with ⟨t, ttl, answer, written, hset, hexpires, hlast⟩
      rcases exists_of_deed hset with ⟨who', older, htold, rfl⟩
      rcases written_of_set (h.account.of_suffix hs) htold with
        ⟨x, key', c', response', captured', bytes', rfl, hrec', _, hkey', httl, hvalue⟩
      have hsame := OperationKey.eq_of_text hkey'
      subst hsame
      by_cases hx : x = i
      · subst hx
        rcases h.records.unique (hrec'.of_suffix (htold.suffix.trans hs)) with
          ⟨_, rfl, rfl, rfl, rfl⟩
        have hentry' : valueUnder key.text (deeds past) =
            some ⟨(recordBy c response captured bytes).render, t + c.config.cacheTtl.nanos⟩ := by
          rw [hentry, ← hvalue, ← httl, ← hexpires]
        have hthis := h.found hs htold hentry' hgot hread hvalid
        rw [hthis] at hfound
        simpa using hfound.symm
      · exfalso
        rcases h.took_lock with
          ⟨a, ttl', token, oldest, read', now', earlier, got', answer', before, hgot', hread', htook,
            hnothing⟩
        have hlock := hafterNow.trans ((hgot'.trans hread').trans htook)
        rcases htold.order hlock with ⟨heq, _⟩ | hbefore | hbefore
        · simp at heq
        · exact h.not_set_after_lock hkept hx (hgot.trans htold) hbefore
            (hvalid.mono (Tells.time_le h.account.sorted hgot htold))
        · -- What was written before this run took its lock, this run would have found.
          have hsetBefore := (hread'.trans htook).trans hbefore
          have hgotBefore := hafterNow.trans hgot'
          have hentry' : valueUnder key.text (deeds before) = some entry := by
            rw [Store.valueUnder_of_set hsetBefore.deed, ← hexpires]
            intro d' past' hd' hsince
            exact hlast d' past' (hd'.trans (deeds_suffix hgotBefore.suffix)) hsince
          have hnone := h.nothing_found_of_same hgot hread hafter hgot' hread' hnothing
            (hentry.trans hentry'.symm)
          rw [hnone] at hfound
          simp at hfound

end Recording

end

end Turnstile.Once

import Turnstile.Proofs.Once.AtMostOnce
import Turnstile.Proofs.Once.Lookup

/-!
# Where replays come from

Callers share a store with neighbours that may do anything with it but set a value
under the key of an operation.  Then every replay is the response that a handler
gave in a run under the lock of the key: a success with a complete body that is
short enough, whose record was set before, was kept by the store until it was
found, and was valid at the instant of the look-up.

Nothing else is asked of the run: the store may fail or answer late, callers may be
cancelled, holders may be slow, clocks may jump, and callers may go on without the
store.

Main results:

- Theorem `Caller.keeps_policy`: a caller keeps the rules of its policy.
- Theorem `captures_of_set`: under the key of an operation only records are set.
- Theorem `replayed_from_source`: every replay has a source.
-/

namespace Turnstile.Once

open Run
open Store (Answer Call)

/-! ## Who shares the store -/

/-- How the text of every key of an operation begins. -/
def keyPrefix : String := "idempotency:"

/-- A call sets no value under a key of an operation. -/
def SetsNoRecord : Call → Prop
  | .set k _ _ => ∀ digest, k ≠ keyPrefix ++ digest
  | _ => True

/-- Somebody who shares the store with callers, and sets no records. -/
structure Neighbour where
  program : Program Result
  handler : Handler
  /-- When the neighbour starts, by the monotonic clock. -/
  time : Nat
  /-- When the neighbour is cancelled, if it has not ended by then. -/
  cancelAt : Option Nat
  setsNoRecord : Makes SetsNoRecord SetsNoRecord program

/-- The neighbour as a party that sets no records. -/
def Neighbour.party (n : Neighbour) : Party Result :=
  ⟨n.program, n.handler, n.time, n.cancelAt, .onlyCalls SetsNoRecord SetsNoRecord fun _ _ => True⟩

namespace Caller

/-- The rules of a caller under its policy. -/
def policyRules (c : Caller) : Pact Result :=
  match c.key? with
  | some key => Once.policyRules c.config key
  | none => freeRules

/-- The caller as a party that keeps the rules of its policy. -/
def policyParty (c : Caller) : Party Result :=
  ⟨c.program, c.handler, c.time, c.cancelAt, c.policyRules⟩

/-- A caller keeps the rules of its policy. -/
theorem keeps_policy (c : Caller) : KeepsFromStart c.handler c.policyRules c.program := by
  unfold policyRules
  cases hkey : c.key? with
  | none => exact free_keeps hkey
  | some key =>
      rw [program_of_key hkey]
      exact guarded_keeps_policy c.http

/-- The text of a key is the prefix and a digest. -/
theorem exists_of_key {c : Caller} {key : OperationKey} (h : c.key? = some key) :
    ∃ digest, key.text = keyPrefix ++ digest := by
  unfold key? at h
  cases htoken : c.request.token with
  | none =>
      rw [htoken] at h
      exact nomatch h
  | some token =>
      rw [htoken] at h
      dsimp only at h
      split at h
      · rw [← Option.some.inj h]
        exact ⟨_, rfl⟩
      · exact nomatch h

end Caller

/-- A run of callers, and of neighbours behind them, over one store without
entries. -/
def beginAmong (clocks : Clocks) (plan : Plan) (callers : List Caller)
    (neighbours : List Neighbour) : State Result :=
  ⟨.start clocks plan, callers.map Caller.task ++ neighbours.map fun n => n.party.task, []⟩

/-- The callers and neighbours as parties. -/
def parties (callers : List Caller) (neighbours : List Neighbour) : List (Party Result) :=
  callers.map Caller.policyParty ++ neighbours.map Neighbour.party

/-- Everybody begins with a program of its own. -/
theorem begins_among (clocks : Clocks) (plan : Plan) (callers : List Caller)
    (neighbours : List Neighbour) :
    Begins (parties callers neighbours) (beginAmong clocks plan callers neighbours) := by
  refine ⟨?_, rfl, rfl⟩
  unfold parties beginAmong
  rw [List.map_append, List.map_map, List.map_map]
  rfl

section

variable {callers : List Caller} {neighbours : List Neighbour} {log past : Log}

/-- Everybody keeps its rules. -/
theorem keep_among : ∀ p ∈ parties callers neighbours, p.Keeps := by
  intro p hp
  rcases List.mem_append.1 hp with hp | hp
  · rcases List.mem_map.1 hp with ⟨c, _, rfl⟩
    exact c.keeps_policy
  · rcases List.mem_map.1 hp with ⟨n, _, rfl⟩
    exact n.setsNoRecord.keepsFromStart

/-- Whoever takes part is the caller in its place, or a neighbour. -/
theorem caller_or_neighbour {i : Nat} {p : Party Result}
    (hp : (parties callers neighbours)[i]? = some p) :
    (∃ c, callers[i]? = some c ∧ p = c.policyParty) ∨ ∃ n ∈ neighbours, p = n.party := by
  unfold parties at hp
  rw [List.getElem?_append] at hp
  split at hp
  · rw [List.getElem?_map] at hp
    rcases Option.map_eq_some_iff.1 hp with ⟨c, hc, rfl⟩
    exact Or.inl ⟨c, hc, rfl⟩
  · rw [List.getElem?_map] at hp
    rcases Option.map_eq_some_iff.1 hp with ⟨n, hn, rfl⟩
    exact Or.inr ⟨n, List.mem_of_getElem? hn, rfl⟩

/-- The callers stand before their neighbours. -/
theorem getElem?_parties {i : Nat} {c : Caller} (hc : callers[i]? = some c) :
    (parties callers neighbours)[i]? = some c.policyParty := by
  have hlt := (List.getElem?_eq_some_iff.1 hc).1
  unfold parties
  rw [List.getElem?_append_left (by simpa using hlt), List.getElem?_map, hc]
  rfl

/-! ## What is set -/

/-- Under the key of an operation only records of runs under its lock are set. -/
theorem captures_of_set (h : Run.Account (parties callers neighbours) log) {key : OperationKey}
    (hkey : ∃ digest, key.text = keyPrefix ++ digest) {t : Nat} {who : Option Nat} {value : Bytes}
    {ttl : Span} {answer : Answer}
    (htold : Tells log ⟨t, who, .done (.set key.text value ttl) answer⟩ past) :
    ∃ x c response captured bytes, who = some x ∧
      Records callers past x key c response captured bytes ∧ ttl = c.config.cacheTtl ∧
      value = (recordBy c response captured bytes).render := by
  rcases hkey with ⟨digest, hdigest⟩
  rcases h.origin htold with ⟨x, p, older, rfl, hp, hown, hmay⟩ | ⟨t', i, behind, hquit⟩
  · rcases caller_or_neighbour hp with ⟨c, hc, rfl⟩ | ⟨n, _, rfl⟩
    · have hrules : c.policyRules.may older (.sent (.set key.text value ttl)) := hmay
      unfold Caller.policyRules at hrules
      cases hown' : c.key? with
      | none =>
          rw [hown'] at hrules
          exact hrules.elim
      | some key' =>
          rw [hown'] at hrules
          rcases hrules with ⟨hk, httl, hcaptures⟩ | ⟨_, request, hbegan⟩
          · have hsame : key = key' := by
              cases key
              cases key'
              exact congrArg OperationKey.mk hk
            subst hsame
            rcases hcaptures with
              ⟨token, request, response, now, bytes, earlier, hcleared, rfl, hkept, rfl⟩
            exact ⟨x, c, response, now, bytes, rfl,
              ⟨hc, hown', hkept, [_], request, token, earlier, hcleared, hown⟩, httl, rfl⟩
          · exact nomatch hbegan
    · exact absurd hdigest (hmay digest)
  · -- What is left behind is the release of a lock, or no record.
    rcases (h.of_suffix htold.suffix).held_of_quit hquit with ⟨p, older, hp, _, hmay⟩
    rcases caller_or_neighbour hp with ⟨c, _, rfl⟩ | ⟨n, _, rfl⟩
    · have hrules : c.policyRules.may older (.held (.set key.text value ttl)) := hmay
      unfold Caller.policyRules at hrules
      cases hown' : c.key? with
      | none =>
          rw [hown'] at hrules
          exact hrules.elim
      | some key' =>
          rw [hown'] at hrules
          rcases hrules with ⟨token, hcall, _⟩ | ⟨_, request, hbegan⟩
          · exact nomatch hcall
          · exact nomatch hbegan
    · exact absurd hdigest (hmay digest)

/-- The response of a run was given by the handler. -/
theorem gives_of_records (h : Run.Account (parties callers neighbours) log) {i : Nat}
    {key : OperationKey} {c : Caller} {response : Http.Response} {captured : Timestamp}
    {bytes : Bytes} (hrec : Records callers log i key c response captured bytes) :
    c.handler.Gives (some response) := by
  rcases hrec.cleared with ⟨request, token, older, _, hfinished⟩
  rcases h.answers hfinished with ⟨p, hp, _, hgives⟩
  rw [getElem?_parties hrec.caller, Option.some.injEq] at hp
  rw [← hp] at hgives
  exact hgives response rfl

end

/-! ## Sources -/

/-- A run of a handler whose response was recorded. -/
structure Source where
  /-- The place of the caller that ran the handler. -/
  index : Nat
  caller : Caller
  response : Http.Response
  /-- When the response was captured, by the wall clock. -/
  captured : Timestamp
  bytes : Bytes

namespace Source

/-- How long the record of the run is kept. -/
def ttl (r : Source) : Span := r.caller.config.cacheTtl

/-- The record of the run as it is set. -/
def stored (r : Source) : Bytes :=
  (recordBy r.caller r.response r.captured r.bytes).render

/-- The response was a success with a complete body that is short enough. -/
structure Succeeded (r : Source) : Prop where
  status : Http.isSuccess r.response.status = true
  body : r.response.body.delivered = (r.bytes, none)
  length : r.bytes.length ≤ r.caller.config.maxBodyBytes

/-- The record of a run under the lock of the key was set at a time. -/
def SetAt (r : Source) (callers : List Caller) (key : OperationKey) (log : Log) (time : Nat) :
    Prop :=
  ∃ past answer,
    Tells log ⟨time, some r.index, .done (.set key.text r.stored r.ttl) answer⟩ past ∧
    Records callers past r.index key r.caller r.response r.captured r.bytes

/-- The record is read back as one that is valid at an instant.  It has the end
that was captured, unless the clock showed an instant before the earliest one. -/
structure ValidAt (r : Source) (record : Record) (now : Timestamp) : Prop where
  read : Record.ofStored? r.stored = some record
  valid : record.expiresAt.le now = false
  expires : Timestamp.earliest.le r.captured = true →
    record.expiresAt = r.captured.addSaturating r.ttl

section

variable {r : Source} {record : Record}

/-- What is captured is a success with a complete body that is short enough. -/
theorem succeeded (h : captured? r.caller.config r.response = some r.bytes) : r.Succeeded :=
  ⟨(captured?_eq_some h).1, (captured?_eq_some h).2, captured?_length h⟩

/-- The status of a success fits what can be read back. -/
theorem Succeeded.status_lt (h : r.Succeeded) : r.response.status < 65536 := by
  have hsuccess := h.status
  unfold Http.isSuccess at hsuccess
  simp only [Bool.and_eq_true, decide_eq_true_eq] at hsuccess
  omega

/-- A record that is read back has the end that was captured, and replays the
response. -/
theorem Succeeded.readBack (h : r.Succeeded) (hread : Record.ofStored? r.stored = some record) :
    (Timestamp.earliest.le r.captured = true →
      record.expiresAt = r.captured.addSaturating r.ttl) ∧
    record.toResponse = (recordBy r.caller r.response r.captured r.bytes).toResponse := by
  rcases Record.exists_of_ofStored?_render h.status_lt hread with
    ⟨created, expires, _, hexpires, rfl⟩
  refine ⟨fun hearliest => ?_, rfl⟩
  have hwritable := Timestamp.writable_addSaturating_of_le hearliest r.ttl
  have hshown := Rfc3339.read?_render hwritable
  exact Option.some.inj (hexpires.symm.trans hshown)

end

end Source

/-- Every replay has a source: the response of a run of a handler under the lock of
the key, a success with a complete body that is short enough, whose record was
found before the store forgot it and at an instant at which it was valid. -/
theorem replayed_from_source {clocks : Clocks} {plan : Plan} {callers : List Caller}
    {neighbours : List Neighbour} {happenings : List Happening} {run : Chronicle Result}
    (hrun : run = Chronicle.of (beginAmong clocks plan callers neighbours) happenings)
    (hproper : ∀ c ∈ callers, ∀ response, c.handler.Gives (some response) →
      response.headers.Proper)
    {j t : Nat} {c : Caller} {replay : Http.Response} (hj : callers[j]? = some c)
    (hended : EndedWith run j t (.ok (.replayed replay))) :
    ∃ (key : OperationKey) (source : Source) (got set : Nat) (now : Timestamp) (record : Record)
      (before : Log) (older : List Note), c.key? = some key ∧
      Tells run.log ⟨got, some j, .done (.get key.text) (.value (some source.stored))⟩ before ∧
      own j before = .sent (.get key.text) :: .read now :: older ∧
      source.SetAt callers key before set ∧ got < set + source.ttl.nanos ∧
      source.ValidAt record now ∧ source.Succeeded ∧
      replay = record.toResponse ∧ IsReplayOf source.response (.ok (.replayed replay)) := by
  subst hrun
  have haccount := Run.account (begins_among clocks plan callers neighbours) keep_among happenings
  rcases hended with ⟨⟨past, htold, hown⟩, task, moment, htask, hwait⟩
  rcases ends_of_conduct (begins_among clocks plan callers neighbours) keep_among
    (getElem?_parties hj) htask hwait with ⟨notes, hnotes, hends⟩
  rw [hown, List.cons.injEq] at hnotes
  rw [← hnotes.2] at hends
  have hrules : c.policyRules.ends (own j past) (.ok (.replayed replay)) := hends
  unfold Caller.policyRules at hrules
  cases hkey : c.key? with
  | none =>
      rw [hkey] at hrules
      exact hrules.elim
  | some key =>
      rw [hkey] at hrules
      have hend : mayEnd key (own j past) (.ok (.replayed replay)) := by
        rcases hrules with hend | ⟨_, response, heq⟩
        · exact hend
        · exact nomatch heq
      rcases hend with ⟨_, newer, now, answer, older, record, hlooked, _, hfound, hreplay⟩
      rcases recordOf_eq_some hfound with ⟨value, rfl, hread, hvalid⟩
      rcases exists_of_lookedUp ⟨newer, hlooked.symm⟩ with ⟨got, before, hgot, hbefore⟩
      have hgotNow := hgot.of_suffix htold.suffix
      rcases haccount.set_of_found hgotNow with ⟨set, who, ttl, answer, behind, hset, hkept, _⟩
      rcases captures_of_set (haccount.of_suffix hgotNow.suffix) (Caller.exists_of_key hkey) hset with
        ⟨x, cx, response, captured, bytes, rfl, hrec, rfl, rfl⟩
      have hsource := (⟨x, cx, response, captured, bytes⟩ : Source).succeeded hrec.kept
      have hgives := gives_of_records (haccount.of_suffix (hset.suffix.trans hgotNow.suffix)) hrec
      have hheaders := hproper cx (List.mem_of_getElem? hrec.caller) response hgives
      refine ⟨key, ⟨x, cx, response, captured, bytes⟩, got, set, now, record, before, older, rfl,
        hgotNow, hbefore, ⟨behind, answer, hset, hrec⟩, hkept, ⟨hread, hvalid, ?_⟩, hsource,
        hreplay, ?_⟩
      · exact (hsource.readBack hread).1
      · rw [hreplay, (hsource.readBack hread).2]
        exact isReplayOf_recordBy hrec.kept hheaders

/-! ## The second of two payments -/

/-- The second of two payers is told of a payment that was made. -/
theorem twoPayments_sourced :
    EndedWith twoPayments 1 0 (.ok (.replayed receipt.toResponse)) ∧
      ∃ source : Source, source.Succeeded ∧ source.caller.config.cacheTtl = .ofSeconds 86400 ∧
        IsReplayOf source.response (.ok (.replayed receipt.toResponse)) := by
  have hrun : twoPayments = Chronicle.of
      (beginAmong (.start .epoch none) .faultless [promptPayer, promptPayer] [])
      [.move (.resume 0), .move (.resume 1)] := rfl
  have hproper : ∀ c ∈ [promptPayer, promptPayer], ∀ response, c.handler.Gives (some response) →
      response.headers.Proper := by
    intro c hc response hgives
    have hpayer : c = promptPayer := by simpa using hc
    subst hpayer
    rcases hgives with ⟨n, request, heq⟩
    have hpaid : Http.Response.ofStatus 201 = response := Option.some.inj heq
    rw [← hpaid]
    exact ⟨List.nodup_nil, nofun, nofun, nofun⟩
  refine ⟨twoPayments_ended, ?_⟩
  rcases replayed_from_source hrun hproper (j := 1) rfl twoPayments_ended with
    ⟨_, source, _, _, _, _, _, _, _, _, _, ⟨_, _, _, hrec⟩, _, _, hsucceeded, _, hreplay⟩
  have hpayer : source.caller = promptPayer := by
    have hmem := List.mem_of_getElem? hrec.caller
    simpa using hmem
  refine ⟨source, hsucceeded, ?_, hreplay⟩
  rw [hpayer]
  rfl

end Turnstile.Once

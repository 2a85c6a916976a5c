import Turnstile.Proofs.Once.Exclusion
import Turnstile.Proofs.Record.RoundTrip
import Turnstile.Proofs.Time.Timestamp

/-!
# Records of runs

A caller writes one record at most, and only of a run of its handler under the
lock.  If every holder of a lock finishes, so that its run begins and its record
is written or lost before the lock expires, then the lock is not taken by another
caller between the two: whoever takes it next finds the record written, unless it
was lost.

Main results:

- Theorem `written_of_set`: every value that is set is the record of a run.
- Theorem `not_taken_before_run`: nobody takes the lock between another caller
  and the run of that.
- Theorem `outcome_once`: a caller writes or loses one record at most.
- Theorem `settled_before_taken`: the record of a run is written or lost before the
  lock is taken again.
-/

namespace Turnstile.Once

open Run
open Store (Answer Call Token)

/-! ## Runs that are recorded -/

/-- The handler of the `i`-th caller ran under the lock of the key, and its
response, captured at an instant, is to be recorded with the given bytes. -/
structure Records (callers : List Caller) (log : Log) (i : Nat) (key : OperationKey) (c : Caller)
    (response : Http.Response) (captured : Timestamp) (bytes : Bytes) : Prop where
  caller : callers[i]? = some c
  keyed : c.key? = some key
  kept : captured? c.config response = some bytes
  noted : ∃ newer request token older, Cleared c.config key token older ∧
    own i log = newer ++ .read captured :: .finished (some response) :: .began request :: older

/-- The record of a response that was captured at an instant. -/
def recordBy (c : Caller) (response : Http.Response) (captured : Timestamp) (bytes : Bytes) :
    Record :=
  Record.capture response.status response.headers bytes captured c.config.cacheTtl

/-- The caller has a record to write that is not written at the end of the
log. -/
def HasToWrite (callers : List Caller) (log : Log) (i : Nat) : Prop :=
  (∃ c response bytes, callers[i]? = some c ∧ .finished (some response) ∈ own i log ∧
    captured? c.config response = some bytes) ∧
  ∀ key value ttl answer, .done (.set key value ttl) answer ∉ own i log

/-- Whoever takes a lock begins the run of its handler before the lock expires,
and if the response is to be recorded then the record is written before the lock
expires. -/
def HoldersAreQuick (callers : List Caller) (log : Log) : Prop :=
  ∀ e past, Tells log e past → ∀ i lock token time ttl older,
    Tells past ⟨time, some i, .done (.acquireLock lock ttl) (.token (some token))⟩ older →
    (∃ request, e.task = some i ∧ e.note = .began request) ∨ HasToWrite callers past i ∨
      HasToWrite callers (e :: past) i →
    e.time < time + ttl.nanos

/-- The caller has a record to write that is neither written nor lost at the end of
the log. -/
def IsRecording (callers : List Caller) (log : Log) (i : Nat) : Prop :=
  (∃ c response bytes, callers[i]? = some c ∧ .finished (some response) ∈ own i log ∧
    captured? c.config response = some bytes) ∧
  ∀ key value ttl answer, outcome (.set key value ttl) answer ∉ own i log

/-- Whoever takes a lock begins the run of its handler before the lock expires,
and if the response is to be recorded then the record is written or lost before
the lock expires. -/
def HoldersFinish (callers : List Caller) (log : Log) : Prop :=
  ∀ e past, Tells log e past → ∀ i lock token time ttl older,
    Tells past ⟨time, some i, .done (.acquireLock lock ttl) (.token (some token))⟩ older →
    (∃ request, e.task = some i ∧ e.note = .began request) ∨ IsRecording callers past i ∨
      IsRecording callers (e :: past) i →
    e.time < time + ttl.nanos

/-- No write of a record fails or is cut off before it is done. -/
def NoWriteIsLost (log : Log) : Prop :=
  ∀ e ∈ log, ∀ key value ttl, e.note ≠ .lost (.set key value ttl)

section

variable {callers : List Caller} {log past : Log} {i : Nat} {key : OperationKey} {c : Caller}
  {response : Http.Response} {captured : Timestamp} {bytes : Bytes}

/-- Whoever records has to write. -/
theorem IsRecording.hasToWrite (h : IsRecording callers log i) : HasToWrite callers log i :=
  ⟨h.1, fun key value ttl answer => h.2 key value ttl (some answer)⟩

/-- Holders that are quick finish. -/
theorem HoldersAreQuick.finish (h : HoldersAreQuick callers log) : HoldersFinish callers log := by
  intro e past htold i lock token time ttl older htook hbusy
  refine h e past htold i lock token time ttl older htook ?_
  rcases hbusy with hbegan | hbefore | hafter
  · exact Or.inl hbegan
  · exact Or.inr (Or.inl hbefore.hasToWrite)
  · exact Or.inr (Or.inr hafter.hasToWrite)

/-- Where no time passes, holders are quick. -/
theorem HoldersAreQuick.of_time_zero (h : Account callers log) (htime : ∀ e ∈ log, e.time = 0)
    (hpos : ∀ c ∈ callers, 0 < c.config.lockTtl.nanos) : HoldersAreQuick callers log := by
  intro e past htold i lock token time ttl older htook _
  have hnow := htime e htold.mem
  rcases h.lockTtl_eq (htold.trans htook) with ⟨c, hc, rfl⟩
  have hlong := hpos c (List.mem_of_getElem? hc)
  omega

/-- What was recorded before is recorded. -/
theorem Records.of_suffix (h : Records callers past i key c response captured bytes)
    (hs : past <:+ log) : Records callers log i key c response captured bytes := by
  rcases h.noted with ⟨newer, request, token, older, hcleared, hown⟩
  refine ⟨h.caller, h.keyed, h.kept, ?_⟩
  rcases own_suffix i hs with ⟨more, hmore⟩
  refine ⟨more ++ newer, request, token, older, hcleared, ?_⟩
  rw [← hmore, hown, List.append_assoc]

/-- Whoever records does so under its own key. -/
theorem Records.keyOf_eq (h : Records callers log i key c response captured bytes) :
    keyOf callers i = some key := by
  unfold keyOf
  rw [h.caller]
  exact h.keyed

/-- A caller that is cleared to run its handler has always noted as much. -/
theorem Cleared.length_eq {cfg : Config} {token : Token} {older : List Note}
    (h : Cleared cfg key token older) : older.length = 13 := by
  rcases h with ⟨now, answer, now', answer', _, _, rfl⟩
  rfl

/-- Whoever records held the lock and found nothing before its handler answered. -/
theorem Records.cleared (h : Records callers log i key c response captured bytes) :
    ∃ request token older, Cleared c.config key token older ∧
      .finished (some response) :: .began request :: older <:+ own i log := by
  rcases h.noted with ⟨newer, request, token, older, hcleared, hown⟩
  refine ⟨request, token, older, hcleared, ?_⟩
  rw [hown]
  exact (List.suffix_cons _ _).trans (List.suffix_append _ _)

/-- A caller records one response at most. -/
theorem Records.unique {key' : OperationKey} {c' : Caller} {response' : Http.Response}
    {captured' : Timestamp} {bytes' : Bytes}
    (h : Records callers log i key c response captured bytes)
    (h' : Records callers log i key' c' response' captured' bytes') :
    key = key' ∧ c = c' ∧ response = response' ∧ captured = captured' ∧ bytes = bytes' := by
  have hc : c = c' := Option.some.inj (h.caller.symm.trans h'.caller)
  subst hc
  have hkey : key = key' := Option.some.inj (h.keyed.symm.trans h'.keyed)
  rcases h.noted with ⟨newer, request, token, older, hcleared, hown⟩
  rcases h'.noted with ⟨newer', request', token', older', hcleared', hown'⟩
  rw [hown] at hown'
  have hlength := congrArg List.length hown'
  simp only [List.length_append, List.length_cons, hcleared.length_eq, hcleared'.length_eq]
    at hlength
  have hparts := (List.append_inj hown' (by omega)).2
  simp only [List.cons.injEq, Note.read.injEq, Note.finished.injEq, Option.some.injEq] at hparts
  rcases hparts with ⟨hcaptured, hresponse, _⟩
  have hkept' := h'.kept
  rw [← hresponse, h.kept] at hkept'
  exact ⟨hkey, rfl, hresponse, hcaptured, Option.some.inj hkept'⟩

/-- A run that is recorded began. -/
theorem Records.began (h : Records callers log i key c response captured bytes) :
    ∃ t request past, Tells log ⟨t, some i, .began request⟩ past := by
  rcases h.noted with ⟨newer, request, token, older, _, hown⟩
  have hsplit : own i log =
      (newer ++ [.read captured, .finished (some response)]) ++ .began request :: older := by
    rw [hown, List.append_assoc]
    rfl
  rcases exists_of_own _ hsplit with ⟨t, past, hbegan, _⟩
  exact ⟨t, request, past, hbegan⟩

/-! ## Who writes -/

/-- Every value that is set is the record of a run. -/
theorem written_of_set (h : Account callers log) {t : Nat} {who : Option Nat} {k : String}
    {value : Bytes} {ttl : Span} {answer : Answer}
    (htold : Tells log ⟨t, who, .done (.set k value ttl) answer⟩ past) :
    ∃ x key c response captured bytes, who = some x ∧
      Records callers past x key c response captured bytes ∧ (own x past).length = 17 ∧
      k = key.text ∧ ttl = c.config.cacheTtl ∧
      value = (recordBy c response captured bytes).render := by
  rcases h.sent_of_done (by simp) htold with ⟨x, c, key, older, rfl, hc, hkey, hown, hk, httl, hcaptures⟩
  rcases hcaptures with ⟨token, request, response, now, bytes, earlier, hcleared, rfl, hkept, rfl⟩
  refine ⟨x, key, c, response, now, bytes, rfl, ⟨hc, hkey, hkept, ?_⟩, ?_, hk, httl, rfl⟩
  · exact ⟨[_], request, token, earlier, hcleared, hown⟩
  · simp [hown, hcleared.length_eq]

/-- A key is given by its text. -/
theorem OperationKey.eq_of_text {key key' : OperationKey} (h : key.text = key'.text) :
    key = key' := by
  cases key
  cases key'
  exact congrArg OperationKey.mk h

/-- Whoever sets a value under a key has a run recorded under that. -/
theorem record_of_set (h : Account callers log) {t x : Nat} {value : Bytes} {ttl : Span}
    {answer : Answer}
    (htold : Tells log ⟨t, some x, .done (.set key.text value ttl) answer⟩ past) :
    ∃ c response captured bytes, Records callers past x key c response captured bytes ∧
      ttl = c.config.cacheTtl ∧ value = (recordBy c response captured bytes).render := by
  rcases written_of_set h htold with
    ⟨x', key', c, response, captured, bytes, hx, hrec, _, hkey, httl, hvalue⟩
  rw [Option.some.inj hx, OperationKey.eq_of_text hkey]
  exact ⟨c, response, captured, bytes, hrec, httl, hvalue⟩

/-- A caller whose run is to be recorded writes the record of that. -/
theorem Records.written (h : Account callers log)
    (hrec : Records callers log i key c response captured bytes) {t : Nat} {k : String}
    {value : Bytes} {ttl : Span} {answer : Answer}
    (htold : Tells log ⟨t, some i, .done (.set k value ttl) answer⟩ past) :
    Records callers past i key c response captured bytes ∧ k = key.text ∧
      ttl = c.config.cacheTtl ∧ value = (recordBy c response captured bytes).render := by
  rcases written_of_set h htold with ⟨x, key', c', response', captured', bytes', hx, hbefore, _,
    hk, httl, hvalue⟩
  simp only [Option.some.injEq] at hx
  subst hx
  rcases hrec.unique (hbefore.of_suffix htold.suffix) with ⟨rfl, rfl, rfl, rfl, rfl⟩
  exact ⟨hbefore, hk, httl, hvalue⟩

/-- Nothing is deleted. -/
theorem not_deleted (h : Account callers log) {t : Nat} {who : Option Nat} {k : String}
    {answer : Answer} : ¬ Tells log ⟨t, who, .done (.delete k) answer⟩ past := by
  intro htold
  rcases h.sent_of_done (by simp) htold with ⟨_, _, _, _, _, _, _, _, hmay⟩
  exact hmay

/-- Whatever is written under a key is set by a caller. -/
theorem set_of_writes (h : Account callers log) {d : Store.Deed} {older : List Store.Deed}
    {k : String} (hd : d :: older <:+ Run.deeds log) (hwrites : d.call.Writes k) :
    ∃ t x value ttl answer past, Tells log ⟨t, some x, .done (.set k value ttl) answer⟩ past ∧
      d = ⟨t, .set k value ttl, answer⟩ ∧ older = Run.deeds past := by
  rcases exists_of_deed hd with ⟨who, past, htold, rfl⟩
  rcases d with ⟨t, call, answer⟩
  cases call with
  | delete k' => exact absurd htold (not_deleted h)
  | set k' value ttl =>
      have hk : k' = k := hwrites
      subst hk
      rcases written_of_set h htold with ⟨x, _, _, _, _, _, rfl, _⟩
      exact ⟨t, x, value, ttl, answer, past, htold, rfl, rfl⟩
  | _ => exact hwrites.elim

/-- A caller that wrote its record, or lost it, had noted as much before as every
other. -/
theorem length_before_outcome (h : Account callers log) {x t : Nat} {k : String} {value : Bytes}
    {ttl : Span} {answer : Option Answer}
    (htold : Tells log ⟨t, some x, outcome (.set k value ttl) answer⟩ past) :
    (own x past).length = 17 := by
  rcases h.answers htold.own with ⟨_, _, hanswers⟩
  have hbegun : ∃ older, own x past = .sent (.set k value ttl) :: older := by
    cases answer with
    | none => exact hanswers
    | some a => exact hanswers
  rcases hbegun with ⟨older, hown⟩
  have hsent : .sent (.set k value ttl) :: older <:+ own x past := ⟨[], hown.symm⟩
  rcases (h.of_suffix htold.suffix).guarded_allowed hsent trivial id with
    ⟨c, key, _, _, _, _, token, request, response, now, bytes, earlier, hcleared, rfl, _, _⟩
  simp [hown, hcleared.length_eq]

/-- A caller writes or loses one record at most. -/
theorem outcome_once (h : Account callers log) {x t t' : Nat} {k k' : String}
    {value value' : Bytes} {ttl ttl' : Span} {answer answer' : Option Answer} {past' : Log}
    (htold : Tells log ⟨t, some x, outcome (.set k value ttl) answer⟩ past)
    (htold' : Tells log ⟨t', some x, outcome (.set k' value' ttl') answer'⟩ past') :
    (⟨t, some x, outcome (.set k value ttl) answer⟩ : Entry) =
      ⟨t', some x, outcome (.set k' value' ttl') answer'⟩ ∧ past = past' := by
  have hlength := length_before_outcome h htold
  have hlength' := length_before_outcome h htold'
  rcases htold.order htold' with hsame | hbehind | hbehind
  · exact hsame
  · have hle := List.IsSuffix.length_le hbehind.own
    simp only [List.length_cons] at hle
    omega
  · have hle := List.IsSuffix.length_le hbehind.own
    simp only [List.length_cons] at hle
    omega

/-- A caller writes once. -/
theorem written_once (h : Account callers log) {x t t' : Nat} {k k' : String}
    {value value' : Bytes} {ttl ttl' : Span} {answer answer' : Answer} {past' : Log}
    (htold : Tells log ⟨t, some x, .done (.set k value ttl) answer⟩ past)
    (htold' : Tells log ⟨t', some x, .done (.set k' value' ttl') answer'⟩ past') :
    (⟨t, some x, .done (.set k value ttl) answer⟩ : Entry) =
      ⟨t', some x, .done (.set k' value' ttl') answer'⟩ ∧ past = past' := by
  have hfirst : Tells log ⟨t, some x, outcome (.set k value ttl) (some answer)⟩ past := htold
  have hsecond : Tells log ⟨t', some x, outcome (.set k' value' ttl') (some answer')⟩ past' := htold'
  exact outcome_once h hfirst hsecond

/-! ## Runs begin -/

/-- A caller that begins a run under its key was cleared to do so. -/
theorem cleared_of_began (h : Account callers log) (hkey : keyOf callers i = some key) {t : Nat}
    {request : Http.Request} (hbegan : Tells log ⟨t, some i, .began request⟩ past) :
    ∃ c token, callers[i]? = some c ∧ c.key? = some key ∧
      Cleared c.config key token (own i past) := by
  have hserving : IsServing (⟨t, some i, .began request⟩ :: past) i :=
    ⟨request, own i past, own_cons_self i t _ past⟩
  rcases cleared_of_serving (h.of_suffix hbegan) hkey hserving with
    ⟨c, request', token, older, hc, hkey', hown, hcleared⟩
  rw [own_cons_self, List.cons.injEq] at hown
  rw [← hown.2] at hcleared
  exact ⟨c, token, hc, hkey', hcleared⟩

/-- A caller begins one run at most. -/
theorem began_once (h : Account callers log) (hkey : keyOf callers i = some key) {t t' : Nat}
    {request request' : Http.Request} {past' : Log}
    (hbegan : Tells log ⟨t, some i, .began request⟩ past)
    (hbegan' : Tells past ⟨t', some i, .began request'⟩ past') : False := by
  rcases cleared_of_began h hkey hbegan with ⟨_, _, _, _, hcleared⟩
  rcases cleared_of_began h hkey (hbegan.trans hbegan') with ⟨_, _, _, _, hcleared'⟩
  have hle := List.IsSuffix.length_le hbegan'.own
  simp only [List.length_cons, hcleared.length_eq, hcleared'.length_eq] at hle
  omega

/-- A caller that is cleared took the lock, then read the clock, and then found
no record. -/
theorem exists_of_cleared {cfg : Config} {token : Token} (h : Cleared cfg key token (own i log)) :
    ∃ time older read now earlier got answer before,
      Tells log ⟨got, some i, .done (.get key.text) answer⟩ before ∧
      Tells before ⟨read, some i, .read now⟩ earlier ∧
      Tells earlier ⟨time, some i, .done (.acquireLock key.lock cfg.lockTtl) (.token (some token))⟩
        older ∧
      recordOf now answer = .ok none := by
  rcases h with ⟨now, answer, now', answer', _, hsecond, hown⟩
  rcases exists_of_own [_] hown with ⟨got, before, hgot, hbefore⟩
  rcases exists_of_own [_] hbefore with ⟨read, earlier, hread, hearlier⟩
  rcases exists_of_own [_, _] hearlier with ⟨time, older, htook, _⟩
  exact ⟨time, older, read, now', earlier, got, answer', before, hgot, hread, htook, hsecond⟩

/-- A caller that began a run took the lock, then read the clock, and then found no
record. -/
theorem exists_of_began (h : Account callers log) (hkey : keyOf callers i = some key) {t : Nat}
    {request : Http.Request} (hbegan : Tells log ⟨t, some i, .began request⟩ past) :
    ∃ a ttl token older read now earlier got answer before,
      Tells past ⟨got, some i, .done (.get key.text) answer⟩ before ∧
      Tells before ⟨read, some i, .read now⟩ earlier ∧
      Tells earlier ⟨a, some i, .done (.acquireLock key.lock ttl) (.token (some token))⟩ older ∧
      recordOf now answer = .ok none := by
  rcases cleared_of_began h hkey hbegan with ⟨_, token, _, _, hcleared⟩
  rcases exists_of_cleared hcleared with
    ⟨a, older, read, now, earlier, got, answer, before, hgot, hread, htook, hnothing⟩
  exact ⟨a, _, token, older, read, now, earlier, got, answer, before, hgot, hread, htook, hnothing⟩

/-! ## The order of locks and records -/

/-- Nobody takes the lock between another caller and the run of that. -/
theorem not_taken_before_run (h : Account callers log) (hfinish : HoldersFinish callers log)
    (hkey : keyOf callers i = some key) {t a a' : Nat} {request : Http.Request}
    {who : Option Nat} {lock : String} {ttl ttl' : Span} {token token' : Token} {older oldest : Log}
    (hbegan : Tells log ⟨t, some i, .began request⟩ past)
    (hagain : Tells past ⟨a', who, .done (.acquireLock lock ttl') (.token (some token'))⟩ older)
    (hfirst : Tells older ⟨a, some i, .done (.acquireLock lock ttl) (.token (some token))⟩
      oldest) : False := by
  rcases cleared_of_began h hkey hbegan with ⟨c, given, _, _, hcleared⟩
  have hpast := h.of_suffix hbegan.suffix
  rcases hpast.let_go_or_expired hagain hfirst with hgo | hexpired
  · rcases hgo with ⟨_, _, n, earlier, _, _, _, hn, hgo, _⟩
    have hmem : n ∈ own i past :=
      List.IsSuffix.mem List.mem_cons_self (hn.trans (own_suffix i hagain.suffix))
    exact not_letsGo_of_cleared hcleared hmem hgo
  · have hearly := hfinish _ past hbegan i lock token a ttl oldest (hagain.trans hfirst)
      (Or.inl ⟨request, rfl, rfl⟩)
    have hlate := Tells.time_le h.sorted hbegan hagain
    simp only at hearly hlate
    omega

/-- A caller that let go of the lock after a run that is to be recorded wrote or
lost the record before. -/
theorem settled_of_let_go (hrec : Records callers log i key c response captured bytes)
    {lock : String} {token : Token} (hs : past <:+ log)
    (hgo : Account.LetGo callers i lock token (own i past)) :
    ∃ k value ttl answer, outcome (.set k value ttl) answer ∈ own i past := by
  rcases hgo with ⟨c', key', n, older, hc', _, _, hn, hgo, _, hsettled⟩
  have hc : c = c' := Option.some.inj (hrec.caller.symm.trans hc')
  subst hc
  rcases hrec.cleared with ⟨request, given, before, hcleared, hfinished⟩
  have hfin : ¬ Account.LetsGo lock token (.finished (some response)) := by simp [Account.LetsGo]
  have hbegan : ¬ Account.LetsGo lock token (.began request) := by simp [Account.LetsGo]
  have hmem : .finished (some response) ∈ older := by
    rcases List.suffix_or_suffix_of_suffix (hn.trans (own_suffix i hs)) hfinished with hle | hle
    · -- Up to the end of the run the lock was not let go of.
      have hin := List.IsSuffix.mem List.mem_cons_self hle
      simp only [List.mem_cons] at hin
      rcases hin with rfl | rfl | hin
      · exact absurd hgo hfin
      · exact absurd hgo hbegan
      · exact absurd hgo (not_letsGo_of_cleared hcleared hin)
    · rcases List.suffix_cons_iff.1 hle with heq | hle
      · rw [List.cons.injEq] at heq
        rw [← heq.1] at hgo
        exact absurd hgo hfin
      · exact List.IsSuffix.mem List.mem_cons_self hle
  rcases hsettled response bytes hmem hrec.kept with ⟨value, answer, houtcome⟩
  exact ⟨_, value, _, answer, List.IsSuffix.mem houtcome ((List.suffix_cons _ _).trans hn)⟩

/-- The record of a run is written or lost before the lock is taken again. -/
theorem settled_before_taken (h : Account callers log) (hfinish : HoldersFinish callers log)
    (hrec : Records callers log i key c response captured bytes) {a a' : Nat} {who : Option Nat}
    {lock : String} {ttl ttl' : Span} {token token' : Token} {older : Log}
    (hagain : Tells log ⟨a', who, .done (.acquireLock lock ttl') (.token (some token'))⟩ past)
    (hfirst : Tells past ⟨a, some i, .done (.acquireLock lock ttl) (.token (some token))⟩ older) :
    ∃ k value ttl answer, outcome (.set k value ttl) answer ∈ own i past := by
  rcases h.let_go_or_expired hagain hfirst with hgo | hexpired
  · exact settled_of_let_go hrec hagain.suffix hgo
  · apply Classical.byContradiction
    intro hnone
    have hunsettled : ∀ k value ttl answer, outcome (.set k value ttl) answer ∉ own i past :=
      fun k value ttl answer hsettled => hnone ⟨k, value, ttl, answer, hsettled⟩
    by_cases hmem : .finished (some response) ∈ own i past
    · -- The run had ended when the lock was taken again.
      have hearly := hfinish _ past hagain i lock token a ttl older hfirst
        (Or.inr (Or.inl ⟨⟨c, response, bytes, hrec.caller, hmem, hrec.kept⟩, hunsettled⟩))
      simp only at hearly
      omega
    · -- The run ended only after the lock was taken again.
      rcases hrec.noted with ⟨newer, request, given, before, hcleared, hown⟩
      have hsplit : own i log = (newer ++ [.read captured]) ++
          .finished (some response) :: (.began request :: before) := by
        rw [hown, List.append_assoc]
        rfl
      rcases exists_of_own _ hsplit with ⟨t, rest, hfinished, hrest⟩
      have hbehind : Tells rest ⟨a', who, .done (.acquireLock lock ttl') (.token (some token'))⟩
          past := by
        rcases hfinished.order hagain with ⟨heq, _⟩ | hbehind | hbehind
        · simp at heq
        · exact hbehind
        · exact absurd (List.IsSuffix.mem List.mem_cons_self hbehind.own) hmem
      have hnow : own i (⟨t, some i, .finished (some response)⟩ :: rest) =
          .finished (some response) :: .began request :: before := by
        rw [own_cons_self, hrest]
      have hnotYet : ∀ k value ttl answer, outcome (.set k value ttl) answer ∉
          .finished (some response) :: .began request :: before := by
        rcases hcleared with ⟨now, answer, now', answer', _, _, rfl⟩
        intro k value ttl answer
        cases answer <;> simp [outcome, lookedUp, tookLock]
      have hearly := hfinish _ rest hfinished i lock token a ttl older (hbehind.trans hfirst)
        (Or.inr (Or.inr ⟨⟨c, response, bytes, hrec.caller, by rw [hnow]; simp, hrec.kept⟩,
          by rw [hnow]; exact hnotYet⟩))
      have hlate := Tells.time_le h.sorted hfinished hbehind
      simp only at hearly hlate
      omega

end

end Turnstile.Once

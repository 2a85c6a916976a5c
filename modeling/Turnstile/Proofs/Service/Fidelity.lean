import Turnstile.Proofs.Record.RoundTrip
import Turnstile.Proofs.Run.Account
import Turnstile.Proofs.Service.Shown
import Turnstile.Proofs.Service.Visitors

/-!
# Faithful replays

Guests ask for operations, each through an admission of its own, and all of the
admissions keep their records in one store.  A guest is told that its response is a
replay if and only if it was found in a record that another guest had written.
Then both of them are shown the response that the handler of the other one gave.

Nothing else is asked of the run: the store may fail or answer late, guests may go
away, clocks may jump, entries may be purged, and any of the guests may be refused
for want of room.

Main results:

- Theorem `Guest.recorded_of_set`: whatever is written is the record of a response
  that was given.
- Theorem `Guest.shows_of_readBack`: a record that is read back shows that response.
- Theorem `Guest.replay_shows`: a replay and the response that was recorded show
  what the handler gave.
-/

namespace Turnstile

open Run
open Once (Finds lookedUp recordOf captured?)
open Store (Answer Call)

/-- Somebody who asks for an operation. -/
structure Guest where
  /-- What stands between the guest and the handler. -/
  admission : Admission
  request : Http.Request
  handler : Handler
  /-- When the request arrives, by the monotonic clock. -/
  time : Nat
  /-- When the guest goes away, if it has not been answered by then. -/
  cancelAt : Option Nat

namespace Guest

/-! ## Runs of guests -/

/-- The key of the operation that the guest asks for. -/
def key? (g : Guest) : Option OperationKey :=
  g.admission.keyOf g.request

/-- The guest as a task. -/
def task (g : Guest) : Run.Task Http.Response :=
  .start (g.admission.guard Once.served g.request) g.handler g.time g.cancelAt

/-- The guest as a party that keeps the rules of its admission. -/
def party (g : Guest) : Party Http.Response :=
  ⟨g.admission.guard Once.served g.request, g.handler, g.time, g.cancelAt,
    g.admission.showing g.request⟩

/-- A run of guests over one store without entries. -/
def begin (clocks : Clocks) (plan : Plan) (guests : List Guest) : State Http.Response :=
  ⟨.start clocks plan, guests.map task, []⟩

/-- What the guest in a place was answered. -/
def answerOf (run : Chronicle Http.Response) (i : Nat) : Option Http.Response :=
  match run.state.tasks[i]? with
  | some task =>
      match task.wait with
      | .nothing (.result given) _ => some given
      | _ => none
  | none => none

/-- A look-up of the `j`-th guest found a record in a stored text, and `before` is what
had happened when the store gave the text out. -/
def FoundBy (log : Log) (j : Nat) (key : OperationKey) (stored : Bytes) (record : Record)
    (before : Log) : Prop :=
  ∃ time now older, lookedUp key now (.value (some stored)) older <:+ own j log ∧
    recordOf now (.value (some stored)) = .ok (some record) ∧
    Tells log ⟨time, some j, .done (.get key.text) (.value (some stored))⟩ before ∧
    own j before = .sent (.get key.text) :: .read now :: older

/-- The value under the key is what the `i`-th guest wrote, and `behind` is what had
happened when it did. -/
def WrittenBy (log : Log) (i : Nat) (key : OperationKey) (value : Bytes) (behind : Log) : Prop :=
  ∃ time ttl answer, Tells log ⟨time, some i, .done (.set key.text value ttl) answer⟩ behind ∧
    ∀ d past, d :: past <:+ deeds log →
      ⟨time, .set key.text value ttl, answer⟩ :: deeds behind <:+ past → ¬ d.call.Writes key.text

/-- The `j`-th guest found, under the key of its operation, the record of the response
that the handler of the `i`-th had given, as the `i`-th had written it under the same
key. -/
def Replays (guests : List Guest) (log : Log) (i j : Nat) (response : Http.Response) : Prop :=
  ∃ g g' key stored record before behind, guests[i]? = some g ∧ guests[j]? = some g' ∧
    g.key? = some key ∧ g'.key? = some key ∧ FoundBy log j key stored record before ∧
    WrittenBy before i key stored behind ∧ responseOf (own i behind) = some response ∧
    Once.IsRecordOf g.admission.once response stored

section

variable {guests : List Guest} {log past : Log}

/-- Every guest begins with its own program. -/
theorem begins (clocks : Clocks) (plan : Plan) (guests : List Guest) :
    Begins (guests.map party) (begin clocks plan guests) :=
  .of_members _ _ rfl rfl rfl

/-- Every guest keeps its rules. -/
theorem parties_keep (guests : List Guest) : ∀ p ∈ guests.map party, p.Keeps :=
  List.forall_mem_map.2 fun g _ => g.admission.guard_keeps g.request

/-- The party of a guest stands where the guest does. -/
theorem getElem?_parties {i : Nat} {g : Guest} (hg : guests[i]? = some g) :
    (guests.map party)[i]? = some g.party := by
  rw [List.getElem?_map, hg]
  rfl

/-- Whoever takes part is the guest in its place. -/
theorem guest_of_party {i : Nat} {p : Party Http.Response} (hp : (guests.map party)[i]? = some p) :
    ∃ g, guests[i]? = some g ∧ p = g.party := by
  rw [List.getElem?_map] at hp
  rcases Option.map_eq_some_iff.1 hp with ⟨g, hg, rfl⟩
  exact ⟨g, hg, rfl⟩

/-! ## Responses that were given -/

/-- A handler gives one response at most. -/
theorem responseOf_of_suffix {g : Guest} {notes older : List Note} {response : Http.Response}
    (hlawful : Lawful g.handler g.party.pact notes) (hs : older <:+ notes)
    (hgiven : responseOf older = some response) : responseOf notes = some response := by
  induction notes with
  | nil =>
      rw [List.suffix_nil.1 hs] at hgiven
      exact hgiven
  | cons n notes ih =>
      rcases List.suffix_cons_iff.1 hs with rfl | hs
      · exact hgiven
      · have hbefore := ih (hlawful.of_suffix (List.suffix_cons _ _)) hs
        cases n with
        | finished given =>
            rcases (hlawful _ _ List.suffix_rfl).1 with ⟨⟨request, earlier, rfl⟩, _⟩
            -- Its run began when no response had been given.
            have hbegan : responseOf earlier = none :=
              (hlawful _ _ (List.suffix_cons _ _)).2 trivial
            rw [responseOf_cons (n := .began request) nofun, hbegan] at hbefore
            exact nomatch hbefore
        | _ => exact hbefore

/-- A response that was given is one of the handler. -/
theorem gives_of_responseOf {g : Guest} {notes : List Note} {response : Http.Response}
    (hlawful : Lawful g.handler g.party.pact notes) (hgiven : responseOf notes = some response) :
    g.handler.Gives (some response) := by
  induction notes with
  | nil => exact nomatch hgiven
  | cons n notes ih =>
      have hrest := hlawful.of_suffix (List.suffix_cons n notes)
      cases n with
      | finished given =>
          cases given with
          | none => exact ih hrest hgiven
          | some r =>
              rw [← Option.some.inj hgiven]
              exact (hlawful _ _ List.suffix_rfl).1.2 r rfl
      | _ => exact ih hrest hgiven

/-- Whatever is written is the record of a response that was given. -/
theorem recorded_of_set (h : Run.Account (guests.map party) log) {t : Nat} {who : Option Nat}
    {k : String} {value : Bytes} {ttl : Span} {answer : Answer}
    (htold : Tells log ⟨t, who, .done (.set k value ttl) answer⟩ past) :
    ∃ i g key response, who = some i ∧ guests[i]? = some g ∧ g.key? = some key ∧ k = key.text ∧
      responseOf (own i past) = some response ∧ Once.IsRecordOf g.admission.once response value := by
  rcases h.origin htold with ⟨i, p, older, hwho, hp, hown, hmay⟩ | ⟨t', i, behind, hquit⟩
  · rcases guest_of_party hp with ⟨g, hg, rfl⟩
    rcases hmay with ⟨key, response, hkey, hk, hresponse, hrecord⟩
    refine ⟨i, g, key, response, hwho, hg, hkey, hk, ?_, hrecord⟩
    rw [hown]
    exact hresponse
  · -- What is left behind is a release.
    rcases (h.of_suffix htold.suffix).held_of_quit hquit with ⟨p, _, hp, _, hmay⟩
    rcases guest_of_party hp with ⟨g, _, rfl⟩
    rcases hmay with ⟨lock, token, hrelease⟩
    exact nomatch hrelease

/-! ## Records that are read back -/

/-- A record that is read back shows the response that was recorded. -/
theorem shows_of_readBack {cfg : Once.Config} {response : Http.Response} {stored : Bytes}
    {record : Record} (hrecord : Once.IsRecordOf cfg response stored)
    (hproper : response.headers.Proper) (hread : Record.ofStored? stored = some record) :
    Shows response record.toResponse := by
  rcases hrecord with ⟨bytes, captured, hcaptured, rfl⟩
  rcases Once.captured?_eq_some hcaptured with ⟨hsuccess, hbody⟩
  have hstatus := Service.lt_of_isSuccess hsuccess
  have hsmall : (Record.capture response.status response.headers bytes captured cfg.cacheTtl).status <
      65536 := Nat.lt_trans hstatus (by decide)
  have hshown : Record.isStatus response.status = true := by
    unfold Http.isSuccess at hsuccess
    unfold Record.isStatus
    simp only [Bool.and_eq_true, decide_eq_true_eq] at hsuccess ⊢
    omega
  rcases Record.exists_of_ofStored?_render hsmall hread with ⟨created, expires, _, _, rfl⟩
  -- The instants of a record do not bear on what it replays.
  have hreplay : Record.toResponse { Record.capture response.status response.headers bytes captured
      cfg.cacheTtl with createdAt := created, expiresAt := expires } =
        ⟨response.status, response.headers, .ofBytes bytes⟩ :=
    Record.toResponse_eq_of_capture hproper hshown bytes captured cfg.cacheTtl
  rw [hreplay]
  refine ⟨rfl, ?_, rfl⟩
  rw [hbody]
  exact Http.Body.delivered_ofBytes bytes

/-- A record that was found is one of a response that was given. -/
theorem replays_of_finds (h : Run.Account (guests.map party) log) {j : Nat} {g : Guest}
    {key : OperationKey} {record : Record} (hj : guests[j]? = some g) (hkey : g.key? = some key)
    (hfinds : Finds key record (own j log)) : ∃ i response, Replays guests log i j response := by
  rcases hfinds with ⟨now, answer, older, hlooked, hrecord⟩
  rcases Once.recordOf_eq_some hrecord with ⟨stored, rfl, _, _⟩
  rcases Once.exists_of_lookedUp hlooked with ⟨got, before, hgot, hbefore⟩
  have hfound : FoundBy log j key stored record before :=
    ⟨got, now, older, hlooked, hrecord, hgot, hbefore⟩
  rcases h.set_of_found hgot with ⟨set, who, ttl, answer, behind, hset, _, hlast⟩
  rcases recorded_of_set (h.of_suffix hgot.suffix) hset with
    ⟨i, g', key', response, rfl, hi, hkey', htext, hresponse, hrecorded⟩
  have hsame : key = key' := by
    cases key
    cases key'
    exact congrArg OperationKey.mk htext
  subst hsame
  have hwritten : WrittenBy before i key stored behind := ⟨set, ttl, answer, hset, hlast⟩
  exact ⟨i, response, g', g, key, stored, record, before, behind, hi, hj, hkey', hkey, hfound,
    hwritten, hresponse, hrecorded⟩

/-- A record is found in what happened before. -/
theorem FoundBy.suffix {j : Nat} {key : OperationKey} {stored : Bytes} {record : Record}
    {before : Log} (h : FoundBy log j key stored record before) : before <:+ log := by
  rcases h with ⟨time, now, older, _, _, htold, _⟩
  exact htold.suffix

/-- So is the write of a record. -/
theorem WrittenBy.suffix {i : Nat} {key : OperationKey} {value : Bytes} {behind : Log}
    (h : WrittenBy log i key value behind) : behind <:+ log := by
  rcases h with ⟨time, ttl, answer, htold, _⟩
  exact htold.suffix

end

/-! ## What both are shown -/

section

variable {clocks : Clocks} {plan : Plan} {guests : List Guest} {happenings : List Happening}
  {run : Chronicle Http.Response}

/-- Whoever was answered is a guest, and was answered as its admission allows. -/
theorem answersWith_of_answerOf (hrun : run = .of (begin clocks plan guests) happenings) {i : Nat}
    {given : Http.Response} (hanswer : answerOf run i = some given) :
    ∃ g older, guests[i]? = some g ∧ own i run.log = .ended :: older ∧
      g.admission.answersWith g.request older given := by
  have hbegins := begins clocks plan guests
  subst hrun
  unfold answerOf at hanswer
  split at hanswer
  · rename_i task htask
    have hlt : i < guests.length := by
      have hlength := (chronicle_path hbegins.fits happenings).length
      have hlt := (List.getElem?_eq_some_iff.1 htask).1
      rw [hlength, hbegins.tasks] at hlt
      simpa using hlt
    have hg := List.getElem?_eq_getElem hlt
    split at hanswer
    · rename_i given' time hwait
      rcases ends_of_conduct hbegins (parties_keep guests) (getElem?_parties hg) htask hwait with
        ⟨older, hown, hends⟩
      rw [← Option.some.inj hanswer]
      exact ⟨_, older, hg, hown, hends⟩
    · exact nomatch hanswer
  · exact nomatch hanswer

/-- What a guest knew when it was answered it knows at the end of the log. -/
theorem knows_of_ended {key : OperationKey} {found : Option Record} {response : Option Http.Response}
    {i : Nat} {log : Log} {older : List Note} (hown : own i log = .ended :: older)
    (h : Knows key found response older) : Knows key found response (own i log) := by
  rw [hown]
  exact h.cons nofun nofun

/-- Whose response is replayed is shown that response, if it is answered, and is not
told of a replay. -/
theorem first_shows (hrun : run = .of (begin clocks plan guests) happenings) {i j : Nat}
    {response first : Http.Response} (hreplays : Replays guests run.log i j response)
    (hfirst : answerOf run i = some first) : IsMarked false first ∧ Shows response first := by
  have haccount := Run.account (begins clocks plan guests) (parties_keep guests) happenings
  rw [← hrun] at haccount
  rcases hreplays with ⟨g, _, _, _, _, before, behind, hi, _, _, _, hfound, hwritten, hresponse, _⟩
  rcases answersWith_of_answerOf hrun hfirst with ⟨g', older, hi', hown, hanswers⟩
  have hsame : g' = g := Option.some.inj (hi'.symm.trans hi)
  subst hsame
  have hlawful := haccount.lawful i _ (getElem?_parties hi)
  have hgiven : responseOf (own i run.log) = some response :=
    responseOf_of_suffix hlawful (own_suffix i (hwritten.suffix.trans hfound.suffix)) hresponse
  rw [hown, responseOf_cons (n := .ended) nofun] at hgiven
  rcases hanswers with ⟨key', record, _, hknows, _⟩ | ⟨_, hmarked, hshows⟩
  · rw [hknows.response] at hgiven
    exact nomatch hgiven
  · exact ⟨hmarked, hshows response hgiven⟩

/-- The response that is replayed was given by the handler of a guest. -/
theorem gives_of_replays (hrun : run = .of (begin clocks plan guests) happenings) {i j : Nat}
    {response : Http.Response} (hreplays : Replays guests run.log i j response) :
    ∃ g, guests[i]? = some g ∧ g.handler.Gives (some response) := by
  have haccount := Run.account (begins clocks plan guests) (parties_keep guests) happenings
  rw [← hrun] at haccount
  rcases hreplays with ⟨g, _, _, _, _, before, behind, hi, _, _, _, hfound, hwritten, hresponse, _⟩
  have hlawful : Lawful g.handler g.party.pact (own i behind) :=
    (haccount.lawful i _ (getElem?_parties hi)).of_suffix
      (own_suffix i (hwritten.suffix.trans hfound.suffix))
  exact ⟨g, hi, gives_of_responseOf hlawful hresponse⟩

/-- A guest that is answered with the record of a response is shown that response,
and is told of a replay. -/
theorem later_shows (hrun : run = .of (begin clocks plan guests) happenings)
    (hproper : ∀ g ∈ guests, ∀ response, g.handler.Gives (some response) → response.headers.Proper)
    {i j : Nat} {response later : Http.Response} (hreplays : Replays guests run.log i j response)
    (hlater : answerOf run j = some later) : IsMarked true later ∧ Shows response later := by
  rcases gives_of_replays hrun hreplays with ⟨giver, hgiver, hgives⟩
  have hheaders := hproper giver (List.mem_of_getElem? hgiver) response hgives
  rcases hreplays with ⟨_, g', key, stored, record, _, _, _, hj, _, hkey, hfound, _, _, hrecorded⟩
  rcases answersWith_of_answerOf hrun hlater with ⟨g'', older, hj', hown, hanswers⟩
  have hsame : g'' = g' := Option.some.inj (hj'.symm.trans hj)
  subst hsame
  rcases hfound with ⟨_, now, notes, hlooked, hrecord, _, _⟩
  have hfinds : Finds key record (own j run.log) := ⟨now, _, notes, hlooked, hrecord⟩
  rcases hanswers with ⟨key', record', hkey', hknows, hshows, hmarked⟩ | ⟨hknows, _, _⟩
  · have hown' : key' = key := Option.some.inj (hkey'.symm.trans hkey)
    subst hown'
    have hfound : record' = record :=
      Option.some.inj (((knows_of_ended hown hknows).found record).1 hfinds)
    subst hfound
    rcases Once.recordOf_eq_some hrecord with ⟨stored', hstored, hread, _⟩
    rw [Answer.value.injEq, Option.some.injEq] at hstored
    subst hstored
    exact ⟨hmarked, (shows_of_readBack hrecorded hheaders hread).trans hshows⟩
  · exact nomatch ((knows_of_ended hown (hknows key hkey)).found record).1 hfinds

/-- A guest is told of a replay if and only if it is answered with the record of a
response that the handler of another one gave.  Then it is shown that response, and
so is the other one, if that was answered. -/
theorem replay_shows (hrun : run = .of (begin clocks plan guests) happenings)
    (hproper : ∀ g ∈ guests, ∀ response, g.handler.Gives (some response) → response.headers.Proper)
    {j : Nat} {later : Http.Response} (hlater : answerOf run j = some later) :
    (IsMarked true later ↔ ∃ i response, Replays guests run.log i j response) ∧
    ∀ i response, Replays guests run.log i j response →
      Shows response later ∧ ∀ first, answerOf run i = some first →
        IsMarked false first ∧ Shows response first ∧ Shows first later := by
  have haccount := Run.account (begins clocks plan guests) (parties_keep guests) happenings
  rw [← hrun] at haccount
  refine ⟨⟨?_, ?_⟩, ?_⟩
  · intro hmarked
    rcases answersWith_of_answerOf hrun hlater with ⟨g, older, hj, hown, hanswers⟩
    rcases hanswers with ⟨key, record, hkey, hknows, _⟩ | ⟨_, hunmarked, _⟩
    · exact replays_of_finds haccount hj hkey (((knows_of_ended hown hknows).found record).2 rfl)
    · exact absurd hunmarked hmarked.unique
  · rintro ⟨i, response, hreplays⟩
    exact (later_shows hrun hproper hreplays hlater).1
  · intro i response hreplays
    have hshows := (later_shows hrun hproper hreplays hlater).2
    refine ⟨hshows, fun first hfirst => ?_⟩
    rcases first_shows hrun hreplays hfirst with ⟨hmarked, hgiven⟩
    exact ⟨hmarked, hgiven, hgiven.symm.trans hshows⟩

end

/-! ## An order that is placed twice -/

/-- The answer to an order: a streamed body, and two headers of one name around
another. -/
def confirmation : Http.Response where
  status := 201
  headers := .ofList [("set-cookie", Bytes.ofText "a=1"), ("x-order", [0xFF]),
    ("set-cookie", Bytes.ofText "b=2"), ("x-ratelimit-limit", Bytes.ofText "none")]
  body := .stream [Bytes.ofText "it is ", Bytes.ofText "done"] none

/-- Somebody who places the order. -/
def buyer : Guest where
  admission := Service.office.admission
  request := ⟨.post, "/payments", .ofList [Service.sharedKey], .ofBytes (Bytes.ofText "one"), none⟩
  handler := ⟨none, fun _ _ => some confirmation⟩
  time := 0
  cancelAt := none

/-- The order is placed, and placed again a second later. -/
def twoOrders : Chronicle Http.Response :=
  .of (begin (.start Service.newYear none) .faultless [buyer, buyer])
    [.move (.resume 0), .pass 1000000000, .move (.resume 1)]

/-- The headers of the confirmation are proper. -/
theorem proper_confirmation : confirmation.headers.Proper := by
  refine ⟨by decide, ?_, ?_, ?_⟩
  · decide
  · decide
  · decide

/-- Both buyers are given the confirmation. -/
theorem eq_confirmation {g : Guest} (hg : g ∈ [buyer, buyer]) {response : Http.Response}
    (hgives : g.handler.Gives (some response)) : response = confirmation := by
  have hbuyer : g = buyer := by simpa using hg
  subst hbuyer
  rcases hgives with ⟨n, request, hanswer⟩
  exact (Option.some.inj hanswer).symm

/-- The second buyer is told of a replay of what the first was answered, and both are
shown the confirmation with all of its headers but those in which the admission
speaks. -/
theorem twoOrders_confirmed :
    ∃ first later, answerOf twoOrders 0 = some first ∧ answerOf twoOrders 1 = some later ∧
      IsMarked true later ∧ Replays [buyer, buyer] twoOrders.log 0 1 confirmation ∧
      Shows confirmation first ∧ Shows first later ∧
      later.headers.others.map (·.1) = ["set-cookie", "set-cookie", "x-order"] := by
  have hrun : twoOrders = .of (begin (.start Service.newYear none) .faultless [buyer, buyer])
      [.move (.resume 0), .pass 1000000000, .move (.resume 1)] := rfl
  have hproper : ∀ g ∈ [buyer, buyer], ∀ response, g.handler.Gives (some response) →
      response.headers.Proper := by
    intro g hg response hgives
    rw [eq_confirmation hg hgives]
    exact proper_confirmation
  have hanswered : (answerOf twoOrders 0).isSome = true := by decide +kernel
  rcases Option.isSome_iff_exists.1 hanswered with ⟨first, hfirst⟩
  have hsecond : (answerOf twoOrders 1).map (·.headers.values "idempotent-replayed") =
      some [Bytes.ofText "true"] := by decide +kernel
  rcases Option.map_eq_some_iff.1 hsecond with ⟨later, hlater, hmarked⟩
  rcases replay_shows hrun hproper hlater with ⟨hiff, hshows⟩
  rcases hiff.1 hmarked with ⟨i, response, hreplays⟩
  rcases gives_of_replays hrun hreplays with ⟨g, hg, hgives⟩
  have hresponse := eq_confirmation (List.mem_of_getElem? hg) hgives
  subst hresponse
  rcases hshows i _ hreplays with ⟨hlaterShows, hothers⟩
  have hfirstOne : i = 0 := by
    have hlt : i < 2 := (List.getElem?_eq_some_iff.1 hg).1
    have hne : i ≠ 1 := by
      rintro rfl
      exact IsMarked.unique hmarked (hothers later hlater).1
    omega
  subst hfirstOne
  rcases hothers first hfirst with ⟨_, hfirstShows, hsame⟩
  refine ⟨first, later, hfirst, hlater, hmarked, hreplays, hfirstShows, hsame, ?_⟩
  rw [hlaterShows.headers]
  decide

end Guest

end Turnstile

import Turnstile.Proofs.Once.Recordable
import Turnstile.Service.ErrorLog

/-!
# Buffered responses reach the client

Two layers look at the body of a response on its way to the client: one logs the bodies of
server errors, and one records the responses of successful runs.  Either buffers the body
up to a limit and hands on another response instead.

A client cannot tell: the other response has the same status and the same headers, and its
body delivers the same bytes in the same order and then ends, or breaks off with the same
error.  That is so where the body ends within the limit, where it breaks off after some
frames, and where it is given up as too long with frames still to be read.

Main results:

- Theorem `ErrorLog.received_observe`: a response that is logged is handed on.
- Theorem `Once.received_of_capture`: a response that is captured is handed on, whatever
  becomes of its record.
- Theorem `client_receives_the_same`: buffering never changes what the client receives.
-/

namespace Turnstile

open Run

/-- A client gets of a response that is logged what it would have got without the log. -/
theorem ErrorLog.received_observe (method : Http.Method) (path : String)
    (response : Http.Response) :
    (ErrorLog.observe method path response).response.received = response.received := by
  have hdelivered := ErrorLog.delivered_observe method path response
  unfold ErrorLog.observe at hdelivered ⊢
  by_cases herror : Http.isServerError response.status = true
  · rw [if_pos herror] at hdelivered ⊢
    exact Http.Response.received_withBody hdelivered
  · rw [if_neg herror]

namespace Once

variable {cfg : Config} {key : OperationKey} {handler : Handler} {response given : Http.Response}

/-- Capturing a response ends with one of which a client gets the same. -/
theorem capture_hands_on : KeepsFromStart handler
    (.ending fun _ given => given.received = response.received) (capture cfg key response) := by
  refine ⟨trivial, ?_⟩
  rw [← Program.bind_pure (capture cfg key response)]
  apply capture_treats
  intro notes given htreats
  exact htreats.received_eq

/-- A client gets of a response that is captured what it would have got otherwise, whatever
the store answers. -/
theorem received_of_capture {notes : List Note} {owed : Option Store.Call}
    (h : Path handler ⟨.resting (capture cfg key response), none⟩ notes ⟨.ended given, owed⟩) :
    given.received = response.received := by
  rcases conduct_of_path capture_hands_on h with ⟨_, older, _, hreceived⟩
  exact hreceived

/-- So it is for the response of a run that a caller ends with. -/
theorem Executes.received_eq {http : Http.Request} {notes : List Note}
    (h : Executes cfg key http notes response given) : given.received = response.received := by
  rcases h with ⟨_, _, _, _, _, _, htreats, _⟩
  exact htreats.received_eq

end Once

/-- Buffering never changes what the client receives.  However a body is framed, wherever
it ends or breaks off, and whatever the limit: what was buffered of it delivers the same,
in the same frames where it is not all of it.  So a response that is logged, and one that
is captured whatever the store answers to its record, reaches the client with its status,
its headers, its bytes and its ending, and so does the response of every run of a handler
that a caller ends with. -/
theorem client_receives_the_same :
    (∀ (body : Http.Body) (limit : Nat), (body.collectLimited limit).delivered = body.delivered ∧
      ∀ passed, body.collectLimited limit = .passthrough passed → passed.frames = body.frames) ∧
    (∀ (method : Http.Method) (path : String) (response : Http.Response),
      (ErrorLog.observe method path response).response.received = response.received) ∧
    (∀ (cfg : Once.Config) (key : OperationKey) (handler : Handler)
      (response given : Http.Response) (notes : List Note) (owed : Option Store.Call),
      Path handler ⟨.resting (Once.capture cfg key response), none⟩ notes ⟨.ended given, owed⟩ →
      given.received = response.received) ∧
    ∀ (c : Once.Caller) (s : State Once.Result) (happenings : List Happening) (i : Nat)
      (t : Run.Task Once.Result) (given : Http.Response) (time : Nat), (∀ t ∈ s.tasks, t.Fits) →
      s.tasks[i]? = some c.task → (Chronicle.of s happenings).state.tasks[i]? = some t →
      t.wait = .nothing (.result (.ok (.executed given))) time →
      ∃ response, .finished (some response) ∈ own i (Chronicle.of s happenings).log ∧
        given.received = response.received := by
  refine ⟨fun body limit => ⟨Http.Body.delivered_collectLimited body limit, fun passed h => ?_⟩,
    ErrorLog.received_observe, fun _ _ _ _ _ _ _ hpath => Once.received_of_capture hpath, ?_⟩
  · rw [Http.Body.eq_of_passthrough h]
    rfl
  · intro c s happenings i t given time hfits htask ht hwait
    rcases Once.Caller.executes_of_run hfits htask ht hwait with
      ⟨_, response, older, _, hown, hexecutes, _⟩
    refine ⟨response, ?_, hexecutes.received_eq⟩
    rw [hown]
    exact List.mem_cons_of_mem _ hexecutes.finished

/-! ## A body that breaks off -/

/-- A confirmation that breaks off after three bytes. -/
def brokenOff : Http.Response :=
  ⟨201, .empty, .stream [[1, 2], [], [3]] (some "connection reset")⟩

/-- The confirmation is not recorded, but passed through. -/
theorem brokenOff_path (key : OperationKey) (handler : Handler) :
    ∃ notes given, Path handler ⟨.resting (Once.capture .standard key brokenOff), none⟩ notes
      ⟨.ended given, none⟩ := by
  rcases Once.capture_eq .standard key brokenOff with
    ⟨_, body, _, hcapture⟩ | ⟨bytes, hsome, _⟩
  · rw [hcapture]
    have hresumed : Path handler
        ⟨.resting (Once.passThrough key { brokenOff with body := body }), none⟩ [.resumed]
        ⟨.going (Once.passThrough key { brokenOff with body := body }), none⟩ :=
      Path.single .resumed
    exact ⟨_, _, (hresumed.step .emitted).step .ended⟩
  · have hends := congrArg Prod.snd (Once.captured?_eq_some hsome).2
    exact nomatch hends

/-- The three bytes and the error reach the client, although only two bytes are buffered,
although the response is logged, and although it might have been recorded.  A streamed
confirmation that is recorded reaches the client as well. -/
theorem brokenOff_received :
    (brokenOff.body.collectLimited 2).delivered = ([1, 2, 3], some "connection reset") ∧
    (ErrorLog.observe .get "/payments" { brokenOff with status := 502 }).response.received =
      (502, .empty, [1, 2, 3], some "connection reset") ∧
    (∃ notes given, Path Once.promptPayer.handler
        ⟨.resting (Once.capture .standard Once.orderKey brokenOff), none⟩ notes
        ⟨.ended given, none⟩ ∧
      given.received = (201, .empty, [1, 2, 3], some "connection reset")) ∧
    ∃ t given time, Once.streamedPayment.state.tasks[0]? = some t ∧
      t.wait = .nothing (.result (.ok (.executed given))) time ∧
      given.received = Once.streamed.received := by
  rcases brokenOff_path Once.orderKey Once.promptPayer.handler with ⟨notes, cut, hpath⟩
  rcases Once.streamedPayment_log with ⟨hown, t, given, time, ht, hwait⟩
  rcases client_receives_the_same.2.2.2 Once.streamingPayer _ _ 0 t given time
    (Once.begins _ _ _).fits rfl ht hwait with ⟨response, hfinished, hreceived⟩
  have hresponse : response = Once.streamed := by
    rw [show (Chronicle.of _ _).log = Once.streamedPayment.log from rfl, hown] at hfinished
    simpa [Once.streamedNotes, Once.recordedNotes, Once.clearedNotes, Once.lookedUp,
      Once.tookLock] using hfinished
  refine ⟨(client_receives_the_same.1 brokenOff.body 2).1,
    client_receives_the_same.2.1 .get "/payments" { brokenOff with status := 502 },
    ⟨notes, cut, hpath, client_receives_the_same.2.2.1 _ _ _ brokenOff cut notes none hpath⟩,
    t, given, time, ht, hwait, hresponse ▸ hreceived⟩

end Turnstile

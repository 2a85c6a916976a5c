import Turnstile.Http.Message

/-!
# What can be buffered

Buffering stops at the first frame that does not fit, so it is decided frame by frame
whether a body is buffered.  What is decided does not depend on the frames: a body is
buffered just when it ends and has no more bytes in all than the limit allows.

Main results:

- Theorem `collectFrom_eq_complete_iff`: which frames are collected after others.
- Theorem `bytesWithin?_eq_some_iff`: which bodies are buffered, and as which bytes.
- Theorem `eq_of_passthrough`: a body that is not buffered keeps its frames.
-/

namespace Turnstile.Http.Body

variable {limit size : Nat} {failure : Option String} {taken frames : List Bytes} {bytes : Bytes}

/-- Frames that come after others are collected just when the body ends and all of them
fit. -/
theorem collectFrom_eq_complete_iff (hsize : taken.reverse.flatten.length = size)
    (hle : size ≤ limit) :
    collectFrom limit failure taken size frames = .complete bytes ↔
      failure = none ∧ (taken.reverse ++ frames).flatten = bytes ∧
        (taken.reverse ++ frames).flatten.length ≤ limit := by
  induction frames generalizing taken size with
  | nil =>
      cases failure with
      | none => simp [collectFrom, ← hsize] at hle ⊢; omega
      | some error => simp [collectFrom]
  | cons frame rest ih =>
      have hlength : (taken.reverse ++ frame :: rest).flatten.length =
          size + frame.length + rest.flatten.length := by
        rw [← hsize, List.flatten_append, List.length_append, List.flatten_cons, List.length_append,
          Nat.add_assoc]
      simp only [collectFrom]
      by_cases hlong : limit < size + frame.length
      · rw [if_pos hlong]
        constructor
        · intro h
          cases h
        · rintro ⟨_, _, hfits⟩
          omega
      · have htaken : (frame :: taken).reverse.flatten.length = size + frame.length := by
          simp [← hsize]
        rw [if_neg hlong, ih htaken (by omega)]
        simp

/-- A body is buffered just when it ends and is no longer than the limit, and then as
its bytes. -/
theorem bytesWithin?_eq_some_iff (body : Body) (limit : Nat) (bytes : Bytes) :
    body.bytesWithin? limit = some bytes ↔
      body.failure = none ∧ body.bytes = bytes ∧ body.bytes.length ≤ limit := by
  have hcollect : body.collectLimited limit = .complete bytes ↔
      body.failure = none ∧ body.bytes = bytes ∧ body.bytes.length ≤ limit :=
    collectFrom_eq_complete_iff rfl (Nat.zero_le limit)
  rw [← hcollect, bytesWithin?]
  cases body.collectLimited limit <;> simp

/-- A body is not buffered just when it breaks off or is longer than the limit. -/
theorem bytesWithin?_eq_none_iff (body : Body) (limit : Nat) :
    body.bytesWithin? limit = none ↔
      ¬ (body.failure = none ∧ body.bytes.length ≤ limit) := by
  rw [Option.eq_none_iff_forall_ne_some]
  constructor
  · rintro h ⟨hends, hfits⟩
    exact h body.bytes ((bytesWithin?_eq_some_iff body limit _).2 ⟨hends, rfl, hfits⟩)
  · intro h bytes hbytes
    rcases (bytesWithin?_eq_some_iff body limit bytes).1 hbytes with ⟨hends, _, hfits⟩
    exact h ⟨hends, hfits⟩

/-- Frames that are passed through come as they came, with the same ending. -/
theorem eq_of_collectFrom_passthrough {passed : Body}
    (h : collectFrom limit failure taken size frames = .passthrough passed) :
    passed = stream (taken.reverse ++ frames) failure := by
  induction frames generalizing taken size with
  | nil =>
      cases failure with
      | none => exact nomatch h
      | some error =>
          simp only [collectFrom, Captured.passthrough.injEq] at h
          rw [← h, List.append_nil]
  | cons frame rest ih =>
      simp only [collectFrom] at h
      by_cases hlong : limit < size + frame.length
      · rw [if_pos hlong, Captured.passthrough.injEq] at h
        rw [← h, List.reverse_cons, List.append_assoc, List.singleton_append]
      · rw [if_neg hlong] at h
        rw [ih h, List.reverse_cons, List.append_assoc, List.singleton_append]

/-- A body that is not buffered is passed through in the same frames, with the same
ending; only its length is not declared any more. -/
theorem eq_of_passthrough {body passed : Body} {limit : Nat}
    (h : body.collectLimited limit = .passthrough passed) :
    passed = stream body.frames body.failure :=
  eq_of_collectFrom_passthrough h

end Turnstile.Http.Body

namespace Turnstile.Http.Response

/-- What a client gets of a response: its status, its headers, and what its body
delivers. -/
def received (response : Response) : Nat × Headers × Bytes × Option String :=
  (response.status, response.headers, response.body.delivered)

/-- A body that delivers the same changes nothing for the client. -/
theorem received_withBody {response : Response} {body : Body}
    (h : body.delivered = response.body.delivered) :
    { response with body := body }.received = response.received := by
  simp only [received, h]

end Turnstile.Http.Response

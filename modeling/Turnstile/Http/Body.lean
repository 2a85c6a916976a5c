import Turnstile.Bytes

/-!
# Bodies

A body is a sequence of frames of bytes that ends, or breaks off with an error
where the sender fails.  A body that is known from the start declares its
length; a streamed one does not.

Buffering a body up to a limit either gives all of its bytes or hands back a
body that delivers the same bytes with the same ending.

Main results:

- `delivered_collectLimited`: buffering loses nothing.
- `length_of_bytesWithin?`: what is buffered is no longer than the limit.
- `delivered_ofBytes`: a body of given bytes delivers them and ends.
-/

namespace Turnstile.Http

/-- A body as the frames in which it is delivered. -/
structure Body where
  frames : List Bytes
  /-- The error with which the body breaks off after its frames, if it does. -/
  failure : Option String
  /-- The length in bytes, where it is known before the body is read. -/
  declared : Option Nat
  deriving DecidableEq

namespace Body

/-- The body of the given bytes, whose length is known. -/
def ofBytes (bytes : Bytes) : Body :=
  ⟨if bytes.isEmpty then [] else [bytes], none, some bytes.length⟩

/-- The body without bytes. -/
def empty : Body := ofBytes []

/-- A streamed body. -/
def stream (frames : List Bytes) (failure : Option String) : Body :=
  ⟨frames, failure, none⟩

/-- The bytes that reading the body delivers. -/
def bytes (body : Body) : Bytes :=
  body.frames.flatten

/-- What a reader of the body gets: the bytes, and the error at their end. -/
def delivered (body : Body) : Bytes × Option String :=
  (body.bytes, body.failure)

end Body

/-- The outcome of buffering a body. -/
inductive Captured where
  /-- The body ended within the limit, with these bytes. -/
  | complete (bytes : Bytes)
  /-- The body was too long or broke off; this one delivers the same. -/
  | passthrough (body : Body)
  deriving DecidableEq

namespace Captured

/-- What a reader gets of the outcome. -/
def delivered : Captured → Bytes × Option String
  | complete bytes => (bytes, none)
  | passthrough body => body.delivered

end Captured

namespace Body

/-- Buffers frames up to `limit` bytes.  `taken` holds the frames buffered so
far, the last one first, and `size` their length. -/
def collectFrom (limit : Nat) (failure : Option String) (taken : List Bytes) (size : Nat) :
    List Bytes → Captured
  | [] =>
      match failure with
      | none => .complete taken.reverse.flatten
      | some error => .passthrough (stream taken.reverse (some error))
  | frame :: rest =>
      let size := size + frame.length
      if limit < size then .passthrough (stream ((frame :: taken).reverse ++ rest) failure)
      else collectFrom limit failure (frame :: taken) size rest

/-- Buffers a body up to `limit` bytes, and stops as soon as it has more. -/
def collectLimited (body : Body) (limit : Nat) : Captured :=
  collectFrom limit body.failure [] 0 body.frames

/-- The bytes of a body of at most `limit` bytes that does not break off. -/
def bytesWithin? (body : Body) (limit : Nat) : Option Bytes :=
  match body.collectLimited limit with
  | .complete bytes => some bytes
  | .passthrough _ => none

/-! ## Delivery -/

/-- A body of given bytes delivers them and ends. -/
theorem delivered_ofBytes (bytes : Bytes) : (ofBytes bytes).delivered = (bytes, none) := by
  cases bytes <;> simp [ofBytes, delivered, Body.bytes]

theorem delivered_collectFrom (limit : Nat) (failure : Option String) (taken : List Bytes)
    (size : Nat) (frames : List Bytes) :
    (collectFrom limit failure taken size frames).delivered =
      ((taken.reverse ++ frames).flatten, failure) := by
  induction frames generalizing taken size with
  | nil => cases failure <;> simp [collectFrom, Captured.delivered, delivered, Body.bytes, stream]
  | cons frame rest ih =>
      simp only [collectFrom]
      split
      · simp [Captured.delivered, delivered, Body.bytes, stream]
      · rw [ih]
        simp

/-- Buffering loses nothing. -/
theorem delivered_collectLimited (body : Body) (limit : Nat) :
    (body.collectLimited limit).delivered = body.delivered := by
  simp [collectLimited, delivered_collectFrom, delivered, Body.bytes]

/-! ## Length -/

theorem length_collectFrom {limit size : Nat} {failure : Option String} {taken frames : List Bytes}
    {bytes : Bytes} (hsize : taken.reverse.flatten.length = size) (hle : size ≤ limit)
    (h : collectFrom limit failure taken size frames = .complete bytes) : bytes.length ≤ limit := by
  induction frames generalizing taken size with
  | nil =>
      cases failure with
      | none =>
          simp only [collectFrom, Captured.complete.injEq] at h
          rw [← h, hsize]
          exact hle
      | some error => simp [collectFrom] at h
  | cons frame rest ih =>
      simp only [collectFrom] at h
      split at h
      · exact nomatch h
      · next hfits =>
          refine ih ?_ (by omega) h
          rw [← hsize]
          simp

/-- What is buffered is no longer than the limit. -/
theorem length_of_bytesWithin? {body : Body} {limit : Nat} {bytes : Bytes}
    (h : body.bytesWithin? limit = some bytes) : bytes.length ≤ limit := by
  unfold bytesWithin? at h
  cases hbody : body.collectLimited limit with
  | passthrough passed =>
      rw [hbody] at h
      exact nomatch h
  | complete all =>
      rw [hbody] at h
      have hall : all = bytes := Option.some.inj h
      rw [← hall]
      have hnothing : ([] : List Bytes).reverse.flatten.length = 0 := rfl
      exact length_collectFrom hnothing (Nat.zero_le limit) hbody

end Body

end Turnstile.Http

import Turnstile.Bytes
import Turnstile.Time.Timestamp

/-!
# Stores

A store keeps three kinds of entries under keys of text: values, locks and
rate windows.  Every call that guards an invariant is one atomic step of the
store.

This module names the calls, their answers and their errors; `Store.Local` and
`Redis.Store` carry them out.
-/

namespace Turnstile.Store

/-- The token that a lock is held under.  Those that a store hands out differ
from each other and from every text that a caller can make up. -/
inductive Token where
  | issued (n : Nat)
  | text (s : String)
  deriving DecidableEq

/-- The outcome of recording a request in a rate window. -/
structure WindowOutcome where
  admitted : Bool
  /-- The live entries after the call, the new one among them. -/
  count : Nat
  /-- The stamp of the oldest live entry. -/
  oldest : Option Int
  deriving DecidableEq

/-- A call of a store. -/
inductive Call where
  /-- The value under the key, if there is one and it has not expired. -/
  | get (key : String)
  /-- Keeps a value for a span of time. -/
  | set (key : String) (value : Bytes) (ttl : Span)
  /-- Removes the value and the rate window under the key. -/
  | delete (key : String)
  /-- Takes the lock for a span of time, if it is free or has expired. -/
  | acquireLock (key : String) (ttl : Span)
  /-- Frees the lock, if it is held under the token. -/
  | releaseLock (key : String) (token : Token)
  /-- Drops the entries older than the window, counts the rest, and records the
  stamp if fewer than the limit are left. -/
  | recordInWindow (key : String) (now : Int) (window : Span) (limit : Nat) (ttl : Span)
  /-- The number of entries in the window. -/
  | countInWindow (key : String) (now : Int) (window : Span)
  deriving DecidableEq

/-- The name of a kind of call. -/
inductive Operation where
  | get
  | set
  | delete
  | acquireLock
  | releaseLock
  | recordInWindow
  | countInWindow
  deriving DecidableEq

/-- The kind of a call. -/
def Call.operation : Call → Operation
  | .get .. => .get
  | .set .. => .set
  | .delete .. => .delete
  | .acquireLock .. => .acquireLock
  | .releaseLock .. => .releaseLock
  | .recordInWindow .. => .recordInWindow
  | .countInWindow .. => .countInWindow

/-- The written name of a kind of call. -/
def Operation.name : Operation → String
  | .get => "get"
  | .set => "set"
  | .delete => "delete"
  | .acquireLock => "acquire_lock"
  | .releaseLock => "release_lock"
  | .recordInWindow => "record_in_window"
  | .countInWindow => "count_in_window"

/-- What a store answers to a call. -/
inductive Answer where
  | value (v : Option Bytes)
  | token (t : Option Token)
  | window (o : WindowOutcome)
  | count (n : Nat)
  | done
  deriving DecidableEq

/-- Why a call of a store failed. -/
inductive Error where
  /-- The store could not carry out the call. -/
  | backend (message : String)
  /-- A stored value could not be understood. -/
  | serialization (message : String)
  /-- The call took longer than its deadline. -/
  | timeout (operation : Operation) (after : Span)
  deriving DecidableEq

/-- The text of an error. -/
def Error.message : Error → String
  | .backend message => "store backend failure: " ++ message
  | .serialization message => "store serialization failure: " ++ message
  | .timeout operation after =>
      "store operation `" ++ operation.name ++ "` timed out after " ++ after.describe

/-- What a component does when the store fails. -/
inductive FailurePolicy where
  /-- It goes on without what the store would have ensured. -/
  | failOpen
  /-- It refuses the request. -/
  | failClosed
  deriving DecidableEq

/-- The stamp at which a window that ends at `now` begins; it never lies before
the smallest stamp. -/
def windowStart (now : Int) (window : Span) : Int :=
  max (now - min (window.nanos : Int) Timestamp.maxStamp) Timestamp.minStamp

theorem windowStart_le (now : Int) (window : Span) (h : Timestamp.minStamp ≤ now) :
    windowStart now window ≤ now := by
  unfold windowStart Timestamp.maxStamp
  omega

end Turnstile.Store
